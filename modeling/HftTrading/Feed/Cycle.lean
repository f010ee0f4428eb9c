import HftTrading.Feed.Lossy

/-!
# One whole snapshot cycle

A cycle that arrives complete, each symbol's messages in order and the symbols interleaved at will,
on a feed that is out of sync: no message is raised, and a symbol whose messages have all been
handled is complete, **unless it has no orders** (`cycle_completes_iff`). Completion is tested where
an order is counted, and a `SnapshotInfo` that announces nothing is not followed by one.

A whole cycle is one with nothing lost, so what is known of lossy ones holds here too: each count is
of the orders received. To that the invariant `Present` adds that a symbol whose `SnapshotInfo` has
come does have a count, so that none of its orders resets the feed. One message then either leaves
the symbols as they were, or completes its own; and since the messages of a symbol come in order and
each once, its last one is where the count is reached.
-/

namespace HftTrading

open MarketData OrderBookManager

namespace SnapShotSynchronizer

/-- The items that events hand to the snapshot handlers about one symbol, in order. -/
def itemsOf (s : ℕ) (events : List Event) : List SnapshotItem :=
  (events.filterMap Event.item?).filter fun item ↦ item.symbol = s

/-- Events of one cycle. -/
def ofCycle (events : List Event) : List (ℕ × Event) := events.map fun event ↦ (0, event)

/-- The events of a cycle are the events. -/
theorem map_snd_ofCycle (events : List Event) : (ofCycle events).map Prod.snd = events := by
  simp [ofCycle, Function.comp_def]

/-- What is received of a symbol are its items, all of one cycle. -/
theorem filter_received_ofCycle (s : ℕ) (events : List Event) :
    ((received (ofCycle events)).filter fun x ↦ x.2.symbol = s) =
      (itemsOf s events).map fun item ↦ (0, item) := by
  have hreceived : received (ofCycle events) =
      (events.filterMap Event.item?).map fun item ↦ (0, item) := by
    rw [received, ofCycle, List.filterMap_map, List.map_filterMap]
    rfl
  rw [hreceived, List.filter_map]
  rfl

/-- A cycle that starts with the items of each symbol is in order. -/
theorem inOrder_ofCycle {snap : (symbol : ℕ) → SymbolSnapshot symbol} {events : List Event}
    (h : ∀ s, itemsOf s events <+: (snap s).items) :
    InOrder snap 0 (received (ofCycle events)) := by
  intro s
  rw [filter_received_ofCycle]
  exact (h s).map _

section Cycle

variable {snap : (symbol : ℕ) → SymbolSnapshot symbol} {l : List (ℕ × SnapshotItem)}
  {z : SnapShotSynchronizer} {s : ℕ}

/-- A complete symbol has orders, if it is one that the cycle has begun to count. -/
theorem Tracks.pos_of_completed (h : Tracks (fun _ ↦ snap) l z) (hinfo : lastInfo s l = some 0)
    (hstate : z.snapState.contains s = true) (hmem : (s : ℤ) ∈ z.completedSymbols) :
    0 < (snap s).info.bidCount + (snap s).info.askCount := by
  obtain ⟨state, hstate⟩ := Dict.contains_eq_true_iff.1 hstate
  obtain ⟨hne, hlength⟩ := (h s 0 state hinfo hstate).completed.1 hmem
  rw [(snap s).count_eq, ← hlength]
  exact List.length_pos_iff.2 hne

/-- When everything of a symbol is there, the symbol is complete exactly if it has orders. -/
theorem Tracks.completed_iff (h : Tracks (fun _ ↦ snap) l z) (hinfo : lastInfo s l = some 0)
    (hstate : z.snapState.contains s = true)
    (hall : (l.filter fun x ↦ x.2.symbol = s) = (snap s).items.map fun item ↦ (0, item)) :
    (s : ℤ) ∈ z.completedSymbols ↔ 0 < (snap s).info.bidCount + (snap s).info.askCount := by
  refine ⟨h.pos_of_completed hinfo hstate, fun hpos ↦ ?_⟩
  obtain ⟨state, hstate⟩ := Dict.contains_eq_true_iff.1 hstate
  have horders : ordersIn 0 s l = (snap s).orders := by
    rw [ordersIn, itemsIn, hall, Cycles.part_map_self, SymbolSnapshot.orders_of_items]
  rw [(snap s).count_eq] at hpos
  rw [(h s 0 state hinfo hstate).completed, horders]
  exact ⟨List.length_pos_iff.1 hpos, rfl⟩

/-- Every symbol whose `SnapshotInfo` has come is being counted. -/
def Present (l : List (ℕ × SnapshotItem)) (z : SnapShotSynchronizer) : Prop :=
  ∀ s c, lastInfo s l = some c → z.snapState.contains s = true

variable {z' : SnapShotSynchronizer} {c : ℕ}

/-- A `SnapshotInfo` opens the count of its symbol. -/
theorem Present.info {b : SnapshotInfo} (h : Present l z) (hz : Opened b z z') :
    Present (l ++ [(c, .info b)]) z' := by
  intro s c' hinfo
  rw [Dict.contains, hz.states]
  split
  · rfl
  · rename_i hne
    have hne' : b.symbol ≠ s := fun heq ↦ hne (by rw [heq])
    rw [lastInfo_concat_info, if_neg hne'] at hinfo
    exact h s c' hinfo

/-- An order is counted, and closes no count. -/
theorem Present.order {header : MDHeader} {b : NewOrder} {state : SnapState} (h : Present l z)
    (hz : Counted header b state z z') : Present (l ++ [(c, .order header b)]) z' := by
  intro s c' hinfo
  rw [lastInfo_concat_order] at hinfo
  rw [Dict.contains, hz.states]
  split
  · rfl
  · exact h s c' hinfo

/-- **One message.** When it is the last one of a symbol, or comes after it, the symbol is complete
if it has orders, or if the message found all symbols complete. -/
theorem Tracks.completed_step {item : SnapshotItem} (h : Tracks (fun _ ↦ snap) l z)
    (hsolvent : z.bookManager.Solvent) (hpresent : Present l z)
    (horder : InOrder snap 0 (l ++ [(0, item)])) (hrun : item.handle z = .ok () z')
    (hall : ((l ++ [(0, item)]).filter fun x ↦ x.2.symbol = s) =
      (snap s).items.map fun item ↦ (0, item)) :
    (s : ℤ) ∈ z'.completedSymbols ↔
      0 < (snap s).info.bidCount + (snap s).info.askCount ∨
        z.bufferCovers ∧ (s : ℤ) ∈ z.completedSymbols ∧
          z.completedSymbols.card = z.totalSymbols := by
  have hinfo := horder.lastInfo_of_all hall
  have hloss : Lossy (fun _ ↦ snap) 1 (l ++ [(0, item)]) := horder.lossy
  cases item with
  | info b =>
    rcases opened_of_handleSnapshotInfo hsolvent hrun with ⟨hcovers, hmem, hcard, rfl⟩ | ⟨hnot, hz⟩
    -- all symbols are complete: the message says so, and touches no count
    · show (s : ℤ) ∈ z.completedSymbols ↔ _
      refine ⟨fun hs ↦ Or.inr ⟨hcovers, hs, hcard⟩,
        fun h' ↦ h'.elim (fun hpos ↦ ?_) fun hdone ↦ hdone.2.1⟩
      by_cases hs : b.symbol = s
      · rwa [← hs]
      · have hother : [(0, SnapshotItem.info b)].filter (fun x ↦ x.2.symbol = s) = [] := by
          simp [SnapshotItem.symbol, hs]
        rw [List.filter_append, hother, List.append_nil] at hall
        rw [lastInfo_concat_info, if_neg hs] at hinfo
        exact (h.completed_iff hinfo (hpresent s 0 hinfo) hall).2 hpos
    -- a count is opened, and the counts say which symbols are complete
    · have hcounted := (hpresent.info hz) s 0 hinfo
      refine ((h.info hloss hz).completed_iff hinfo hcounted hall).trans
        (or_iff_left_of_imp fun hdone ↦ ?_).symm
      by_cases hs : b.symbol = s
      · rw [← hs] at hdone
        exact absurd hdone hnot
      · rw [lastInfo_concat_info, if_neg hs] at hinfo
        exact h.pos_of_completed hinfo (hpresent s 0 hinfo) hdone.2.1
  | order header b =>
    -- its `SnapshotInfo` has come, so the order is counted
    obtain ⟨-, hown⟩ := horder.of_order
    obtain ⟨state, hstate⟩ := Dict.contains_eq_true_iff.1 (hpresent b.symbol 0 hown)
    rcases counted_of_handleSnapshotOrder hsolvent hrun with ⟨hnone, -⟩ | ⟨_, hstate', hz⟩
    · cases hnone.symm.trans hstate
    have hcounted := (hpresent.order hz) s 0 hinfo
    refine ((h.order hloss hown hstate' hz).completed_iff hinfo hcounted hall).trans
      (or_iff_left_of_imp fun hdone ↦ ?_).symm
    rw [lastInfo_concat_order] at hinfo
    exact h.pos_of_completed hinfo (hpresent s 0 hinfo) hdone.2.1

end Cycle

section Runs

variable {snap : (symbol : ℕ) → SymbolSnapshot symbol} {totalSymbols : ℕ}
  {z₀ z : SnapShotSynchronizer} {pre : List Event}

/-- **Along a cycle in order** every symbol whose `SnapshotInfo` has come stays counted. -/
theorem present_run (hreach : Reachable totalSymbols z₀)
    (hdelivered : ∀ s, itemsOf s pre <+: (snap s).items)
    (hunsynced : ∀ before w, before <+: pre → runEvents before z₀ = .ok () w → w.sync = false)
    (hrun : runEvents pre z₀ = .ok () z) : Present (received (ofCycle pre)) z := by
  refine (run_induct hreach hreach.solvent (P := fun before z ↦ Present (received before) z)
    (fun _ s c hinfo ↦ by cases hinfo) (fun before x z z' hx hrun ih hstep ↦ ?_)
    (List.prefix_refl (ofCycle pre)) (by rwa [map_snd_ofCycle])
    (hunsynced pre z (List.prefix_refl _) hrun)).2
  have horder := (inOrder_ofCycle hdelivered).mono (received_mono hx)
  have hbefore : before.map Prod.snd <+: pre := by
    have hmap := ((List.prefix_append before [x]).trans hx).map Prod.snd
    rwa [map_snd_ofCycle] at hmap
  cases hstep with
  | fresh hs _ => exact absurd (hs.symm.trans (hunsynced _ _ hbefore hrun)) (by simp)
  | quiet hs hitem hz =>
    rw [received_concat_of_none hitem]
    intro s c hinfo
    rw [hz.states]
    exact ih hs s c hinfo
  | opened hs hitem hz =>
    rw [received_concat hitem]
    exact (ih hs).info hz
  | @restarted _ b hs hitem hnone _ =>
    -- the `SnapshotInfo` of the order has come, so there is a count for it
    rw [received_concat hitem] at horder
    obtain ⟨state, hstate⟩ := Dict.contains_eq_true_iff.1 (ih hs b.symbol _ horder.of_order.2)
    cases hnone.symm.trans hstate
  | counted hs hitem hstate hz =>
    rw [received_concat hitem]
    exact (ih hs).order hz

/-- **In a cycle delivered in order a symbol is complete exactly if it has orders**, once all of its
messages have been handled; or if its `SnapshotInfo` found all symbols complete, itself among them.
On the way no message is raised. -/
theorem cycle_completes_iff (hreach : Reachable totalSymbols z₀) {header : MDHeader}
    {body : MarketDataMessage} (hmagic : header.magicNumber ≠ MAGIC_NUMBER)
    (hdelivered : ∀ s, itemsOf s (pre ++ [.packet header body]) <+: (snap s).items)
    (hunsynced : ∀ before w, before <+: pre → runEvents before z₀ = .ok () w → w.sync = false)
    (hrun : runEvents pre z₀ = .ok () z) :
    ∃ z', handleSnapshotMessage header body z = .ok () z' ∧
      ∀ s, itemsOf s (pre ++ [.packet header body]) = (snap s).items →
        ((s : ℤ) ∈ z'.completedSymbols ↔
          0 < (snap s).info.bidCount + (snap s).info.askCount ∨
            z.bufferCovers ∧ (s : ℤ) ∈ z.completedSymbols ∧
              z.completedSymbols.card = z.totalSymbols) := by
  have hsplit : ofCycle (pre ++ [.packet header body]) =
      ofCycle pre ++ [(0, .packet header body)] := List.map_append
  have hz : Handled z₀ (ofCycle (pre ++ [.packet header body])) (ofCycle pre) 0 header body z :=
    ⟨by rw [hsplit], by rwa [map_snd_ofCycle], hunsynced pre z (List.prefix_refl _) hrun, hmagic⟩
  have horder := inOrder_ofCycle hdelivered
  have hown : OwnCycles z₀ (ofCycle (pre ++ [.packet header body])) := ownCycles_of_inOrder horder
  have hloss : Lossy (fun _ ↦ snap) 1 (received (ofCycle (pre ++ [.packet header body]))) :=
    horder.lossy
  have hsolvent := (hreach.run hrun).solvent hz.unsynced
  have htracks : Tracks (fun _ ↦ snap) (received (ofCycle pre)) z :=
    tracks_run hreach hloss hown ((List.prefix_append _ _).trans hz.before) hz.run hz.unsynced
  have hpresent : Present (received (ofCycle pre)) z := by
    refine present_run hreach (fun s ↦ List.IsPrefix.trans ?_ (hdelivered s)) hunsynced hrun
    exact ((List.prefix_append pre _).filterMap _).filter _
  obtain ⟨_, z', hrun'⟩ := Method.not_raises_iff.1 (hz.not_raises hreach hloss hown)
  refine ⟨z', hrun', fun s hall ↦ ?_⟩
  have hall' := (filter_received_ofCycle s _).trans (congrArg (List.map _) hall)
  rw [hsplit] at hall' horder
  rcases hitem : itemOf header body with - | item
  -- a message the handlers pass over
  · rw [received_concat_of_none (hz.item?_eq.trans hitem)] at hall' horder
    rw [handleSnapshotMessage_of_no_item hitem] at hrun'
    cases hrun'
    have hinfo := horder.lastInfo_of_all hall'
    exact (htracks.completed_iff hinfo (hpresent s 0 hinfo) hall').trans (or_iff_left_of_imp
      fun hdone ↦ htracks.pos_of_completed hinfo (hpresent s 0 hinfo) hdone.2.1).symm
  · rw [received_concat (hz.item?_eq.trans hitem)] at hall' horder
    rw [handleSnapshotMessage_of_item hitem] at hrun'
    exact htracks.completed_step hsolvent hpresent horder hrun' hall'

end Runs

/-- One buy for every symbol but symbol 3, whose book is empty. -/
def emptyThird (s : ℕ) : SymbolSnapshot s :=
  buysOf s (if s = 3 then [] else [s]) (by split <;> simp)

/-- The whole cycle, symbol by symbol. -/
def fullCycle : List Event :=
  (List.range 13).flatMap fun s ↦ (emptyThird s).items.map fun item ↦ (packetOf 0 item).2

/-- Everything of all thirteen symbols has been handled, and the empty one is not complete. -/
theorem empty_book_not_completed :
    ∃ z, runEvents fullCycle (start 13) = .ok () z ∧
      (∀ s < 13, itemsOf s fullCycle = (emptyThird s).items) ∧ (3 : ℤ) ∉ z.completedSymbols := by
  obtain ⟨z, hrun, hp⟩ := exists_run fullCycle (start 13)
    (fun z ↦ decide ((3 : ℤ) ∉ z.completedSymbols)) (by decide +kernel)
  exact ⟨z, hrun, by decide +kernel, by simpa using hp⟩

/-- A symbol with an order is: its two messages, on a new feed. -/
theorem completed_with_order :
    ∃ z z', handleSnapshotMessage ⟨0, 45, 0, 0, .newOrder⟩ (.newOrder ⟨1, 1, .buy, 1, 100, 0⟩) z =
      .ok () z' ∧ (1 : ℤ) ∉ z.completedSymbols ∧ (1 : ℤ) ∈ z'.completedSymbols := by
  set info : Event := (packetOf 0 (.info (emptyThird 1).info)).2 with hinfo
  obtain ⟨z, hrun, hp⟩ := exists_run [info] (start 13)
    (fun z ↦ !z.sync && decide ((1 : ℤ) ∉ z.completedSymbols)) (by decide +kernel)
  simp only [Bool.and_eq_true, Bool.not_eq_true', decide_eq_true_eq] at hp
  have hdelivered : ∀ s, itemsOf s ([info] ++ [.packet ⟨0, 45, 0, 0, .newOrder⟩
      (.newOrder ⟨1, 1, .buy, 1, 100, 0⟩)]) <+: (emptyThird s).items := by
    intro s
    rcases eq_or_ne s 1 with rfl | hs
    · decide
    · have hnone : itemsOf s ([info] ++ [.packet ⟨0, 45, 0, 0, .newOrder⟩
          (.newOrder ⟨1, 1, .buy, 1, 100, 0⟩)]) = [] := by
        simp [itemsOf, Event.item?, itemOf, hinfo, packetOf, emptyThird, buysOf, MAGIC_NUMBER,
          SnapshotItem.symbol, hs.symm]
      rw [hnone]
      exact List.nil_prefix
  have hunsynced : ∀ before w, before <+: [info] → runEvents before (start 13) = .ok () w →
      w.sync = false := by
    rintro before w hbefore hw
    rcases before with - | ⟨first, rest⟩
    · cases hw
      rfl
    · obtain ⟨rfl, hrest⟩ := List.cons_prefix_cons.1 hbefore
      cases List.prefix_nil.1 hrest
      cases hrun.symm.trans hw
      exact hp.1
  obtain ⟨z', hrun', hiff⟩ := cycle_completes_iff ⟨[], rfl⟩ (by decide) hdelivered hunsynced hrun
  exact ⟨z, z', hrun', hp.2, (hiff 1 (by decide)).2 (Or.inl (by decide))⟩

end SnapShotSynchronizer

end HftTrading
