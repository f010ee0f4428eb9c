import HftTrading.Feed.Channel
import HftTrading.Feed.Recovery

/-!
# Snapshots under packet loss

The synchronizer counts the orders of a symbol since its last `SnapshotInfo`, and takes the symbol
for complete when the count is reached. It does not know which cycle an order belongs to. As long as
every order it counts is of the cycle of that `SnapshotInfo` (`OwnCycles`), its books are what has
been received of that cycle (`Tracks`): **nothing is raised, and a complete symbol holds its
snapshot**. Once a `SnapshotInfo` is lost and the orders behind it are not, neither is true.

## Two invariants

`Known` needs no condition on what was lost. It says that a symbol has a count only after a
`SnapshotInfo` of it, and that a symbol taken for complete has one. `Tracks` says what the count and
the book of the symbol are made of, and is where the condition comes in: at every order of a symbol
with a count, its cycle and that of the last `SnapshotInfo` are the same.

An order of a symbol without a count resets the feed, whatever its cycle. This is why the condition
is not on all the orders that arrive, and why it speaks of the state before each message: whether
there is a count is seen there.

A symbol is complete when as many orders have been counted as were announced. Being a part of the
orders of one snapshot, and as many, they are all of them.
-/

namespace HftTrading

open MarketData OrderBookManager

/-- A feed that has handled no snapshot has consistent books. -/
theorem Fresh.solvent {z : SnapShotSynchronizer} (h : Fresh z) : z.bookManager.Solvent where
  books := h.books
  positive s k o ho := by
    rw [h.orders] at ho
    cases ho

namespace SnapShotSynchronizer

/-! ### Runs without sync -/

/-- Nothing but the live buffer has changed, and what reading a best price cleans. -/
structure Untouched (z z' : SnapShotSynchronizer) : Prop where
  states : z'.snapState = z.snapState
  completed : z'.completedSymbols = z.completedSymbols
  kept : z.bookManager.Books → Kept z.bookManager z'.bookManager

/-- What an event does that leaves the feed out of sync. -/
inductive UnsyncedStep (z : SnapShotSynchronizer) (event : Event) (z' : SnapShotSynchronizer) : Prop
  | fresh (hs : z.sync = true) (hfresh : Fresh z')
  | quiet (hs : z.sync = false) (hitem : event.item? = none) (h : Untouched z z')
  | opened {b : SnapshotInfo} (hs : z.sync = false) (hitem : event.item? = some (.info b))
    (h : Opened b z z')
  | restarted {header : MDHeader} {b : NewOrder} (hs : z.sync = false)
    (hitem : event.item? = some (.order header b)) (hnone : z.snapState.get? b.symbol = none)
    (hfresh : Fresh z')
  | counted {header : MDHeader} {b : NewOrder} {state : SnapState} (hs : z.sync = false)
    (hitem : event.item? = some (.order header b))
    (hstate : z.snapState.get? b.symbol = some state) (h : Counted header b state z z')

/-- Out of sync, every step keeps the books consistent. -/
theorem UnsyncedStep.solvent {z z' : SnapShotSynchronizer} {event : Event}
    (h : UnsyncedStep z event z') (hz : z.sync = false → z.bookManager.Solvent) :
    z'.bookManager.Solvent := by
  cases h with
  | fresh _ hfresh => exact hfresh.solvent
  | quiet hs _ h => exact (hz hs).kept (h.kept (hz hs).books)
  | opened _ _ h => exact h.solvent
  | restarted _ _ _ hfresh => exact hfresh.solvent
  | counted _ _ _ h => exact h.solvent

/-- What handling an item does, unless it completes the snapshots. -/
theorem SnapshotItem.unsyncedStep {z z' : SnapShotSynchronizer} {event : Event}
    {item : SnapshotItem} (hitem : event.item? = some item) (hs : z.sync = false)
    (hz : z.bookManager.Solvent) (hrun : item.handle z = .ok () z')
    (hc : z'.snapComplete = false) : UnsyncedStep z event z' := by
  cases item with
  | info b =>
    rcases opened_of_handleSnapshotInfo hz hrun with ⟨-, -, -, rfl⟩ | ⟨-, h⟩
    · exact absurd (show true = false from hc) (by simp)
    · exact .opened hs hitem h
  | order header b =>
    rcases counted_of_handleSnapshotOrder hz hrun with ⟨hnone, rfl⟩ | ⟨state, hstate, h⟩
    · exact .restarted hs hitem hnone (fresh_reset z)
    · exact .counted hs hitem hstate h

/-- A replay ends in sync, so out of sync an event was a reset, a snapshot message or neither. -/
theorem Outcome.unsyncedStep {z z' : SnapShotSynchronizer} {event : Event}
    (hstep : Outcome z event z') (hepoch : z.Epoch) (hc : z.sync = false → z.snapComplete = false)
    (hz : z.sync = false → z.bookManager.Solvent) (hs' : z'.sync = false) :
    UnsyncedStep z event z' := by
  have hsame : Untouched z z := ⟨rfl, rfl, Kept.refl⟩
  cases hstep with
  | readNothing symbol => exact .quiet hs' rfl hsame
  | read hread => exact .quiet hs' rfl ⟨rfl, rfl, fun hb ↦ kept_readBook hb hread⟩
  | buffered hs hmagic => exact .quiet hs (if_pos hmagic) ⟨rfl, rfl, Kept.refl⟩
  | live hs _ hlive =>
    obtain ⟨expected, he, -⟩ := hepoch.live hs
    rcases processLive_ok he hlive with ⟨-, rfl⟩ | ⟨-, ⟨-, -, -, rfl⟩ | ⟨-, m', -, -, rfl⟩⟩
    · exact absurd (hs.symm.trans hs') (by simp)
    · exact .fresh hs (fresh_reset _)
    · exact absurd (hs.symm.trans hs') (by simp)
  | ignored hs => exact absurd (hs.symm.trans hs') (by simp)
  | @snapshot header body _ hs hmagic hsnap hc' =>
    rcases hitem : itemOf header body with - | item
    · rw [handleSnapshotMessage_of_no_item hitem] at hsnap
      cases hsnap
      exact .quiet hs ((if_neg hmagic).trans hitem) hsame
    · rw [handleSnapshotMessage_of_item hitem] at hsnap
      exact SnapshotItem.unsyncedStep ((if_neg hmagic).trans hitem) hs (hz hs) hsnap hc'
  | replay hs _ hsnap hc₁ hreplay =>
    -- the buffer reaches back to the snapshots, so the replay does not reset
    have hcovers := handleSnapshotMessage_covers (hc hs) hsnap hc₁
    rcases replayBufferedMessages_eq_ok_iff.1 hreplay with ⟨hnot, -⟩ | ⟨-, m, -, rfl⟩
    · exact absurd (replayCovers_of_bufferCovers _ hcovers) hnot
    · exact absurd (show true = false from hs') (by simp)

/-- **What holds out of sync at the start, and is kept by every step that ends out of sync, holds
out of sync wherever a run comes.** So does that the books are solvent. -/
theorem run_induct {totalSymbols : ℕ} {z₀ : SnapShotSynchronizer}
    (hreach : Reachable totalSymbols z₀) (hsolvent : z₀.sync = false → z₀.bookManager.Solvent)
    {P : List (ℕ × Event) → SnapShotSynchronizer → Prop} {events : List (ℕ × Event)}
    (hbase : z₀.sync = false → P [] z₀)
    (hstep : ∀ pre x z z', pre ++ [x] <+: events → runEvents (pre.map Prod.snd) z₀ = .ok () z →
      (z.sync = false → P pre z) → UnsyncedStep z x.2 z' → P (pre ++ [x]) z')
    {pre : List (ℕ × Event)} (hpre : pre <+: events) {z : SnapShotSynchronizer}
    (hrun : runEvents (pre.map Prod.snd) z₀ = .ok () z) (hs : z.sync = false) :
    z.bookManager.Solvent ∧ P pre z := by
  induction pre using List.reverseRecOn generalizing z with
  | nil =>
    cases hrun
    exact ⟨hsolvent hs, hbase hs⟩
  | append_singleton pre x ih =>
    rw [List.map_append, runEvents, List.map_append, Method.all_append] at hrun
    obtain ⟨_, w, hw, hlast⟩ := Method.bind_eq_ok_iff.1 hrun
    obtain ⟨_, w', hx, hnil⟩ := Method.bind_eq_ok_iff.1 hlast
    cases hnil
    have hreach' : Reachable totalSymbols w := hreach.run hw
    have hboth := ih ((List.prefix_append _ _).trans hpre) hw
    have hunsynced := (Event.step_ok hx).unsyncedStep hreach'.epoch hreach'.pending
      (fun hs ↦ (hboth hs).1) hs
    exact ⟨hunsynced.solvent fun hs ↦ (hboth hs).1,
      hstep pre x w z hpre hw (fun hs ↦ (hboth hs).2) hunsynced⟩

/-- Out of sync, every resting order has something left. -/
theorem Reachable.solvent {totalSymbols : ℕ} {z : SnapShotSynchronizer}
    (h : Reachable totalSymbols z) (hs : z.sync = false) : z.bookManager.Solvent := by
  obtain ⟨events, hrun⟩ := h
  have hrun' : runEvents ((events.map fun event ↦ (0, event)).map Prod.snd) (start totalSymbols) =
      .ok () z := by
    simpa [List.map_map, Function.comp_def] using hrun
  exact (run_induct (P := fun _ _ ↦ True) ⟨[], rfl⟩ (fun _ ↦ solvent_init) (fun _ ↦ trivial)
    (fun _ _ _ _ _ _ _ _ ↦ trivial) (List.prefix_refl _) hrun' hs).1

/-! ### Orders of one cycle -/

/-- What the synchronizer knows of a symbol whose counted orders are `os`, of the snapshot
`snap`. -/
structure Counts {symbol : ℕ} (snap : SymbolSnapshot symbol) (os : List (MDHeader × NewOrder))
    (state : SnapState) (z : SnapShotSynchronizer) : Prop where
  expected : state.expectedTotal = snap.orders.length
  received : state.ordersReceived = os.length
  orders : ∀ k, z.bookManager.order? symbol k = filed os k
  completed : (symbol : ℤ) ∈ z.completedSymbols ↔ os ≠ [] ∧ os.length = snap.orders.length

/-- Every count is of the orders received of the cycle of the last `SnapshotInfo`. -/
def Tracks (exchange : ℕ → (symbol : ℕ) → SymbolSnapshot symbol) (l : List (ℕ × SnapshotItem))
    (z : SnapShotSynchronizer) : Prop :=
  ∀ s c state, lastInfo s l = some c → z.snapState.get? s = some state →
    Counts (exchange c s) (ordersIn c s l) state z

section Tracks

variable {exchange : ℕ → (symbol : ℕ) → SymbolSnapshot symbol} {cycles c : ℕ}
  {l : List (ℕ × SnapshotItem)} {z z' : SnapShotSynchronizer} {header : MDHeader} {b : NewOrder}

/-- Before any message there is nothing to hold. -/
theorem Tracks.of_fresh (h : Fresh z) : Tracks exchange l z := by
  intro s c state _ hstate
  rw [h.snapState] at hstate
  cases hstate

/-- A message that changes no count and no book. -/
theorem Tracks.untouched (h : Tracks exchange l z) (hsolvent : z.bookManager.Solvent)
    (hz : Untouched z z') : Tracks exchange l z' := by
  intro s c state hinfo hstate
  rw [hz.states] at hstate
  obtain ⟨hexpected, hreceived, horders, hcompleted⟩ := h s c state hinfo hstate
  refine ⟨hexpected, hreceived, fun k ↦ ?_, ?_⟩
  · rw [(hz.kept hsolvent.books).orders]
    exact horders k
  · rw [hz.completed]
    exact hcompleted

/-- **A `SnapshotInfo`** starts the count of its own cycle, from nothing. -/
theorem Tracks.info {b : SnapshotInfo} (h : Tracks exchange l z)
    (hloss : Lossy exchange cycles (l ++ [(c, .info b)])) (hz : Opened b z z') :
    Tracks exchange (l ++ [(c, .info b)]) z' := by
  obtain ⟨hb, hnone⟩ := hloss.of_info
  intro s c' state hinfo hstate
  rw [ordersIn_concat_info]
  rw [lastInfo_concat_info] at hinfo
  rw [hz.states] at hstate
  by_cases hs : b.symbol = s
  -- nothing of the cycle comes before its `SnapshotInfo`, so the count starts at zero
  · subst hs
    rw [if_pos rfl] at hinfo hstate
    cases hinfo
    cases hstate
    rw [hnone]
    refine ⟨?_, rfl, fun k ↦ ?_, ?_⟩
    · show b.askCount + b.bidCount = _
      rw [← (exchange c b.symbol).count_eq, ← hb, Nat.add_comm]
    · rw [hz.orders, if_pos rfl]
      rfl
    · rw [hz.completed]
      simp
  · have hne : (s : ℤ) ≠ b.symbol := Nat.cast_injective.ne (Ne.symm hs)
    rw [if_neg hs] at hinfo
    rw [if_neg hne] at hstate
    obtain ⟨hexpected, hreceived, horders, hcompleted⟩ := h s c' state hinfo hstate
    refine ⟨hexpected, hreceived, fun k ↦ ?_, ?_⟩
    · rw [hz.orders, if_neg hne, horders]
    · rw [hz.completed, ← hcompleted]
      exact and_iff_right hne

/-- The next order of the cycle that is being counted: it has not been counted before, and the count
is still short. -/
theorem Tracks.next (h : Tracks exchange l z)
    (hloss : Lossy exchange cycles (l ++ [(c, .order header b)]))
    (hinfo : lastInfo b.symbol l = some c) {state : SnapState}
    (hstate : z.snapState.get? b.symbol = some state) :
    Counts (exchange c b.symbol) (ordersIn c b.symbol l) state z ∧
      (ordersIn c b.symbol l ++ [(header, b)]).Sublist (exchange c b.symbol).orders ∧
      (b.symbol : ℤ) ∉ z.completedSymbols := by
  have hcounts := h b.symbol c state hinfo hstate
  have hsub := hloss.orders_sublist c b.symbol
  rw [ordersIn_concat_order, if_pos ⟨rfl, rfl⟩] at hsub
  refine ⟨hcounts, hsub, fun hmem ↦ ?_⟩
  have hlength := hsub.length_le
  have hfull := (hcounts.completed.1 hmem).2
  rw [List.length_append, List.length_singleton] at hlength
  omega

/-- **An order of the cycle that is being counted fits.** -/
theorem Tracks.fits (h : Tracks exchange l z)
    (hloss : Lossy exchange cycles (l ++ [(c, .order header b)]))
    (hown : z.snapState.contains b.symbol = true → lastInfo b.symbol l = some c) :
    z.Fits header b := by
  intro state hstate
  have hinfo := hown (Dict.contains_eq_true_iff.2 ⟨state, hstate⟩)
  obtain ⟨hcounts, hsub, hpending⟩ := h.next hloss hinfo hstate
  have hmem : (header, b) ∈ (exchange c b.symbol).orders := hsub.subset (by simp)
  refine ⟨hpending, ⟨?_, ?_⟩, fun _ ↦ ?_⟩
  -- the ids of a snapshot differ, and this one has not been counted
  · rw [hcounts.orders]
    by_contra hsome
    obtain ⟨r, hr⟩ := Option.ne_none_iff_exists'.1 hsome
    obtain ⟨o, ho, hid, -⟩ := filed_eq_some hr
    exact (exchange c b.symbol).new_id hsub o ho (by exact_mod_cast hid)
  · exact_mod_cast (exchange c b.symbol).positive _ hmem
  -- what rests is a part of a snapshot that is not crossed
  · refine (exchange c b.symbol).not_crossed hsub fun r hr ↦ ?_
    rcases List.mem_cons.1 hr with rfl | hr
    · exact ⟨(header, b), by simp, rfl⟩
    · obtain ⟨k, hk⟩ := mem_ordersOf_iff.1 hr
      rw [hcounts.orders] at hk
      obtain ⟨o, ho, -, rfl⟩ := filed_eq_some hk
      exact ⟨o, List.mem_append_left _ ho, rfl⟩

/-- **An order of the cycle that is being counted** makes the count one longer. -/
theorem Tracks.order (h : Tracks exchange l z)
    (hloss : Lossy exchange cycles (l ++ [(c, .order header b)]))
    (hown : lastInfo b.symbol l = some c) {state : SnapState}
    (hstate : z.snapState.get? b.symbol = some state) (hz : Counted header b state z z') :
    Tracks exchange (l ++ [(c, .order header b)]) z' := by
  obtain ⟨hcounts, hsub, hpending⟩ := h.next hloss hown hstate
  intro s c' state' hinfo hstate'
  rw [lastInfo_concat_order] at hinfo
  rw [hz.states] at hstate'
  rw [ordersIn_concat_order]
  by_cases hs : b.symbol = s
  · subst hs
    cases hown.symm.trans hinfo
    rw [if_pos rfl] at hstate'
    cases hstate'
    rw [if_pos ⟨rfl, rfl⟩]
    have hreceived := hcounts.received
    refine ⟨hcounts.expected, by simp [hreceived], fun k ↦ ?_, ?_⟩
    · rw [hz.orders, (exchange c b.symbol).filed_concat hsub, hcounts.orders]
      simp
    · rw [hz.completed, hcounts.expected, hreceived]
      simp [hpending]
  · have hne : (s : ℤ) ≠ b.symbol := Nat.cast_injective.ne (Ne.symm hs)
    rw [if_neg hne] at hstate'
    rw [if_neg fun hsame ↦ hs hsame.2]
    obtain ⟨hexpected, hreceived, horders, hcompleted⟩ := h s c' state' hinfo hstate'
    refine ⟨hexpected, hreceived, fun k ↦ ?_, ?_⟩
    · rw [hz.orders, if_neg fun hsame ↦ hne hsame.1, horders]
    · rw [hz.completed, ← hcompleted]
      simp [hne]

end Tracks

/-! ### What there is a count of -/

/-- The synchronizer counts a symbol from a `SnapshotInfo` on, and completes only what it counts. -/
structure Known (l : List (ℕ × SnapshotItem)) (z : SnapShotSynchronizer) : Prop where
  states : ∀ x state, z.snapState.get? x = some state →
    ∃ (s c : ℕ), x = s ∧ lastInfo s l = some c
  completed : ∀ x ∈ z.completedSymbols, z.snapState.contains x = true

section Known

variable {l : List (ℕ × SnapshotItem)} {z z' : SnapShotSynchronizer} {c : ℕ}

/-- Before any message there are no counts. -/
theorem Known.of_fresh (h : Fresh z) : Known l z where
  states x state hx := by
    rw [h.snapState] at hx
    cases hx
  completed x hx := by
    rw [h.completedSymbols] at hx
    exact absurd hx (Finset.notMem_empty x)

theorem Known.untouched (h : Known l z) (hz : Untouched z z') : Known l z' := by
  refine ⟨?_, ?_⟩
  · rw [hz.states]
    exact h.states
  · rw [hz.states, hz.completed]
    exact h.completed

/-- A `SnapshotInfo` opens the count of its symbol. -/
theorem Known.info {b : SnapshotInfo} (h : Known l z) (hz : Opened b z z') :
    Known (l ++ [(c, .info b)]) z' := by
  refine ⟨fun x state hx ↦ ?_, fun x hx ↦ ?_⟩
  · rw [hz.states] at hx
    split at hx
    · rename_i heq
      exact ⟨b.symbol, c, heq, by rw [lastInfo_concat_info, if_pos rfl]⟩
    · rename_i hne
      obtain ⟨s, c', rfl, hinfo⟩ := h.states x state hx
      have hne' : b.symbol ≠ s := fun heq ↦ hne (by rw [heq])
      exact ⟨s, c', rfl, by rw [lastInfo_concat_info, if_neg hne', hinfo]⟩
  · obtain ⟨hne, hmem⟩ := (hz.completed x).1 hx
    rw [Dict.contains, hz.states, if_neg hne]
    exact h.completed x hmem

/-- An order counts for a symbol that had a count before. -/
theorem Known.order {header : MDHeader} {b : NewOrder} (h : Known l z) {state : SnapState}
    (hstate : z.snapState.get? b.symbol = some state) (hz : Counted header b state z z') :
    Known (l ++ [(c, .order header b)]) z' := by
  refine ⟨fun x state' hx ↦ ?_, fun x hx ↦ ?_⟩
  · simp only [lastInfo_concat_order]
    rw [hz.states] at hx
    split at hx
    · rename_i heq
      rw [← heq] at hstate
      exact h.states x state hstate
    · exact h.states x state' hx
  · rw [Dict.contains, hz.states]
    split
    · rfl
    · rename_i hne
      exact h.completed x (((hz.completed x).1 hx).resolve_left fun hlast ↦ hne hlast.1)

end Known

/-! ### Runs -/

/-- In a run from `z₀`, a packet of the snapshot channel, sent in cycle `c`, is handled in `z`,
after the events `pre`. -/
structure Handled (z₀ : SnapShotSynchronizer) (events pre : List (ℕ × Event)) (c : ℕ)
    (header : MDHeader) (body : MarketDataMessage) (z : SnapShotSynchronizer) : Prop where
  before : pre ++ [(c, .packet header body)] <+: events
  run : runEvents (pre.map Prod.snd) z₀ = .ok () z
  unsynced : z.sync = false
  magic : header.magicNumber ≠ MAGIC_NUMBER

/-- Every order that is counted is of the cycle of the last `SnapshotInfo` of its symbol. An order
is counted if the synchronizer has an entry for its symbol; without one it starts over. -/
def OwnCycles (z₀ : SnapShotSynchronizer) (events : List (ℕ × Event)) : Prop :=
  ∀ pre c header b z, Handled z₀ events pre c header (.newOrder b) z → header.msgType = .newOrder →
    z.snapState.contains b.symbol = true → lastInfo b.symbol (received pre) = some c

section Runs

variable {exchange : ℕ → (symbol : ℕ) → SymbolSnapshot symbol} {cycles totalSymbols : ℕ}
  {z₀ z : SnapShotSynchronizer} {events pre : List (ℕ × Event)}

/-- **Along a run whose counted orders are of their own cycles** every count is of the orders
received of one cycle. -/
theorem tracks_run (hreach : Reachable totalSymbols z₀)
    (hloss : Lossy exchange cycles (received events)) (hown : OwnCycles z₀ events)
    (hpre : pre <+: events) (hrun : runEvents (pre.map Prod.snd) z₀ = .ok () z)
    (hs : z.sync = false) : Tracks exchange (received pre) z := by
  refine (run_induct hreach hreach.solvent (P := fun pre z ↦ Tracks exchange (received pre) z)
    (fun _ s c state hinfo ↦ by cases hinfo) (fun pre x z z' hx hrun ih hstep ↦ ?_) hpre hrun hs).2
  have hloss' := hloss.mono (received_mono hx)
  cases hstep with
  | fresh _ hfresh => exact .of_fresh hfresh
  | quiet hs hitem hz =>
    rw [received_concat_of_none hitem]
    exact (ih hs).untouched ((hreach.run hrun).solvent hs) hz
  | opened hs hitem hz =>
    rw [received_concat hitem] at hloss' ⊢
    exact (ih hs).info hloss' hz
  | restarted _ _ _ hfresh => exact .of_fresh hfresh
  | @counted header b state hs hitem hstate hz =>
    rw [received_concat hitem] at hloss' ⊢
    obtain ⟨c, event⟩ := x
    obtain ⟨hmagic, hmsg, rfl⟩ := Event.item?_eq_order hitem
    have hinfo := hown pre c header b z ⟨hx, hrun, hs, hmagic⟩ hmsg
      (Dict.contains_eq_true_iff.2 ⟨state, hstate⟩)
    exact (ih hs).order hloss' hinfo hstate hz

/-- **Every count goes back to a `SnapshotInfo`**, in every run that ends out of sync. -/
theorem known_run (hpre : pre <+: events)
    (hrun : runEvents (pre.map Prod.snd) (start totalSymbols) = .ok () z) (hs : z.sync = false) :
    Known (received pre) z := by
  refine (run_induct ⟨[], rfl⟩ (fun _ ↦ solvent_init) (P := fun pre z ↦ Known (received pre) z)
    (fun _ ↦ .of_fresh (fresh_start totalSymbols)) (fun pre x z z' _ _ ih hstep ↦ ?_)
    hpre hrun hs).2
  cases hstep with
  | fresh _ hfresh => exact .of_fresh hfresh
  | quiet hs hitem hz =>
    rw [received_concat_of_none hitem]
    exact (ih hs).untouched hz
  | opened hs hitem hz =>
    rw [received_concat hitem]
    exact (ih hs).info hz
  | restarted _ _ _ hfresh => exact .of_fresh hfresh
  | counted hs hitem hstate hz =>
    rw [received_concat hitem]
    exact (ih hs).order hstate hz

/-- A handled message is the item it is. -/
theorem Handled.item?_eq {c : ℕ} {header : MDHeader} {body : MarketDataMessage}
    (h : Handled z₀ events pre c header body z) :
    (Event.packet header body).item? = itemOf header body :=
  if_neg h.magic

/-- **As long as every counted order is of its own cycle, nothing is raised.** -/
theorem Handled.not_raises (hreach : Reachable totalSymbols z₀)
    (hloss : Lossy exchange cycles (received events)) (hown : OwnCycles z₀ events) {c : ℕ}
    {header : MDHeader} {body : MarketDataMessage} (h : Handled z₀ events pre c header body z) :
    ¬ (handleSnapshotMessage header body).Raises z := by
  rw [handleSnapshotMessage_raises_iff ((hreach.run h.run).solvent h.unsynced)]
  rintro ⟨b, hmsg, rfl, hnot⟩
  have htracks := tracks_run hreach hloss hown ((List.prefix_append _ _).trans h.before) h.run
    h.unsynced
  have hloss' := hloss.mono (received_mono h.before)
  rw [received_concat (h.item?_eq.trans (itemOf_order hmsg b))] at hloss'
  exact hnot (htracks.fits hloss' (hown pre c header b z h hmsg))

/-- With one cycle delivered in order, every order is of its own cycle. -/
theorem ownCycles_of_inOrder {snap : (symbol : ℕ) → SymbolSnapshot symbol} {c : ℕ}
    (h : InOrder snap c (received events)) : OwnCycles z₀ events := by
  intro pre c' header b z hz hmsg _
  have horder := h.mono (received_mono hz.before)
  rw [received_concat (hz.item?_eq.trans (itemOf_order hmsg b))] at horder
  obtain ⟨rfl, hinfo⟩ := horder.of_order
  exact hinfo

/-- Every order comes behind a `SnapshotInfo` of its own cycle, whatever else is missing. -/
def Headed (l : List (ℕ × SnapshotItem)) : Prop :=
  ∀ i : Fin l.length, l[i].2.order? ≠ none →
    lastInfo l[i].2.symbol (l.take i) = some l[i].1

instance (l : List (ℕ × SnapshotItem)) : Decidable (Headed l) :=
  inferInstanceAs (Decidable (∀ i : Fin l.length, l[i].2.order? ≠ none →
    lastInfo l[i].2.symbol (l.take i) = some l[i].1))

/-- What is received decides, without running the synchronizer, that every order it counts is of its
own cycle. -/
theorem ownCycles_of_headed (h : Headed (received events)) : OwnCycles z₀ events := by
  intro pre c header b z hz hmsg _
  obtain ⟨rest, hrest⟩ := received_mono hz.before
  rw [received_concat (hz.item?_eq.trans (itemOf_order hmsg b))] at hrest
  have hlength : (received pre).length < (received events).length := by
    rw [← hrest]
    simp
  have hitem : (received events)[(received pre).length] = (c, .order header b) := by
    simp [← hrest]
  have htake : (received events).take (received pre).length = received pre := by
    simp [← hrest]
  have hown := h ⟨_, hlength⟩
  simp only [Fin.getElem_fin, hitem, htake] at hown
  exact hown nofun

/-! ### Both statements -/

/-- Every complete symbol holds the orders sent in the cycle of its last `SnapshotInfo`. -/
def AsSent (exchange : ℕ → (symbol : ℕ) → SymbolSnapshot symbol) (l : List (ℕ × SnapshotItem))
    (z : SnapShotSynchronizer) : Prop :=
  ∀ x ∈ z.completedSymbols, ∃ (s c : ℕ), x = s ∧ lastInfo s l = some c ∧
    ∀ k, z.bookManager.order? s k = filed (exchange c s).orders k

/-- **Snapshot handling never raises exactly when every order fits** the state in which it is
handled; and it never raises if every counted order is of its own cycle. -/
theorem handling_raises_iff (exchange : ℕ → (symbol : ℕ) → SymbolSnapshot symbol)
    (cycles totalSymbols : ℕ) (events : List (ℕ × Event))
    (hloss : Lossy exchange cycles (received events)) :
    ((∀ pre c header body z, Handled (start totalSymbols) events pre c header body z →
        ¬ (handleSnapshotMessage header body).Raises z) ↔
      ∀ pre c header b z, Handled (start totalSymbols) events pre c header (.newOrder b) z →
        header.msgType = .newOrder → z.Fits header b) ∧
    (OwnCycles (start totalSymbols) events →
      ∀ pre c header body z, Handled (start totalSymbols) events pre c header body z →
        ¬ (handleSnapshotMessage header body).Raises z) := by
  have hraises : ∀ pre c header body z, Handled (start totalSymbols) events pre c header body z →
      ((handleSnapshotMessage header body).Raises z ↔
        ∃ b, header.msgType = .newOrder ∧ body = .newOrder b ∧ ¬ z.Fits header b) := by
    intro pre c header body z h
    have hreach : Reachable totalSymbols z := ⟨_, h.run⟩
    exact handleSnapshotMessage_raises_iff (hreach.solvent h.unsynced) header body
  refine ⟨⟨fun h pre c header b z hz hmsg ↦ ?_, fun h pre c header body z hz hraise ↦ ?_⟩,
    fun hown pre c header body z hz ↦ hz.not_raises ⟨[], rfl⟩ hloss hown⟩
  · by_contra hnot
    exact h pre c header _ z hz ((hraises pre c header _ z hz).2 ⟨b, hmsg, rfl, hnot⟩)
  · obtain ⟨b, hmsg, rfl, hnot⟩ := (hraises pre c header body z hz).1 hraise
    exact hnot (h pre c header b z hz hmsg)

/-- Two buys in each cycle: the first is always the same, the second another one every time. -/
def turnover (c s : ℕ) : SymbolSnapshot s := buysOf s [1, c + 2] (by simp)

/-- The first cycle of symbol 1 arrives; of the second, the `SnapshotInfo` is lost. -/
def lostInfoRun : List (ℕ × Event) :=
  ((turnover 0 1).items.map (packetOf 0)) ++ ((turnover 1 1).items.tail.map (packetOf 1))

/-- What arrives is part of what two cycles sent. -/
theorem lossy_lostInfoRun : Lossy turnover 2 (received lostInfoRun) :=
  lossy_of_symbol 1 (by decide) (by decide)

/-- **With the `SnapshotInfo` of the second cycle lost, one of its orders is raised.** -/
theorem raises_after_lostInfo :
    ∃ pre c header b z, Handled (start 13) lostInfoRun pre c header (.newOrder b) z ∧
      header.msgType = .newOrder ∧ (handleSnapshotMessage header (.newOrder b)).Raises z := by
  obtain ⟨z, hrun, hp⟩ := exists_run ((lostInfoRun.take 3).map Prod.snd) (start 13)
    (fun z ↦ !z.sync && ((handleSnapshotMessage ⟨0, 45, 0, 0, .newOrder⟩
      (.newOrder ⟨1, 1, .buy, 1, 100, 0⟩)).state? z).isNone) (by decide +kernel)
  simp only [Bool.and_eq_true, Bool.not_eq_true'] at hp
  exact ⟨_, 1, _, _, z, ⟨⟨[(1, .packet ⟨0, 45, 0, 0, .newOrder⟩
    (.newOrder ⟨3, 1, .buy, 1, 100, 0⟩))], rfl⟩, hrun, hp.1, by decide⟩, rfl,
    Method.raises_of_state? hp.2⟩

/-- The first order after the lost `SnapshotInfo` is of a symbol that counts as complete. -/
theorem lost_info_raises :
    Lossy turnover 2 (received lostInfoRun) ∧
      ∃ pre c header body z, Handled (start 13) lostInfoRun pre c header body z ∧
        (handleSnapshotMessage header body).Raises z := by
  obtain ⟨pre, c, header, b, z, h, -, hraise⟩ := raises_after_lostInfo
  exact ⟨lossy_lostInfoRun, pre, c, header, .newOrder b, z, h, hraise⟩

/-- So not every order of that run fits. -/
theorem lost_info_not_fits :
    ¬ ∀ pre c header b z, Handled (start 13) lostInfoRun pre c header (.newOrder b) z →
      header.msgType = .newOrder → z.Fits header b := by
  intro h
  obtain ⟨pre, c, header, b, z, hz, -, hraise⟩ := raises_after_lostInfo
  exact (handling_raises_iff turnover 2 13 lostInfoRun lossy_lostInfoRun).1.2 h pre c header _ z hz
    hraise

/-- **A complete symbol holds one cycle's snapshot, whatever is lost, as long as every counted order
is of its own cycle.** -/
theorem completed_as_sent {exchange : ℕ → (symbol : ℕ) → SymbolSnapshot symbol}
    {cycles totalSymbols : ℕ} {events : List (ℕ × Event)}
    (hloss : Lossy exchange cycles (received events))
    (hown : OwnCycles (start totalSymbols) events) {pre : List (ℕ × Event)} (hpre : pre <+: events)
    {z : SnapShotSynchronizer}
    (hrun : runEvents (pre.map Prod.snd) (start totalSymbols) = .ok () z) (hs : z.sync = false) :
    AsSent exchange (received pre) z := by
  intro x hx
  have hknown := known_run hpre hrun hs
  obtain ⟨state, hstate⟩ := Dict.contains_eq_true_iff.1 (hknown.completed x hx)
  obtain ⟨s, c, rfl, hinfo⟩ := hknown.states x state hstate
  have htracks := tracks_run ⟨[], rfl⟩ hloss hown hpre hrun hs
  obtain ⟨-, -, horders, hcompleted⟩ := htracks s c state hinfo hstate
  -- as many orders as the snapshot has, and a part of it: all of it
  have hsub := (hloss.mono (received_mono hpre)).orders_sublist c s
  refine ⟨s, c, rfl, hinfo, fun k ↦ ?_⟩
  rw [horders, hsub.eq_of_length (hcompleted.1 hx).2]

/-- Of the first cycle of symbol 1 the last order is lost, the second cycle is lost as a whole, and
the third one arrives. -/
def partialRun : List (ℕ × Event) :=
  (turnover 0 1).items.dropLast.map (packetOf 0) ++ (turnover 2 1).items.map (packetOf 2)

/-- The symbol is complete with the third cycle, and its book is what that cycle sent. -/
theorem partial_completed :
    ∃ z, runEvents (partialRun.map Prod.snd) (start 13) = .ok () z ∧ 1 ∈ z.completedSymbols ∧
      AsSent turnover (received partialRun) z := by
  obtain ⟨z, hrun, hp⟩ := exists_run (partialRun.map Prod.snd) (start 13)
    (fun z ↦ !z.sync && decide (1 ∈ z.completedSymbols)) (by decide +kernel)
  simp only [Bool.and_eq_true, Bool.not_eq_true', decide_eq_true_eq] at hp
  have hlossy : Lossy turnover 3 (received partialRun) :=
    lossy_of_symbol 1 (by decide) (by decide)
  exact ⟨z, hrun, hp.2, completed_as_sent hlossy (ownCycles_of_headed (by decide))
    (List.prefix_refl _) hrun hp.1⟩

/-- The first order of one cycle and the second one of the next, after the `SnapshotInfo` of the
first. -/
def mixedRun : List (ℕ × Event) :=
  (turnover 0 1).items.dropLast.map (packetOf 0) ++ ((turnover 1 1).items.drop 2).map (packetOf 1)

/-- The symbol is complete, with an order that was not sent in the cycle of its `SnapshotInfo`. -/
theorem mixed_cycles_completed :
    Lossy turnover 2 (received mixedRun) ∧
      ∃ z, runEvents (mixedRun.map Prod.snd) (start 13) = .ok () z ∧ z.sync = false ∧
        ¬ AsSent turnover (received mixedRun) z := by
  refine ⟨lossy_of_symbol 1 (by decide) (by decide), ?_⟩
  obtain ⟨z, hrun, hp⟩ := exists_run (mixedRun.map Prod.snd) (start 13)
    (fun z ↦ !z.sync && decide (1 ∈ z.completedSymbols) && (z.bookManager.order? 1 3).isSome)
    (by decide +kernel)
  simp only [Bool.and_eq_true, Bool.not_eq_true', decide_eq_true_eq] at hp
  obtain ⟨⟨hs, hmem⟩, hthird⟩ := hp
  refine ⟨z, hrun, hs, fun h ↦ ?_⟩
  obtain ⟨s, c, hsymbol, hinfo, horders⟩ := h 1 hmem
  obtain rfl : s = 1 := by exact_mod_cast hsymbol.symm
  have hfirst : lastInfo 1 (received mixedRun) = some 0 := by decide
  cases hfirst.symm.trans hinfo
  have hnone : filed (turnover 0 1).orders 3 = none := by decide
  rw [show z.bookManager.order? 1 3 = _ from horders 3, hnone] at hthird
  cases hthird

end Runs

end SnapShotSynchronizer

end HftTrading
