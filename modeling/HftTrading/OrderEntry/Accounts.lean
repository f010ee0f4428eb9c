import HftTrading.OrderEntry.Requests

/-!
# Orders and fills since a point

The record says, for one symbol, which orders have been placed since a point in the run and how much
has been booked for which order (`placedSince`, `bookedSince`). The position has moved by the sum of
what was booked. A cancel places nothing, and `new_order` places one order at the most
(`accounts_deleteOrder`, `accounts_newOrder`).

`Accounts` ties the two lists to the client: the orders placed since the point, and the position as
the one at the point and what has been booked. It is an invariant of every step with the list of
orders as a parameter, which grows where `new_order` writes its entry and nowhere else. The
flattening loop of the strategy compares its own orders with the position through it.
-/

namespace HftTrading.OrderEntry

/-- The order of a symbol that has been placed. -/
def Note.placed? (symbol : ℤ) : Note → Option (ℤ × OeConfig)
  | .placed orderId entry => if entry.symbol = symbol then some (orderId, entry) else none
  | _ => none

/-- A note of a placed order is that note. -/
theorem Note.eq_placed_of_placed? {symbol orderId : ℤ} {entry : OeConfig} {n : Note}
    (h : n.placed? symbol = some (orderId, entry)) : n = .placed orderId entry := by
  cases n with
  | placed orderId' entry' =>
    replace h : (if entry'.symbol = symbol then some (orderId', entry') else none) =
      some (orderId, entry) := h
    split at h
    · cases h
      rfl
    · cases h
  | _ => cases h

/-- For which order of a symbol a fill has been booked, and how it moved the position. -/
def Note.booked? (symbol : ℤ) : Note → Option (ℤ × ℤ)
  | .booked orderId entry fill =>
    if entry.symbol = symbol then some (orderId, entry.signed fill.quantity) else none
  | _ => none

namespace OrderEntryClient

/-- What has been noted since. -/
def notedSince (c₀ c : OrderEntryClient) : List Note :=
  (c.record.trace.drop c₀.record.trace.length).map Point.note

/-- The points noted since. -/
def pointsSince (c₀ c : OrderEntryClient) : List Point :=
  c.record.trace.drop c₀.record.trace.length

/-- The orders of a symbol placed since, with their ids. -/
def placedSince (symbol : ℤ) (c₀ c : OrderEntryClient) : List (ℤ × OeConfig) :=
  (notedSince c₀ c).filterMap (Note.placed? symbol)

/-- What has been booked on a symbol since, order by order. -/
def bookedSince (symbol : ℤ) (c₀ c : OrderEntryClient) : List (ℤ × ℤ) :=
  (notedSince c₀ c).filterMap (Note.booked? symbol)

/-- `get_position`. -/
def position (symbol : ℤ) (c : OrderEntryClient) : ℤ := c.positionTracker.getPosition symbol

/-- These are the orders of a symbol placed since, and its position has moved by what was booked, at
every point as in the end. -/
structure Accounts (symbol : ℤ) (c₀ : OrderEntryClient) (placed : List (ℤ × OeConfig))
    (c : OrderEntryClient) : Prop where
  since : c₀.record.trace <+: c.record.trace
  placed_eq : placedSince symbol c₀ c = placed
  position_eq : c.position symbol =
    c₀.position symbol + ((bookedSince symbol c₀ c).map Prod.snd).sum
  positions : ∀ p ∈ pointsSince c₀ c, ∃ booked, booked <+: bookedSince symbol c₀ c ∧
    p.positionTracker.getPosition symbol = c₀.position symbol + (booked.map Prod.snd).sum

section

variable {symbol : ℤ} {c₀ c c' : OrderEntryClient} {placed : List (ℤ × OeConfig)}

theorem notedSince_self (c : OrderEntryClient) : notedSince c c = [] := by
  rw [notedSince, List.drop_length, List.map_nil]

/-- Nothing has been placed or booked yet. -/
theorem Accounts.refl (symbol : ℤ) (c : OrderEntryClient) : Accounts symbol c [] c where
  since := List.prefix_rfl
  placed_eq := by rw [placedSince, notedSince_self, List.filterMap_nil]
  position_eq := by
    rw [bookedSince, notedSince_self, List.filterMap_nil, List.map_nil, List.sum_nil, add_zero]
  positions p hp := by
    rw [pointsSince, List.drop_length] at hp
    exact absurd hp List.not_mem_nil

theorem notedSince_note {n : Note} (h : c₀.record.trace <+: c.record.trace) :
    notedSince c₀ (c.note n) = notedSince c₀ c ++ [n] := by
  show ((c.record.trace ++ [c.point n]).drop _).map Point.note = _
  rw [List.drop_append_of_le_length h.length_le, List.map_append]
  rfl

/-- What has been noted since, in two parts. -/
theorem pointsSince_append {c₁ : OrderEntryClient} (h : c₀.record.trace <+: c₁.record.trace)
    (h' : c₁.record.trace <+: c.record.trace) :
    pointsSince c₀ c = pointsSince c₀ c₁ ++ pointsSince c₁ c := by
  obtain ⟨first, hfirst⟩ := h
  obtain ⟨second, hsecond⟩ := h'
  unfold pointsSince
  rw [← hsecond, ← hfirst, List.append_assoc, List.drop_left, List.drop_left, ← List.append_assoc,
    List.drop_left]

/-- Orders since one point, by way of a later one. -/
theorem placedSince_append {c₁ : OrderEntryClient} (h : c₀.record.trace <+: c₁.record.trace)
    (h' : c₁.record.trace <+: c.record.trace) :
    placedSince symbol c₀ c = placedSince symbol c₀ c₁ ++ placedSince symbol c₁ c := by
  have hpoints := congrArg (List.map Point.note) (pointsSince_append h h')
  rw [List.map_append] at hpoints
  unfold placedSince
  rw [← List.filterMap_append]
  exact congrArg _ hpoints

theorem toList_filterMap {α β : Type} (f : α → Option β) (a : α) :
    [a].filterMap f = (f a).toList := by
  rcases hf : f a with - | b
  · rw [List.filterMap_cons_none hf, List.filterMap_nil, Option.toList_none]
  · rw [List.filterMap_cons_some hf, List.filterMap_nil, Option.toList_some]

namespace Accounts

variable (h : Accounts symbol c₀ placed c)

include h

/-- Nothing has been noted, and no position has moved. -/
theorem congr (htrace : c'.record.trace = c.record.trace)
    (hposition : c'.positionTracker = c.positionTracker) : Accounts symbol c₀ placed c' := by
  have hnoted : notedSince c₀ c' = notedSince c₀ c := by rw [notedSince, htrace, notedSince]
  refine ⟨htrace ▸ h.since, ?_, ?_, ?_⟩
  · rw [placedSince, hnoted, ← h.placed_eq, placedSince]
  · rw [position, hposition, bookedSince, hnoted]
    exact h.position_eq
  · rw [pointsSince, htrace, bookedSince, hnoted]
    exact h.positions

/-- Something is noted, and the position has moved if it was a fill. -/
theorem note (n : Note) (htrace : c'.record.trace = c.record.trace)
    (hposition : c'.position symbol =
      c.position symbol + ((n.booked? symbol).toList.map Prod.snd).sum) :
    Accounts symbol c₀ (placed ++ (n.placed? symbol).toList) (c'.note n) := by
  have hsince : c₀.record.trace <+: c'.record.trace := htrace ▸ h.since
  have hnoted : notedSince c₀ (c'.note n) = notedSince c₀ c ++ [n] := by
    rw [notedSince_note hsince, notedSince, htrace, notedSince]
  have hbooked : bookedSince symbol c₀ (c'.note n) =
      bookedSince symbol c₀ c ++ (n.booked? symbol).toList := by
    rw [bookedSince, hnoted, List.filterMap_append, toList_filterMap]
    rfl
  have hmoved : (c'.note n).position symbol = c₀.position symbol +
      ((bookedSince symbol c₀ (c'.note n)).map Prod.snd).sum := by
    rw [hbooked, List.map_append, List.sum_append, ← add_assoc]
    exact hposition.trans (congrArg (· + _) h.position_eq)
  refine ⟨hsince.trans (List.prefix_append _ _), ?_, hmoved, fun p hp ↦ ?_⟩
  · rw [placedSince, hnoted, List.filterMap_append, ← h.placed_eq, placedSince]
    exact congrArg _ (toList_filterMap _ n)
  -- the point that is noted is where the position stands now
  · have hpoints : pointsSince c₀ (c'.note n) = pointsSince c₀ c ++ [c'.point n] := by
      show (c'.record.trace ++ [c'.point n]).drop _ = _
      rw [htrace, List.drop_append_of_le_length h.since.length_le]
      rfl
    rw [hpoints, List.mem_append, List.mem_singleton] at hp
    rcases hp with hp | rfl
    · obtain ⟨booked, hprefix, heq⟩ := h.positions p hp
      exact ⟨booked, hprefix.trans (hbooked ▸ List.prefix_append _ _), heq⟩
    · exact ⟨_, List.prefix_rfl, hmoved⟩

/-- Something is noted that is neither an order nor a fill. -/
theorem quiet {n : Note} (hplaced : n.placed? symbol = none) (hbooked : n.booked? symbol = none)
    (htrace : c'.record.trace = c.record.trace)
    (hposition : c'.positionTracker = c.positionTracker) :
    Accounts symbol c₀ placed (c'.note n) := by
  have hnote := h.note n htrace (by rw [position, hposition, hbooked]; exact (add_zero _).symm)
  rwa [hplaced, Option.toList_none, List.append_nil] at hnote

theorem readStep (hstep : ReadStep c c') : Accounts symbol c₀ placed c' := by
  cases hstep with
  | wire hsame => exact h.congr (congrArg Record.trace hsame.record) hsame.positionTracker
  | sent => exact h.quiet rfl rfl rfl rfl
  | opened => exact h.congr rfl rfl
  | read hbatch response => exact h.quiet rfl rfl rfl rfl
  | abandoned hbatch =>
    have hlost : Accounts symbol c₀ placed (c.note (.lost c.record.batch)) :=
      h.quiet rfl rfl rfl rfl
    exact hlost.congr rfl rfl

theorem reads (hreads : Reads c c') : Accounts symbol c₀ placed c' := by
  induction hreads with
  | refl => exact h
  | tail _ hstep ih => exact ih.readStep hstep

theorem popOrder (orderId : ℤ) : Accounts symbol c₀ placed (c.popOrder orderId) := by
  unfold OrderEntryClient.popOrder
  split
  · exact h.quiet rfl rfl rfl rfl
  · exact h

/-- A fill moves the position by what it books. -/
theorem bookFill (entry : OeConfig) (m : OrderFill) (flags : FillFlags) :
    Accounts symbol c₀ placed (c.bookFill entry m flags) := by
  have hmoved : ((c.onRecord Record.take).bookTrackers entry m).position symbol =
      c.position symbol +
        ((Note.booked? symbol (.booked m.orderId entry m)).toList.map Prod.snd).sum := by
    refine (getPosition_bookTrackers entry m (c.onRecord Record.take) symbol).trans (congrArg _ ?_)
    show _ = ((if entry.symbol = symbol then some (m.orderId, entry.signed m.quantity)
      else none).toList.map Prod.snd).sum
    by_cases heq : entry.symbol = symbol
    · rw [if_pos heq.symm, if_pos heq]
      exact (add_zero _).symm
    · rw [if_neg (Ne.symm heq), if_neg heq]
      rfl
  have htrace : ((c.onRecord Record.take).bookTrackers entry m).record.trace = c.record.trace := by
    rw [bookTrackers_eq]
    rfl
  rw [← List.append_nil placed]
  exact h.note (.booked m.orderId entry m) htrace hmoved

/-- An entry that is written is an order that is placed. -/
theorem placeEntry (orderId : ℤ) (entry : OeConfig) :
    Accounts symbol c₀ (placed ++ ((Note.placed orderId entry).placed? symbol).toList)
      (c.placeEntry orderId entry) :=
  h.note (n := .placed orderId entry) rfl (add_zero _).symm

end Accounts

/-! ### Calls -/

/-- **Every request keeps the account.** -/
theorem accounts_kept : KeptByRequests (fun _ ↦ True) (Accounts symbol c₀ placed) where
  header hc := hc.congr rfl rfl
  exchanged _ _ _ hsend hc := (hc.reads (reads_of_ok hsend)).quiet rfl rfl rfl rfl
  broken _ hsend hc := hc.reads (reads_of_error hsend)
  passed _ _ _ hc := hc.congr rfl rfl
  popped {c} _ _ _ orderId _ _ _ hc :=
    have htaken : Accounts symbol c₀ placed (c.onRecord Record.take) := hc.congr rfl rfl
    htaken.popOrder orderId
  booked _ _ _ hc := hc.bookFill _ _ _
  finished _ hc := hc.congr rfl rfl
  abandoned _ hc := hc.readStep (.abandoned ‹_›)

/-- **A cancel** places nothing. -/
theorem accounts_deleteOrder (orderId : ℤ) :
    Method.Keeps (Accounts symbol c₀ placed) (deleteOrder orderId) :=
  accounts_kept.deleteOrder (fun _ _ ↦ trivial) orderId

/-- **`new_order`** places its order, or nothing. -/
theorem accounts_newOrder (hc : Accounts symbol c₀ placed c) (now : ℚ)
    (orderId symbol' side quantity price flags : ℤ) :
    Accounts symbol c₀ placed
        ((newOrder now orderId symbol' side quantity price flags).after c) ∨
      Accounts symbol c₀
        (placed ++
          ((Note.placed orderId ⟨symbol', side, quantity, price, 0⟩).placed? symbol).toList)
        ((newOrder now orderId symbol' side quantity price flags).after c) :=
  KeptByRequests.newOrder _ (fun hc ↦ hc.congr rfl rfl) (fun _ hc ↦ hc.congr rfl rfl)
    (fun _ hc ↦ hc.placeEntry _ _) accounts_kept (fun _ _ ↦ trivial) (fun _ _ _ ↦ trivial) now hc

end

end OrderEntryClient

end HftTrading.OrderEntry
