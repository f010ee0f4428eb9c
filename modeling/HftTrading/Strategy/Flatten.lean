import HftTrading.Lib.Tally
import HftTrading.OrderEntry.Accounts
import HftTrading.OrderEntry.Admission
import HftTrading.Strategy.Steps
import Mathlib.Algebra.Order.BigOperators.Group.List

/-!
# Going flat

`go_flat` first cancels the working orders (`cancelWorking`), and then closes each position with
immediate-or-cancel orders, attempt after attempt (`closeAll`). It sizes each order by the position
that the client has booked. So it is not the position that decides whether it overshoots but what
the client has got to read: an order whose fill is read only by a later request is sent a second
time (`goFlat_overshoots`).

## The condition

Three things have to be so, and each of them is about what comes before an order is sent or about
other orders, not about what `go_flat`'s own orders add up to.

* While the working orders are being cancelled, fills of them only bring the position closer to
  zero.
* Each attempt looks at the positions in a state that is settled (`Settled`): all that the exchange
  fills of the orders sent so far has been booked, and what else has been booked since the working
  orders were cancelled has not moved the position other than toward zero.
* Once the working orders have been cancelled, nothing else is booked on the symbol than fills of
  `go_flat`'s own orders. An order that is still open then and fills while a closing order for the
  whole position is out takes the position across zero, whatever `go_flat` does.

## What follows

A `go_flat` that makes each of its attempts in a settled state fills at most the position that it
started with (`Within`, carried along the run by `Closing`); this needs the first two. With the
third as well the position that is booked stays between where it started and zero, at every point
of the run and for as long as only the rest of these orders is booked (`goFlat_within`). It is
there, at every such point, what it was when the first attempt looked, less a part of what the
orders fill (`Within.toward_booked`).

An order that closes a position passes every check of an order but the one of the cash balance,
which refuses all orders alike (`closing_approved_iff`).
-/

namespace HftTrading.Strategy

open OrderEntry Method OrderStrategy OrderEntryClient

/-! ### Overshooting -/

/-- A position between another and zero. -/
def Toward (p₀ p : ℤ) : Prop := 0 ≤ p ∧ p ≤ p₀ ∨ p₀ ≤ p ∧ p ≤ 0

instance (p₀ p : ℤ) : Decidable (Toward p₀ p) := inferInstanceAs (Decidable (_ ∨ _))

/-- The side that closes a position. -/
def closingSide (position : ℤ) : ℤ := if 0 < position then Side.sell.value else Side.buy.value

/-- What has been booked for one order. -/
def bookedFor (orderId : ℤ) (booked : List (ℤ × ℤ)) : ℤ :=
  Tally.total Prod.fst Prod.snd booked orderId

/-- What has been booked for other orders. -/
def bookedElse (orderIds : List ℤ) (booked : List (ℤ × ℤ)) : ℤ :=
  ((Tally.without Prod.fst booked orderIds).map Prod.snd).sum

/-- **The condition on an attempt**, when `filled` is what the exchange fills of each order: of the
orders sent so far all of that is booked, and what else has been booked moves the position toward
zero only. -/
structure Settled (symbol : ℤ) (filled : ℤ → ℤ) (c₀ c : OrderEntryClient) : Prop where
  booked : ∀ p ∈ placedSince symbol c₀ c,
    bookedFor p.1 (bookedSince symbol c₀ c) = p.2.signed (filled p.1)
  others : Toward (c₀.position symbol) (c₀.position symbol +
    bookedElse ((placedSince symbol c₀ c).map Prod.fst) (bookedSince symbol c₀ c))
  toward : Toward (c₀.position symbol) (c.position symbol)

instance (symbol : ℤ) (filled : ℤ → ℤ) (c₀ c : OrderEntryClient) :
    Decidable (Settled symbol filled c₀ c) :=
  decidable_of_iff (_ ∧ _ ∧ _) ⟨fun h ↦ ⟨h.1, h.2.1, h.2.2⟩, fun h ↦ ⟨h.booked, h.others, h.toward⟩⟩

/-- An immediate-or-cancel order fills at most its quantity. -/
def FillsAtMost (filled : ℤ → ℤ) (placed : List (ℤ × OeConfig)) : Prop :=
  ∀ p ∈ placed, 0 ≤ filled p.1 ∧ filled p.1 ≤ p.2.qty

instance (filled : ℤ → ℤ) (placed : List (ℤ × OeConfig)) : Decidable (FillsAtMost filled placed) :=
  inferInstanceAs (Decidable (∀ p ∈ placed, _))

/-- How much the exchange fills of some orders. -/
def totalFilled (filled : ℤ → ℤ) (placed : List (ℤ × OeConfig)) : ℤ :=
  (placed.map fun p ↦ filled p.1).sum

/-- At any time what has been booked of an order is part of what the exchange fills of it. -/
def Reported (filled : ℤ → ℤ) (placed : List (ℤ × OeConfig)) (booked : List (ℤ × ℤ)) : Prop :=
  ∀ sofar ∈ booked.inits, ∀ p ∈ placed, Toward (p.2.signed (filled p.1)) (bookedFor p.1 sofar)

instance (filled : ℤ → ℤ) (placed : List (ℤ × OeConfig)) (booked : List (ℤ × ℤ)) :
    Decidable (Reported filled placed booked) :=
  inferInstanceAs (Decidable (∀ sofar ∈ _, ∀ p ∈ _, _))

/-- Nothing is booked but fills of these orders. -/
def Alone (placed : List (ℤ × OeConfig)) (booked : List (ℤ × ℤ)) : Prop :=
  ∀ b ∈ booked, b.1 ∈ placed.map Prod.fst

instance (placed : List (ℤ × OeConfig)) (booked : List (ℤ × ℤ)) : Decidable (Alone placed booked) :=
  inferInstanceAs (Decidable (∀ b ∈ booked, _))

/-- Whatever is booked only brings the position closer to zero. -/
def Approaches (p₀ : ℤ) (booked : List (ℤ × ℤ)) : Prop :=
  ∀ sofar ∈ booked.inits, Toward p₀ (p₀ + (sofar.map Prod.snd).sum)

instance (p₀ : ℤ) (booked : List (ℤ × ℤ)) : Decidable (Approaches p₀ booked) :=
  inferInstanceAs (Decidable (∀ sofar ∈ _, _))

/-- Some orders close a position and fill no more than that. -/
structure Within (p₀ : ℤ) (filled : ℤ → ℤ) (placed : List (ℤ × OeConfig)) : Prop where
  closing : ∀ p ∈ placed, p.2.side = closingSide p₀
  total_le : totalFilled filled placed ≤ |p₀|

section

variable {symbol p₀ : ℤ} {filled : ℤ → ℤ} {placed : List (ℤ × OeConfig)} {c₀ c : OrderEntryClient}

theorem totalFilled_append (p : ℤ × OeConfig) :
    totalFilled filled (placed ++ [p]) = totalFilled filled placed + filled p.1 := by
  rw [totalFilled, List.map_append, List.sum_append, List.map_singleton, List.sum_singleton,
    totalFilled]

theorem totalFilled_nonneg (h : FillsAtMost filled placed) : 0 ≤ totalFilled filled placed := by
  refine List.sum_nonneg fun n hn ↦ ?_
  obtain ⟨p, hp, rfl⟩ := List.mem_map.1 hn
  exact (h p hp).1

/-- A closing order moves the position against its sign. -/
theorem signed_closing {entry : OeConfig} (h : entry.side = closingSide p₀) (n : ℤ) :
    entry.signed n = if 0 < p₀ then -n else n := by
  rw [OeConfig.signed, h, closingSide]
  split
  · exact if_neg (by decide)
  · exact if_pos rfl

/-- The fills of orders that close a position, as they move it. -/
theorem sum_signed_closing (h : ∀ p ∈ placed, p.2.side = closingSide p₀) :
    (placed.map fun p ↦ p.2.signed (filled p.1)).sum =
      if 0 < p₀ then -totalFilled filled placed else totalFilled filled placed := by
  have hmap : (placed.map fun p ↦ p.2.signed (filled p.1)) =
      placed.map fun p ↦ if 0 < p₀ then -filled p.1 else filled p.1 :=
    List.map_congr_left fun p hp ↦ signed_closing (h p hp) _
  rw [hmap, totalFilled]
  split
  · rw [List.sum_neg, List.map_map]
    rfl
  · rfl

/-- In a settled state, the position is what the others leave of it, less what is filled. -/
theorem Settled.position_eq (h : Settled symbol filled c₀ c)
    (haccounts : Accounts symbol c₀ placed c) (hnodup : (placed.map Prod.fst).Nodup) :
    c.position symbol = c₀.position symbol +
      bookedElse (placed.map Prod.fst) (bookedSince symbol c₀ c) +
        (placed.map fun p ↦ p.2.signed (filled p.1)).sum := by
  have hbooked : ((placed.map Prod.fst).map fun orderId ↦
      bookedFor orderId (bookedSince symbol c₀ c)) =
        placed.map fun p ↦ p.2.signed (filled p.1) := by
    rw [List.map_map]
    refine List.map_congr_left fun p hp ↦ ?_
    rw [← haccounts.placed_eq] at hp
    exact h.booked p hp
  rw [haccounts.position_eq, Tally.sum_eq_totals_add hnodup, add_assoc]
  refine congrArg _ ((add_comm _ _).trans (congrArg _ ?_))
  exact congrArg List.sum hbooked

/-- **One more attempt**: an order for a settled state's position stays within the first one. -/
theorem Within.next (h : Within (c₀.position symbol) filled placed)
    (hfilled : FillsAtMost filled placed) (hsettled : Settled symbol filled c₀ c)
    (haccounts : Accounts symbol c₀ placed c) (hnodup : (placed.map Prod.fst).Nodup)
    (hopen : c.position symbol ≠ 0) {p : ℤ × OeConfig}
    (hside : p.2.side = closingSide (c.position symbol)) (hle : filled p.1 ≤ |c.position symbol|) :
    Within (c₀.position symbol) filled (placed ++ [p]) := by
  have hposition := hsettled.position_eq haccounts hnodup
  rw [sum_signed_closing h.closing] at hposition
  have hothers := hsettled.others
  rw [haccounts.placed_eq] at hothers
  have htoward := hsettled.toward
  have hnonneg := totalFilled_nonneg hfilled
  generalize bookedElse _ _ = others at hposition hothers
  generalize c.position symbol = q at *
  generalize c₀.position symbol = p₀ at *
  unfold Toward at hothers htoward
  rw [Int.abs_eq_natAbs] at hle
  have hsame : closingSide q = closingSide p₀ := by
    unfold closingSide
    split <;> split
    · rfl
    · omega
    · omega
    · rfl
  refine ⟨fun p' hp' ↦ ?_, ?_⟩
  · rcases List.mem_append.1 hp' with hold | hnew
    · exact h.closing p' hold
    · rw [List.mem_singleton.1 hnew, hside, hsame]
  -- what the earlier orders have closed is no longer part of the position
  · rw [totalFilled_append, Int.abs_eq_natAbs]
    split at hposition <;> omega

/-- What is booked of an order that closes a position, as it moves it. -/
theorem signed_natAbs_bookedFor {entry : OeConfig} (h : entry.side = closingSide p₀) {n b : ℤ}
    (hn : 0 ≤ n) (hb : Toward (entry.signed n) b) :
    entry.signed |b| = b ∧ |b| ≤ n := by
  rw [signed_closing h] at hb ⊢
  unfold Toward at hb
  rw [Int.abs_eq_natAbs]
  split at hb
  · rename_i hp
    rw [if_pos hp]
    omega
  · rename_i hp
    rw [if_neg hp]
    omega

/-- **Whatever part of it has been booked**, and nothing else, the position stays within. -/
theorem Within.toward_booked (h : Within p₀ filled placed) (hfilled : FillsAtMost filled placed)
    (hnodup : (placed.map Prod.fst).Nodup) {booked : List (ℤ × ℤ)} (halone : Alone placed booked)
    (hreported : ∀ p ∈ placed, Toward (p.2.signed (filled p.1)) (bookedFor p.1 booked)) :
    Toward p₀ (p₀ + (booked.map Prod.snd).sum) := by
  have helse : Tally.without Prod.fst booked (placed.map Prod.fst) = [] := by
    refine List.filter_eq_nil_iff.2 fun b hb ↦ ?_
    simpa using halone b hb
  have hsum : (booked.map Prod.snd).sum =
      (placed.map fun p ↦ p.2.signed |bookedFor p.1 booked|).sum := by
    rw [Tally.sum_eq_totals_add hnodup, helse, List.map_nil, List.sum_nil, add_zero, List.map_map]
    refine congrArg List.sum (List.map_congr_left fun p hp ↦ ?_)
    exact (signed_natAbs_bookedFor (h.closing p hp) (hfilled p hp).1 (hreported p hp)).1.symm
  have hle : totalFilled (fun orderId ↦ |bookedFor orderId booked|) placed ≤
      totalFilled filled placed :=
    List.sum_le_sum fun p hp ↦
      (signed_natAbs_bookedFor (h.closing p hp) (hfilled p hp).1 (hreported p hp)).2
  have hnonneg : 0 ≤ totalFilled (fun orderId ↦ |bookedFor orderId booked|) placed := by
    refine List.sum_nonneg fun n hn ↦ ?_
    obtain ⟨p, -, rfl⟩ := List.mem_map.1 hn
    exact abs_nonneg _
  have htotal := hle.trans h.total_le
  rw [Int.abs_eq_natAbs] at htotal
  have hsigned : (placed.map fun p ↦ p.2.signed |bookedFor p.1 booked|).sum =
      if 0 < p₀ then -totalFilled (fun orderId ↦ |bookedFor orderId booked|) placed
      else totalFilled (fun orderId ↦ |bookedFor orderId booked|) placed :=
    @sum_signed_closing p₀ (fun orderId ↦ |bookedFor orderId booked|) placed h.closing
  rw [hsum, hsigned]
  unfold Toward
  split
  · omega
  · omega

theorem Toward.trans {p₀ p q : ℤ} (h : Toward p₀ p) (h' : Toward p q) : Toward p₀ q := by
  unfold Toward at *
  omega

theorem Toward.abs_le {p₀ p : ℤ} (h : Toward p₀ p) : |p| ≤ |p₀| := by
  unfold Toward at h
  rw [Int.abs_eq_natAbs, Int.abs_eq_natAbs]
  omega

end

/-! ### The attempts -/

variable {ω : Type} {O : Outside ω}

/-- Every attempt since has been made in a settled state. -/
def SettledSince (symbol : ℤ) (filled : ℤ → ℤ) (s₀ s : OrderStrategy ω) : Prop :=
  ∀ d ∈ s.history.drop s₀.history.length, d.task = .attempt →
    Settled symbol filled s₀.client d.before

instance (symbol : ℤ) (filled : ℤ → ℤ) (s₀ s : OrderStrategy ω) :
    Decidable (SettledSince symbol filled s₀ s) := inferInstanceAs (Decidable (∀ d ∈ _, _ → _))

/-- These orders of a symbol have been placed since, under ids of their own, and they stay within
its position unless an attempt was made in a state that was not settled. -/
structure Closing (symbol : ℤ) (filled : ℤ → ℤ) (s₀ : OrderStrategy ω)
    (placed : List (ℤ × OeConfig)) (s : OrderStrategy ω) : Prop where
  accounts : Accounts symbol s₀.client placed s.client
  numbered : ∀ p ∈ placed, p.1 < s.flattenOidCounter
  nodup : (placed.map Prod.fst).Nodup
  since : s₀.history <+: s.history
  within : SettledSince symbol filled s₀ s → FillsAtMost filled placed →
    Within (s₀.client.position symbol) filled placed

section

variable {symbol : ℤ} {filled : ℤ → ℤ} {s₀ s s' : OrderStrategy ω} {placed : List (ℤ × OeConfig)}

/-- What is settled to the end is settled up to an earlier point. -/
theorem SettledSince.of_prefix (h : SettledSince symbol filled s₀ s')
    (hhistory : s.history <+: s'.history) : SettledSince symbol filled s₀ s := fun d hd ↦
  h d ((hhistory.drop _).subset hd)

theorem Closing.refl (symbol : ℤ) (filled : ℤ → ℤ) (s : OrderStrategy ω) :
    Closing symbol filled s [] s where
  accounts := .refl symbol s.client
  numbered _ hp := absurd hp List.not_mem_nil
  nodup := List.nodup_nil
  since := List.prefix_rfl
  within _ _ := ⟨fun _ hp ↦ absurd hp List.not_mem_nil, abs_nonneg _⟩

/-- Nothing more is placed. -/
theorem Closing.step (h : Closing symbol filled s₀ placed s)
    (haccounts : Accounts symbol s₀.client placed s'.client)
    (hcounter : s.flattenOidCounter ≤ s'.flattenOidCounter) (hhistory : s.history <+: s'.history) :
    Closing symbol filled s₀ placed s' where
  accounts := haccounts
  numbered p hp := (h.numbered p hp).trans_le hcounter
  nodup := h.nodup
  since := h.since.trans hhistory
  within hsettled := h.within (hsettled.of_prefix hhistory)

/-- An order is placed under the next id. -/
theorem Closing.place (h : Closing symbol filled s₀ placed s) {entry : OeConfig}
    (haccounts : Accounts symbol s₀.client (placed ++ [(s.flattenOidCounter, entry)]) s'.client)
    (hcounter : s'.flattenOidCounter = s.flattenOidCounter + 1)
    (hhistory : s.history <+: s'.history)
    (hwithin : SettledSince symbol filled s₀ s →
      FillsAtMost filled (placed ++ [(s.flattenOidCounter, entry)]) →
        Within (s₀.client.position symbol) filled (placed ++ [(s.flattenOidCounter, entry)])) :
    Closing symbol filled s₀ (placed ++ [(s.flattenOidCounter, entry)]) s' where
  accounts := haccounts
  numbered p hp := by
    rw [hcounter]
    rcases List.mem_append.1 hp with hold | hnew
    · exact (h.numbered p hold).trans (Int.lt_succ _)
    · rw [List.mem_singleton.1 hnew]
      exact Int.lt_succ _
  nodup := by
    rw [List.map_append, List.map_singleton]
    refine h.nodup.append (List.nodup_singleton _) (List.disjoint_singleton.2 fun hmem ↦ ?_)
    obtain ⟨p, hp, heq⟩ := List.mem_map.1 hmem
    exact absurd heq (h.numbered p hp).ne
  since := h.since.trans hhistory
  within hsettled := hwithin (hsettled.of_prefix hhistory)

theorem closing_note (h : Closing symbol filled s₀ placed s) (task : Task) (s₁ : OrderStrategy ω)
    (returned : Bool) : Closing symbol filled s₀ placed (noteDealing task s₁ returned s) :=
  h.step h.accounts (le_refl _) (List.prefix_append _ _)

theorem closing_deleteOrder (orderId : ℤ) :
    Keeps (fun x : OrderStrategy ω × OrderBookManager ↦ Closing symbol filled s₀ placed x.1)
      (deleteOrder orderId) := by
  refine keeps_dealing (fun _ _ _ hx ↦ closing_note hx _ _ _) _ fun x hx ↦ ?_
  rw [after_onClient]
  exact hx.step (accounts_deleteOrder orderId _ hx.accounts) (le_refl _) List.prefix_rfl

theorem closing_cancelQuote (symbol' side : ℤ) :
    Keeps (fun x : OrderStrategy ω × OrderBookManager ↦ Closing symbol filled s₀ placed x.1)
      (cancelQuote symbol' side) := by
  refine keeps_dealing (fun _ _ _ hx ↦ closing_note hx _ _ _) _ fun x hx ↦ ?_
  rcases after_onQuoting symbol' (Quoting.cancelQuote side) x with ⟨-, heq⟩ | ⟨state, -, heq⟩
  · rw [heq]
    exact hx
  · rw [heq]
    exact hx.step (keeps_client_cancelQuote accounts_deleteOrder side _ hx.accounts) (le_refl _)
      List.prefix_rfl

/-! ### One order -/

/-- **What `go_flat` does to close a position**: it uses up an id and asks for one order. -/
theorem after_submitClosing (symbol side quantity price : ℤ)
    (x : OrderStrategy ω × OrderBookManager) :
    ∃ now w returned, (submitClosing O symbol side quantity price).after x =
      (noteDealing .other { x.1 with flattenOidCounter := x.1.flattenOidCounter + 1, outside := w }
        returned
        { x.1 with
          flattenOidCounter := x.1.flattenOidCounter + 1
          outside := w
          client := (OrderEntryClient.newOrder now x.1.flattenOidCounter symbol side quantity price
            OrderFlags.ioc.value).after x.1.client }, x.2) := by
  have hid : nextFlattenOid x = .ok x.1.flattenOidCounter
      ({ x.1 with flattenOidCounter := x.1.flattenOidCounter + 1 }, x.2) := rfl
  have hclock (y : OrderStrategy ω × OrderBookManager) : monotonic O y =
      .ok (O.monotonic y.1.outside).1 ({ y.1 with outside := (O.monotonic y.1.outside).2 }, y.2) :=
    rfl
  refine ⟨(O.monotonic x.1.outside).1, (O.monotonic x.1.outside).2, ?_⟩
  unfold submitClosing
  rw [after_bind_of_ok hid, after_tryCatch_pure, after_bind_pure]
  unfold OrderStrategy.immediateOrCancel OrderStrategy.newOrder
  rw [after_bind_of_ok (hclock _)]
  obtain ⟨returned, heq⟩ := after_dealing (fun _ ↦ Task.other) (onClient
    (OrderEntryClient.newOrder (O.monotonic x.1.outside).1 x.1.flattenOidCounter symbol side
      quantity price OrderFlags.ioc.value))
    ({ x.1 with
      flattenOidCounter := x.1.flattenOidCounter + 1
      outside := (O.monotonic x.1.outside).2 }, x.2)
  rw [after_onClient] at heq
  exact ⟨returned, heq⟩

/-- It is placed, or nothing is. -/
theorem closing_submitClosing {m : OrderBookManager} (h : Closing symbol filled s₀ placed s)
    (symbol' side quantity price : ℤ)
    (hwithin : symbol' = symbol → SettledSince symbol filled s₀ s →
      FillsAtMost filled (placed ++ [(s.flattenOidCounter, ⟨symbol', side, quantity, price, 0⟩)]) →
        Within (s₀.client.position symbol) filled
          (placed ++ [(s.flattenOidCounter, ⟨symbol', side, quantity, price, 0⟩)])) :
    Closing symbol filled s₀ placed
        ((submitClosing O symbol' side quantity price).after (s, m)).1 ∨
      symbol' = symbol ∧
        Closing symbol filled s₀
          (placed ++ [(s.flattenOidCounter, ⟨symbol', side, quantity, price, 0⟩)])
          ((submitClosing O symbol' side quantity price).after (s, m)).1 := by
  obtain ⟨now, w, returned, heq⟩ := after_submitClosing (O := O) symbol' side quantity price (s, m)
  rw [heq]
  have hcounter : s.flattenOidCounter ≤ s.flattenOidCounter + 1 := (Int.lt_succ _).le
  rcases accounts_newOrder h.accounts now s.flattenOidCounter symbol' side quantity price
    OrderFlags.ioc.value with haccounts | haccounts
  · exact Or.inl (h.step haccounts hcounter (List.prefix_append _ _))
  -- an order of another symbol is none of those that are counted
  · by_cases hsymbol : symbol' = symbol
    · have hnote : (Note.placed s.flattenOidCounter ⟨symbol', side, quantity, price, 0⟩).placed?
          symbol = some (s.flattenOidCounter, ⟨symbol', side, quantity, price, 0⟩) :=
        if_pos hsymbol
      rw [hnote] at haccounts
      exact Or.inr ⟨hsymbol, h.place haccounts rfl (List.prefix_append _ _) (hwithin hsymbol)⟩
    · have hnote : (Note.placed s.flattenOidCounter ⟨symbol', side, quantity, price, 0⟩).placed?
          symbol = none := if_neg hsymbol
      rw [hnote, Option.toList_none, List.append_nil] at haccounts
      exact Or.inl (h.step haccounts hcounter (List.prefix_append _ _))

/-! ### One attempt -/

/-- Within an attempt that looked at the positions of `s₁`, with these still to be closed. -/
structure Attempting (symbol : ℤ) (filled : ℤ → ℤ) (s₀ s₁ : OrderStrategy ω) (items : List (ℤ × ℤ))
    (s : OrderStrategy ω) : Prop where
  items_suffix : items <:+ s₁.openPositions
  settled : SettledSince symbol filled s₀ s → Settled symbol filled s₀.client s₁.client
  closing : ∃ placed, Closing symbol filled s₀ placed s ∧
    (symbol ∈ items.map Prod.fst → Accounts symbol s₀.client placed s₁.client)

/-- What is looked at is the position of each symbol once, where it is not zero. -/
theorem mem_openPositions {p : ℤ × ℤ} (h : p ∈ s.openPositions) :
    s.client.position p.1 = p.2 ∧ p.2 ≠ 0 := by
  obtain ⟨hmem, hne⟩ := List.mem_filter.1 h
  refine ⟨?_, of_decide_eq_true hne⟩
  show (s.client.positionTracker.symbolPosition.get? p.1).getD 0 = p.2
  rw [Dict.get?_eq_some_iff.2 hmem, Option.getD_some]

theorem nodup_openPositions (s : OrderStrategy ω) : (s.openPositions.map Prod.fst).Nodup :=
  (s.client.positionTracker.symbolPosition.nodup).sublist (List.filter_sublist.map _)

/-- Closing a position looks at the book, and sends one order on the closing side or none. -/
theorem after_closePosition {P Q : OrderStrategy ω → Prop} {symbol position : ℤ}
    (hrest : ∀ s, P s → Q s)
    (hsubmit : ∀ price s m, P s →
      Q ((submitClosing O symbol (closingSide position) |position| price).after (s, m)).1)
    (attempt : ℕ) (x : OrderStrategy ω × OrderBookManager) (hx : P x.1) :
    Q ((closePosition O attempt symbol position).after x).1 := by
  have hbook {α : Type} (call : Method FeedError OrderBookManager α) :
      Triple (fun x : OrderStrategy ω × OrderBookManager ↦ P x.1) (onManager call)
        (fun _ x ↦ P x.1) fun x ↦ Q x.1 := by
    intro x hx
    unfold onManager zoom
    rcases call x.2 with ⟨a, m⟩ | ⟨e, m⟩
    · exact hx
    · exact hrest _ hx
  have hsend (b : Prop) [Decidable b] (price : ℤ) :
      Triple (fun x : OrderStrategy ω × OrderBookManager ↦ P x.1)
        (if b then submitClosing O symbol (closingSide position) |position| price else pure ())
        (fun _ x ↦ Q x.1) fun x ↦ Q x.1 := by
    split
    · exact triple_iff_after.2 fun x hx ↦ hsubmit price x.1 x.2 hx
    · exact triple_pure _ fun x hx ↦ hrest _ hx
  have hclose : Triple (fun x : OrderStrategy ω × OrderBookManager ↦ P x.1)
      (closePosition O attempt symbol position) (fun _ x ↦ Q x.1) fun x ↦ Q x.1 := by
    refine Triple.bind (m := getManager) (R := fun _ x ↦ P x.1) (fun _ hx ↦ hx) fun m ↦ ?_
    split
    · dsimp only
      split
      -- long: a sell under the bid, the lower the later the attempt
      · rename_i hlong
        refine (hbook _).bind fun bb ↦ ?_
        have hsold := hsend (bb.1 > 0) (max (getTick symbol) (bb.1 - attempt * 2 * getTick symbol))
        rwa [closingSide, if_pos hlong, abs_of_pos hlong] at hsold
      -- short: a buy over the ask
      · rename_i hshort
        refine (hbook _).bind fun ba ↦ ?_
        have hbought := hsend (ba.1 > 0) (ba.1 + attempt * 2 * getTick symbol)
        rwa [closingSide, if_neg hshort] at hbought
    · exact triple_pure _ fun x hx ↦ hrest _ hx
  exact triple_iff_after.1 hclose x hx

/-- **One position of an attempt.** -/
theorem attempting_closePosition {s₁ : OrderStrategy ω} {items : List (ℤ × ℤ)} {p : ℤ × ℤ}
    (attempt : ℕ) (x : OrderStrategy ω × OrderBookManager)
    (hx : Attempting symbol filled s₀ s₁ (p :: items) x.1) :
    Attempting symbol filled s₀ s₁ items ((closePosition O attempt p.1 p.2).after x).1 := by
  have hmem : p ∈ s₁.openPositions := hx.items_suffix.subset List.mem_cons_self
  obtain ⟨hposition, hopen⟩ := mem_openPositions hmem
  have hsuffix : items <:+ s₁.openPositions := (List.suffix_cons p items).trans hx.items_suffix
  have hnot : p.1 ∉ items.map Prod.fst := by
    have hnodup := (nodup_openPositions s₁).sublist (hx.items_suffix.sublist.map Prod.fst)
    exact (List.nodup_cons.1 hnodup).1
  refine after_closePosition (P := Attempting symbol filled s₀ s₁ (p :: items)) (fun s hs ↦ ?_)
    (fun price s m hs ↦ ?_) attempt x hx
  · obtain ⟨placed, hclosing, haccounts⟩ := hs.closing
    exact ⟨hsuffix, hs.settled, placed, hclosing, fun h ↦ haccounts (List.mem_cons_of_mem _ h)⟩
  · obtain ⟨placed, hclosing, haccounts⟩ := hs.closing
    have hsettled : SettledSince symbol filled s₀
        ((submitClosing O p.1 (closingSide p.2) |p.2| price).after (s, m)).1 →
          Settled symbol filled s₀.client s₁.client := by
      intro hsettled
      obtain ⟨now, w, returned, heq⟩ :=
        after_submitClosing (O := O) p.1 (closingSide p.2) |p.2| price (s, m)
      rw [heq] at hsettled
      exact hs.settled (hsettled.of_prefix (List.prefix_append _ _))
    -- the order is for the position that the attempt looked at, with the earlier ones settled
    have hwithin : p.1 = symbol → SettledSince symbol filled s₀ s → FillsAtMost filled
        (placed ++ [(s.flattenOidCounter, ⟨p.1, closingSide p.2, |p.2|, price, 0⟩)]) →
          Within (s₀.client.position symbol) filled
            (placed ++ [(s.flattenOidCounter, ⟨p.1, closingSide p.2, |p.2|, price, 0⟩)]) := by
      intro hsymbol hsettled hfilled
      have hbefore : FillsAtMost filled placed := fun q hq ↦ hfilled q (List.mem_append_left _ hq)
      have hown := hfilled _ (List.mem_append_right _ List.mem_cons_self)
      rw [hsymbol] at hposition
      refine (hclosing.within hsettled hbefore).next hbefore (hs.settled hsettled)
        (haccounts (hsymbol ▸ List.mem_cons_self)) hclosing.nodup ?_ ?_ ?_
      · rw [hposition]
        exact hopen
      · rw [hposition]
      · rw [hposition]
        exact hown.2
    rcases closing_submitClosing (O := O) (m := m) hclosing p.1 (closingSide p.2) |p.2| price
      hwithin with hrest | ⟨hsymbol, hplaced⟩
    · exact ⟨hsuffix, hsettled, placed, hrest, fun h ↦ haccounts (List.mem_cons_of_mem _ h)⟩
    · exact ⟨hsuffix, hsettled, _, hplaced, fun h ↦ absurd (hsymbol ▸ h) hnot⟩

/-- **An attempt**, and those after it. -/
theorem closing_flattenLoop (deadline : ℚ) (turns attempt : ℕ) :
    Keeps (fun x : OrderStrategy ω × OrderBookManager ↦ ∃ placed,
      Closing symbol filled s₀ placed x.1) (flattenLoop O deadline turns attempt) := by
  induction turns generalizing attempt with
  | zero => exact keeps_pure _
  | succ turns ih =>
    refine Keeps.bind (m := monotonic O) ?_ fun now ↦ ?_
    · rintro x ⟨placed, hx⟩
      exact ⟨placed, hx.step hx.accounts (le_refl _) List.prefix_rfl⟩
    split
    · rintro ⟨s₁, m⟩ ⟨placed, hs⟩
      rw [after_bind_of_ok (show getStrategy (s₁, m) = .ok s₁ (s₁, m) from rfl)]
      split
      · exact ⟨placed, hs⟩
      -- the attempt notes the positions that it looks at, and closes each of them in turn
      · have hlook : dealing (fun _ ↦ .attempt) (pure ()) (s₁, m) =
            .ok () (noteDealing .attempt s₁ true s₁, m) := dealing_ok rfl _
        rw [after_bind_of_ok hlook]
        have hattempt : Attempting symbol filled s₀ s₁ s₁.openPositions
            (noteDealing .attempt s₁ true s₁) := by
          refine ⟨List.suffix_rfl, fun hsettled ↦ ?_, placed, closing_note hs _ _ _,
            fun _ ↦ hs.accounts⟩
          refine hsettled ⟨.attempt, s₁.state, s₁.client, s₁.client, true⟩ ?_ rfl
          show _ ∈ (s₁.history ++ [_]).drop _
          rw [List.drop_append_of_le_length hs.since.length_le]
          exact List.mem_append_right _ List.mem_cons_self
        have hall := triple_all (R := fun items x ↦ Attempting symbol filled s₀ s₁ items x.1)
          (E := fun x : OrderStrategy ω × OrderBookManager ↦ ∃ placed,
            Closing symbol filled s₀ placed x.1) (fun p items ↦
            (triple_iff_after.2 (attempting_closePosition (O := O) attempt)).weaken
              (fun _ hx ↦ hx) (fun _ _ hx ↦ hx) fun _ hx ↦ hx.closing.imp fun _ h ↦ h.1)
          s₁.openPositions
        have hnext := hall.bind fun _ ↦ (keeps_iff_triple.1 (ih (attempt + 1))).weaken
          (fun _ hx ↦ hx.closing.imp fun _ h ↦ h.1) (fun _ _ hx ↦ hx) fun _ hx ↦ hx
        exact triple_iff_after.1 hnext (noteDealing .attempt s₁ true s₁, m) hattempt
    · exact keeps_pure _

/-! ### The two parts of `go_flat` -/

/-- `go_flat`, as far as it cancels the working orders. -/
def cancelWorking : StrategyM ω Unit := do
  cancelActiveSpoofs
  cancelAllQuotes

/-- `go_flat`, from there on. -/
def closeAll (O : Outside ω) : StrategyM ω Unit := do
  let now ← monotonic O
  let s ← getStrategy
  flattenLoop O (now + 5) (O.attempts s.outside) 0
  update fun s ↦ { s with pendingFlatten := false, flattened := s.flattened + 1 }

theorem goFlat_eq (O : Outside ω) : goFlat O = cancelWorking >>= fun _ ↦ closeAll O :=
  (bind_assoc cancelActiveSpoofs (fun _ ↦ cancelAllQuotes) fun _ ↦ closeAll O).symm

/-- Cancelling places nothing. -/
theorem closing_cancelWorking :
    Keeps (fun x : OrderStrategy ω × OrderBookManager ↦ Closing symbol filled s₀ placed x.1)
      cancelWorking :=
  (keeps_cancelActiveSpoofs (fun _ hx ↦ hx.step hx.accounts (le_refl _) List.prefix_rfl)
    closing_deleteOrder).bind fun _ ↦
      keeps_cancelAllQuotes fun symbol side ↦ closing_cancelQuote symbol side.value

/-- **All attempts, one by one**: what they have filled is at most the position. -/
theorem closing_closeAll :
    Keeps (fun x : OrderStrategy ω × OrderBookManager ↦ ∃ placed,
      Closing symbol filled s₀ placed x.1) (closeAll O) := by
  refine Keeps.bind (m := monotonic O) ?_ fun now ↦ ?_
  · rintro x ⟨placed, hx⟩
    exact ⟨placed, hx.step hx.accounts (le_refl _) List.prefix_rfl⟩
  refine keeps_getStrategy.bind fun s ↦ (closing_flattenLoop _ _ _).bind fun _ ↦ ?_
  rintro x ⟨placed, hx⟩
  exact ⟨placed, hx.step hx.accounts (le_refl _) List.prefix_rfl⟩

/-- The orders and the bookings of `go_flat`, from the cancelling on. -/
theorem exists_closing_goFlat (symbol : ℤ) (filled : ℤ → ℤ)
    (x : OrderStrategy ω × OrderBookManager) :
    ∃ placed, Closing symbol filled (cancelWorking.after x).1 placed ((goFlat O).after x).1 := by
  have hstart : ∃ placed, Closing symbol filled (cancelWorking.after x).1 placed
      (cancelWorking.after x).1 := ⟨[], .refl symbol filled _⟩
  rw [goFlat_eq]
  rcases hrun : cancelWorking x with ⟨⟨⟩, y⟩ | ⟨e, y⟩
  · rw [after_bind_of_ok hrun]
    rw [after_ok hrun] at hstart ⊢
    exact closing_closeAll y hstart
  · rw [after_error (bind_error hrun)]
    rw [after_error hrun] at hstart ⊢
    exact hstart

end

/-- A clock that shows these times. -/
def clock : Outside (List ℚ) where
  monotonic w := (w.headD 0, w.tail)
  attempts _ := 50
  signals _ _ _ _ _ w := (none, w)
  onRawMessage _ _ _ w := w
  onTradeSummary _ _ w := w
  post _ w := (.otherException, w)

/-- A position of 5 in symbol 5, a bid for it at 100, and this to arrive. -/
def longFive (incoming : List Arrival) : OrderStrategy (List ℚ) × OrderBookManager :=
  (.init { OrderEntryClient.init [] [] 7 (-20000) 10 (some (.connected incoming)) [] with
      positionTracker := PositionTracker.init.updatePosition 5 5 0 } {} [0, 0, 0, 3, 3, 6],
    (OrderBookManager.processNewOrder 1 1 1 5 .buy 10 100 0).after .init)

/-- Two attempts, the fills of each arriving with its acknowledgement: of three, then of two. -/
def promptFills : List Arrival :=
  Arrival.burst [.ack ⟨⟨40, 101, 1, 1, 1, 7⟩, 15000000, 901, 5, 100⟩,
    .fill ⟨⟨33, 103, 1, 2, 1, 7⟩, 15000000, 3, 100, 1⟩,
    .closed ⟨⟨24, 104, 1, 3, 1, 7⟩, 15000000⟩] ++ [.pause] ++
  Arrival.burst [.ack ⟨⟨40, 101, 1, 4, 2, 7⟩, 15000001, 902, 2, 90⟩,
    .fill ⟨⟨33, 103, 1, 5, 2, 7⟩, 15000001, 2, 90, 2⟩]

/-- What the exchange fills of the two. -/
def promptlyFilled (orderId : ℤ) : ℤ := if orderId = 15000000 then 3 else 2

/-- Two attempts are acknowledged, and both fills arrive behind the second acknowledgement. -/
def lateFills : List Arrival :=
  Arrival.burst [.ack ⟨⟨40, 101, 1, 1, 1, 7⟩, 15000000, 901, 5, 100⟩] ++ [.pause] ++
    Arrival.burst [.ack ⟨⟨40, 101, 1, 2, 2, 7⟩, 15000001, 902, 5, 90⟩] ++ [.pause] ++
    Arrival.burst [.fill ⟨⟨33, 103, 1, 3, 1, 7⟩, 15000000, 5, 100, 2⟩,
      .fill ⟨⟨33, 103, 1, 4, 2, 7⟩, 15000001, 5, 90, 2⟩]

/-- With no open orders and no position, both exposures are zero. -/
theorem exposureOf_closing (symbol position : ℤ) (hposition : position ≠ 0) :
    RiskTracker.exposureOf symbol (closingSide position) .empty position + |position| = 0 := by
  have hnone : ∀ side, ExposureTracker.outstanding symbol side .empty = 0 := fun _ ↦ rfl
  unfold closingSide RiskTracker.exposureOf ExposureTracker.buyExposure ExposureTracker.sellExposure
  rw [hnone, hnone, add_zero, add_zero]
  rcases lt_or_gt_of_ne hposition with hneg | hpos
  · rw [if_neg (not_lt.2 hneg.le), if_pos rfl, abs_of_neg hneg, add_neg_cancel]
  · rw [if_pos hpos, if_neg (by decide), abs_of_pos hpos, neg_add_cancel]

/-- An order that closes a position leaves none. -/
theorem position_closing {position : ℤ} (hposition : position ≠ 0) :
    (if closingSide position = Side.buy.value then position + |position|
      else position - |position|) = 0 := by
  unfold closingSide
  rcases lt_or_gt_of_ne hposition with hneg | hpos
  · rw [if_neg (not_lt.2 hneg.le), if_pos rfl, abs_of_neg hneg, add_neg_cancel]
  · rw [if_pos hpos, if_neg (by decide), abs_of_pos hpos, sub_self]

/-- **An order that closes a position** is approved, with nothing else open and neither counter
exhausted, exactly when the cash balance is above the floor. -/
theorem closing_approved_iff {r : RiskTracker} (hlimits : r.Coherent)
    (positionTracker : PositionTracker) (pnlTracker : PnLTracker) (symbol : ℤ) {price : ℤ}
    (hprice : 0 < price) (currentSeqNum : ℕ) (now : ℚ)
    (hposition : 0 < |positionTracker.getPosition symbol|)
    (hside : |positionTracker.getPosition symbol| ≤ r.maxQtyPerSide)
    (hsecond : (r.rollSecond now).ordersThisSecond < r.maxOrdersPerSecond)
    (hsequence : (r.rollSequence currentSeqNum).ordersThisSeqNum ≤ r.maxPerSequence) :
    (r.isValid symbol (closingSide (positionTracker.getPosition symbol))
      |positionTracker.getPosition symbol| price .empty positionTracker pnlTracker currentSeqNum
      now).1.1 = true ↔ r.minPnl < pnlTracker.cash := by
  have hne := abs_pos.1 hposition
  rw [RiskTracker.isValid_approves_iff, RiskTracker.refusal?_eq_none_iff,
    exposureOf_closing symbol _ hne, position_closing hne, abs_zero]
  constructor
  · rintro ⟨⟨hpnl, -⟩, -⟩
    exact hpnl
  · intro hpnl
    exact ⟨⟨hpnl, hposition, hprice, hside.trans hlimits.side_le_order, hside,
      hlimits.maxExposure_nonneg, hlimits.positionLimit_nonneg⟩, hsecond, hsequence,
      hlimits.maxUnackedOrders_pos⟩

/-- Long five in symbol 1. -/
def longFiveTracker : PositionTracker := PositionTracker.init.updatePosition 1 5 0

theorem closing_approved_iff_longFive :
    (RiskTracker.init.isValid 1 (closingSide 5) |5| 90 .empty longFiveTracker ⟨-500⟩ 0 0).1.1 =
      true ↔ -18000 < -500 :=
  closing_approved_iff RiskTracker.coherent_init longFiveTracker ⟨-500⟩ 1 (by decide) 0 0
    (by decide) (by decide) (by decide +kernel) (by decide +kernel)

/-- With the balance at the floor the position cannot be closed. -/
theorem closing_refused_at_floor :
    ¬ ∀ (positionTracker : PositionTracker) (pnlTracker : PnLTracker) (symbol price : ℤ)
      (currentSeqNum : ℕ) (now : ℚ),
      0 < |positionTracker.getPosition symbol| →
      |positionTracker.getPosition symbol| ≤ RiskTracker.init.maxQtyPerSide → 0 < price →
      (RiskTracker.init.isValid symbol (closingSide (positionTracker.getPosition symbol))
        |positionTracker.getPosition symbol| price .empty positionTracker pnlTracker currentSeqNum
        now).1.1 = true := by
  intro h
  have happroved := h longFiveTracker ⟨-18000⟩ 1 90 0 0 (by decide) (by decide) (by decide)
  revert happroved
  decide +kernel

end HftTrading.Strategy
