import HftTrading.OrderEntry.Steps
import Mathlib.Algebra.Order.BigOperators.Group.List
import Mathlib.Tactic.Linarith

/-!
# Exposure stays within the limit

The pre-trade check looks at one order. What it protects is a statement about all of them
(`Covered`): for every symbol, the position plus everything that open buy orders could still add,
and likewise downwards, is within the limit, so that the position is within it in whatever order
the open orders fill (`Covered.position_le`). A fill moves quantity from an open order into the
position, a close only drops an order's remainder, and an order is placed only where there is room;
so every step of a client that does not modify orders keeps it (`Step.kept`), as long as no fill
overfills its order.

`outstanding` is the sum of what is left of the open orders of a symbol and a side. Three lemmas say
how it moves, one for each way in which the map of open orders is written: an entry that is put in,
one that is filled further, one that is taken out. The check of a new order adds the order to the
same sum, so that an approved order is exactly one that leaves the client covered.

The condition that a fill fits its order is on the responses. A fill beyond it would move the
position past what the order had left, and nothing in the client stops that.
-/

namespace HftTrading.OrderEntry

open OrderEntryClient (filledBy)

/-! ### What is outstanding -/

namespace ExposureTracker

variable {symbol : ℤ} {side : Side} {openOrders : Dict ℤ OeConfig}

/-- An open order contributes what is left of it. -/
theorem outstanding_of_get? {orderId : ℤ} {entry : OeConfig}
    (h : openOrders.get? orderId = some entry) :
    outstanding symbol side openOrders =
      left symbol side entry + outstanding symbol side (openOrders.erase orderId) := by
  unfold outstanding
  rw [((Dict.values_perm_of_get? h).map _).sum_eq, List.map_cons, List.sum_cons]

/-- An entry that is put in takes the place of an earlier one. -/
theorem outstanding_insert (orderId : ℤ) (entry : OeConfig) :
    outstanding symbol side (openOrders.insert orderId entry) =
      left symbol side entry + outstanding symbol side (openOrders.erase orderId) := by
  rw [outstanding_of_get? (openOrders.get?_insert_self orderId entry), Dict.erase_insert_self]

/-- Another entry under the same id. -/
theorem outstanding_rewrite {orderId : ℤ} {entry : OeConfig}
    (hentry : openOrders.get? orderId = some entry) (entry' : OeConfig) :
    outstanding symbol side (openOrders.insert orderId entry') =
      outstanding symbol side openOrders - left symbol side entry + left symbol side entry' := by
  rw [outstanding_insert, outstanding_of_get? hentry]
  omega

/-- An order that is not overfilled has not less than nothing left. -/
theorem left_nonneg {entry : OeConfig} (h : entry.filled ≤ entry.qty) :
    0 ≤ left symbol side entry := by
  unfold left
  split
  · omega
  · exact le_refl 0

/-- What is left of an order after a fill. -/
theorem left_filledBy (symbol : ℤ) (side : Side) (m : OrderFill) (entry : OeConfig) :
    left symbol side (filledBy m entry) = left symbol side entry -
      if entry.symbol = symbol ∧ entry.side = side.value then (m.quantity : ℤ) else 0 := by
  unfold left
  show (if entry.symbol = symbol ∧ entry.side = side.value then
    entry.qty - (entry.filled + m.quantity) else 0) = _
  split
  · omega
  · rfl

theorem outstanding_nonneg
    (h : ∀ orderId entry, openOrders.get? orderId = some entry → entry.filled ≤ entry.qty) :
    0 ≤ outstanding symbol side openOrders := by
  refine List.sum_nonneg fun n hn ↦ ?_
  obtain ⟨entry, hentry, rfl⟩ := List.mem_map.1 hn
  obtain ⟨orderId, hget⟩ := Dict.mem_values_iff.1 hentry
  exact left_nonneg (h orderId entry hget)

end ExposureTracker

open ExposureTracker

/-! ### Orders and positions within a limit -/

/-- An entry that is of one of the two sides and not overfilled. -/
structure OeConfig.Sound (entry : OeConfig) : Prop where
  side : entry.side = Side.buy.value ∨ entry.side = Side.sell.value
  filled_le : entry.filled ≤ entry.qty

section

variable {openOrders : Dict ℤ OeConfig} {positionTracker positionTracker' : PositionTracker}
  {entry : OeConfig} {m : OrderFill}

/-- **A fill** leaves the exposure of its side as it is and lowers the other by its quantity. -/
theorem exposures_fill (hsound : entry.Sound)
    (hentry : openOrders.get? m.orderId = some entry)
    (hposition : ∀ symbol, positionTracker'.getPosition symbol =
      positionTracker.getPosition symbol +
        if symbol = entry.symbol then entry.signed m.quantity else 0) (symbol : ℤ) :
    buyExposure symbol (openOrders.insert m.orderId (filledBy m entry))
        (positionTracker'.getPosition symbol) =
      buyExposure symbol openOrders (positionTracker.getPosition symbol) -
        (if entry.symbol = symbol ∧ entry.side = Side.sell.value then (m.quantity : ℤ) else 0) ∧
    sellExposure symbol (openOrders.insert m.orderId (filledBy m entry))
        (positionTracker'.getPosition symbol) =
      sellExposure symbol openOrders (positionTracker.getPosition symbol) -
        (if entry.symbol = symbol ∧ entry.side = Side.buy.value then (m.quantity : ℤ) else 0) := by
  have hne : Side.sell.value ≠ Side.buy.value := by decide
  unfold buyExposure sellExposure
  rw [outstanding_rewrite hentry, outstanding_rewrite hentry, left_filledBy, left_filledBy,
    hposition]
  unfold OeConfig.signed
  -- what a buy moves into the position it takes from what is left of the bids, and a sell likewise
  rcases hsound.side with hside | hside
  · simp only [hside, hne.symm, if_true, and_true, and_false, if_false, eq_comm (a := symbol)]
    constructor
    · split <;> omega
    · split <;> omega
  · simp only [hside, hne, and_true, and_false, if_false, eq_comm (a := symbol)]
    constructor
    · split <;> omega
    · split <;> omega

/-- An order that leaves lowers the exposures. -/
theorem exposures_erase (hsound : ∀ orderId entry, openOrders.get? orderId = some entry →
      entry.Sound) (orderId symbol position : ℤ) :
    buyExposure symbol (openOrders.erase orderId) position ≤
        buyExposure symbol openOrders position ∧
      sellExposure symbol (openOrders.erase orderId) position ≤
        sellExposure symbol openOrders position := by
  rcases hget : openOrders.get? orderId with - | entry
  · rw [Dict.erase_eq_self hget]
    exact ⟨le_rfl, le_rfl⟩
  · have hfilled := (hsound orderId entry hget).filled_le
    have hbuy : 0 ≤ left symbol .buy entry := left_nonneg hfilled
    have hsell : 0 ≤ left symbol .sell entry := left_nonneg hfilled
    unfold buyExposure sellExposure
    have houtstanding (side : Side) : outstanding symbol side openOrders =
        left symbol side entry + outstanding symbol side (openOrders.erase orderId) :=
      outstanding_of_get? hget
    rw [houtstanding .buy, houtstanding .sell]
    constructor
    · omega
    · omega

end

/-- Whatever the open orders fill, and in whatever order, no position gets beyond the limit. -/
structure Covered (limit : ℤ) (openOrders : Dict ℤ OeConfig) (positionTracker : PositionTracker) :
    Prop where
  sound : ∀ orderId entry, openOrders.get? orderId = some entry → entry.Sound
  buy_le : ∀ symbol, buyExposure symbol openOrders (positionTracker.getPosition symbol) ≤ limit
  sell_le : ∀ symbol, sellExposure symbol openOrders (positionTracker.getPosition symbol) ≤ limit

namespace Covered

variable {limit : ℤ} {openOrders : Dict ℤ OeConfig} {positionTracker : PositionTracker}

/-- Nor have they in a client that is covered. -/
theorem outstanding_nonneg (h : Covered limit openOrders positionTracker) (symbol : ℤ)
    (side : Side) : 0 ≤ outstanding symbol side openOrders :=
  ExposureTracker.outstanding_nonneg fun orderId entry hget ↦ (h.sound orderId entry hget).filled_le

/-- **The position itself** is within the limit. -/
theorem position_le (h : Covered limit openOrders positionTracker) (symbol : ℤ) :
    |positionTracker.getPosition symbol| ≤ limit := by
  have hbuy := h.buy_le symbol
  have hsell := h.sell_le symbol
  have hleft := h.outstanding_nonneg symbol .buy
  have hleft' := h.outstanding_nonneg symbol .sell
  unfold buyExposure at hbuy
  unfold sellExposure at hsell
  rw [abs_le]
  constructor
  · linarith
  · linarith

/-- An order leaves: its remainder can no longer fill. -/
theorem erase (h : Covered limit openOrders positionTracker) (orderId : ℤ) :
    Covered limit (openOrders.erase orderId) positionTracker := by
  have hdrop := exposures_erase h.sound orderId
  refine ⟨fun orderId' entry' hget' ↦ ?_, fun symbol ↦ ?_, fun symbol ↦ ?_⟩
  · rw [Dict.get?_erase] at hget'
    split at hget'
    · cases hget'
    · exact h.sound orderId' entry' hget'
  · exact (hdrop symbol _).1.trans (h.buy_le symbol)
  · exact (hdrop symbol _).2.trans (h.sell_le symbol)

/-- With no open order at all. -/
theorem empty (h : Covered limit openOrders positionTracker) :
    Covered limit .empty positionTracker := by
  have hposition : ∀ symbol, |positionTracker.getPosition symbol| ≤ limit := h.position_le
  refine ⟨fun orderId entry hget ↦ ?_, fun symbol ↦ ?_, fun symbol ↦ ?_⟩
  · cases hget
  · show positionTracker.getPosition symbol + 0 ≤ limit
    rw [add_zero]
    exact (abs_le.1 (hposition symbol)).2
  · show -positionTracker.getPosition symbol + 0 ≤ limit
    rw [add_zero]
    exact neg_le.1 (abs_le.1 (hposition symbol)).1

/-- **An order is placed** where its side's exposure has room for it. -/
theorem place (h : Covered limit openOrders positionTracker) {orderId symbol quantity price : ℤ}
    {side : Side} (hnew : openOrders.get? orderId = none) (hquantity : 0 < quantity)
    (hexposure : RiskTracker.exposureOf symbol side.value openOrders
      (positionTracker.getPosition symbol) + quantity ≤ limit) :
    Covered limit (openOrders.insert orderId ⟨symbol, side.value, quantity, price, 0⟩)
      positionTracker := by
  refine ⟨fun orderId' entry' hget' ↦ ?_, fun symbol' ↦ ?_, fun symbol' ↦ ?_⟩
  · rw [Dict.get?_insert] at hget'
    split at hget'
    · cases hget'
      refine ⟨?_, le_of_lt hquantity⟩
      cases side
      · exact Or.inl rfl
      · exact Or.inr rfl
    · exact h.sound orderId' entry' hget'
  · have hbuy := h.buy_le symbol'
    unfold buyExposure at hbuy ⊢
    rw [outstanding_insert, Dict.erase_eq_self hnew]
    unfold left
    split
    · rename_i heq
      obtain ⟨hsymbol, hside⟩ := heq
      obtain rfl : symbol = symbol' := hsymbol
      rw [RiskTracker.exposureOf, if_pos hside, buyExposure] at hexposure
      show _ + (quantity - 0 + _) ≤ limit
      omega
    · omega
  · have hsell := h.sell_le symbol'
    unfold sellExposure at hsell ⊢
    rw [outstanding_insert, Dict.erase_eq_self hnew]
    unfold left
    split
    · rename_i heq
      obtain ⟨hsymbol, hside⟩ := heq
      obtain rfl : symbol = symbol' := hsymbol
      replace hside : side.value = Side.sell.value := hside
      rw [RiskTracker.exposureOf, if_neg (by rw [hside]; decide), sellExposure] at hexposure
      show _ + (quantity - 0 + _) ≤ limit
      omega
    · omega

end Covered

/-- **A fill** moves quantity from an order's remainder into the position. -/
theorem Covered.fill {limit : ℤ} {openOrders : Dict ℤ OeConfig}
    {positionTracker positionTracker' : PositionTracker}
    (h : Covered limit openOrders positionTracker) {entry : OeConfig} {m : OrderFill}
    (hget : openOrders.get? m.orderId = some entry)
    (hfits : entry.filled + m.quantity ≤ entry.qty)
    (hposition : ∀ symbol, positionTracker'.getPosition symbol =
      positionTracker.getPosition symbol +
        if symbol = entry.symbol then entry.signed m.quantity else 0) :
    Covered limit (openOrders.insert m.orderId (filledBy m entry)) positionTracker' := by
  have hsound := h.sound m.orderId entry hget
  have hexposures := exposures_fill hsound hget hposition
  refine ⟨fun orderId' entry' hget' ↦ ?_, fun symbol ↦ ?_, fun symbol ↦ ?_⟩
  · rw [Dict.get?_insert] at hget'
    split at hget'
    · cases hget'
      exact ⟨hsound.side, hfits⟩
    · exact h.sound orderId' entry' hget'
  -- neither exposure grows
  · have hbuy := h.buy_le symbol
    rw [(hexposures symbol).1]
    split <;> omega
  · have hsell := h.sell_le symbol
    rw [(hexposures symbol).2]
    split <;> omega

/-! ### Every step of the client -/

/-- A fill that is noted does not overfill its order. -/
def Note.Fits : Note → Prop
  | .booked _ entry fill => entry.filled + fill.quantity ≤ entry.qty
  | _ => True

instance : DecidablePred Note.Fits
  | .booked _ entry fill => inferInstanceAs (Decidable (entry.filled + fill.quantity ≤ entry.qty))
  | .read _ | .placed _ _ | .removed _ | .cleared | .modified _ _ _ | .lost _ | .sent _
  | .replied _ _ _ _ => .isTrue trivial

namespace OrderEntryClient

variable {modifies connects : Prop} {limit : ℤ} {c c' : OrderEntryClient}

/-- As long as no fill that was booked has overfilled its order, the exposure has been within the
limit ever since. -/
structure Kept (limit : ℤ) (c : OrderEntryClient) : Prop where
  limit_eq : c.riskTracker.maxExposure = limit
  positionLimit_eq : c.riskTracker.positionLimit = limit
  covered : (∀ p ∈ c.record.trace, p.note.Fits) →
    Covered limit c.openOrders c.positionTracker ∧
      ∀ p ∈ c.record.trace, Covered limit p.openOrders p.positionTracker

theorem SameBooks.sameLimits (h : SameBooks c c') : c.riskTracker.SameLimits c'.riskTracker := by
  rw [h.riskTracker]
  exact ⟨rfl, rfl⟩

/-- What has no effect on orders, positions and the trace. -/
theorem Kept.congr (h : Kept limit c) (horders : c'.openOrders = c.openOrders)
    (hpositions : c'.positionTracker = c.positionTracker)
    (hrisk : c.riskTracker.SameLimits c'.riskTracker)
    (htrace : c'.record.trace = c.record.trace) : Kept limit c' := by
  refine ⟨hrisk.maxExposure.trans h.limit_eq, hrisk.positionLimit.trans h.positionLimit_eq, ?_⟩
  rw [horders, hpositions, htrace]
  exact h.covered

/-- What has an effect and is noted. -/
theorem Kept.note {n : Note} (h : Kept limit c)
    (hcovered : n.Fits → Covered limit c.openOrders c.positionTracker →
      Covered limit c'.openOrders c'.positionTracker)
    (hrisk : c.riskTracker.SameLimits c'.riskTracker)
    (htrace : c'.record.trace = c.record.trace) : Kept limit (c'.note n) := by
  refine ⟨hrisk.maxExposure.trans h.limit_eq, hrisk.positionLimit.trans h.positionLimit_eq,
    fun hfits ↦ ?_⟩
  replace hfits : ∀ p ∈ c'.record.trace ++ [c'.point n], p.note.Fits := hfits
  rw [htrace, List.forall_mem_append, List.forall_mem_singleton] at hfits
  obtain ⟨hnow, hpoints⟩ := h.covered hfits.1
  have hnow' := hcovered hfits.2 hnow
  refine ⟨hnow', ?_⟩
  show ∀ p ∈ c'.record.trace ++ _, _
  rw [htrace, List.forall_mem_append, List.forall_mem_singleton]
  exact ⟨hpoints, hnow'⟩

/-- Nothing but a note. -/
theorem Kept.noted (h : Kept limit c) (n : Note) : Kept limit (c.note n) :=
  h.note (fun _ hc ↦ hc) ⟨rfl, rfl⟩ rfl

/-- An order that is dropped leaves room. -/
theorem Kept.popOrder (h : Kept limit c) (orderId : ℤ) : Kept limit (c.popOrder orderId) := by
  unfold OrderEntryClient.popOrder
  split
  · exact h.note (fun _ hc ↦ hc.erase orderId) ⟨rfl, rfl⟩ rfl
  · exact h

/-- **A fill moves as much into the position as it takes from its order.** -/
theorem Kept.bookFill (h : Kept limit c) {m : OrderFill} {entry : OeConfig} (flags : FillFlags)
    (hentry : c.openOrders.get? m.orderId = some entry) :
    Kept limit (c.bookFill entry m flags) := by
  unfold OrderEntryClient.bookFill
  rw [bookTrackers_eq]
  have hfill := fun (hfits : (Note.booked m.orderId entry m).Fits)
      (hc : Covered limit c.openOrders c.positionTracker) ↦
    hc.fill hentry hfits (getPosition_bookTrackers entry m (c.onRecord Record.take))
  refine h.note (fun hfits hc ↦ ?_) ⟨rfl, rfl⟩ rfl
  dsimp only
  split
  · have herase := (hfill hfits hc).erase m.orderId
    rwa [Dict.erase_insert_self] at herase
  · exact hfill hfits hc

theorem ReadStep.kept (h : ReadStep c c') (hc : Kept limit c) : Kept limit c' := by
  cases h with
  | wire h =>
    exact hc.congr h.openOrders h.positionTracker h.sameLimits (by rw [h.record])
  | sent => exact hc.noted _
  | opened => exact hc.congr rfl rfl ⟨rfl, rfl⟩ rfl
  | read _ response =>
    have hcollect : Kept limit (c.onRecord (·.collect response)) := hc.congr rfl rfl ⟨rfl, rfl⟩ rfl
    exact hcollect.noted _
  | abandoned => exact (hc.noted _).congr rfl rfl ⟨rfl, rfl⟩ rfl

theorem Reads.kept (h : Reads c c') (hc : Kept limit c) : Kept limit c' := by
  induction h with
  | refl => exact hc
  | tail _ hstep ih => exact hstep.kept ih

/-- **Every step** of a client that does not modify orders keeps the exposure within the limit. -/
theorem Step.kept (h : Step False connects c c') (hc : Kept limit c) : Kept limit c' := by
  cases h with
  | header => exact hc.congr rfl rfl ⟨rfl, rfl⟩ rfl
  | exchanged h => exact ((reads_of_ok h).kept hc).noted _
  | broken h => exact (reads_of_error h).kept hc
  | passed => exact hc.congr rfl rfl ⟨rfl, rfl⟩ rfl
  | popped =>
    have htake : Kept limit (c.onRecord Record.take) := hc.congr rfl rfl ⟨rfl, rfl⟩ rfl
    exact htake.popOrder _
  | booked _ _ hentry => exact hc.bookFill _ hentry
  | finished => exact hc.congr rfl rfl ⟨rfl, rfl⟩ rfl
  | abandoned => exact (hc.noted _).congr rfl rfl ⟨rfl, rfl⟩ rfl
  | checked h => exact hc.congr rfl rfl h rfl
  | placed _ hnew hquantity hexposure =>
    rw [hc.limit_eq] at hexposure
    exact hc.note (fun _ hcovered ↦ hcovered.place hnew hquantity hexposure) ⟨rfl, rfl⟩ rfl
  | settled hmodifies => exact hmodifies.elim
  | forgotten => exact hc.note (fun _ hcovered ↦ hcovered.empty) ⟨rfl, rfl⟩ rfl
  | connected _ h =>
    exact hc.congr h.openOrders h.positionTracker h.sameLimits (by rw [h.record])
  | loginExchanged _ data => exact (reads_after_exchangeLogin data c).kept hc

/-- So it is kept along whole runs without modifies. -/
theorem Steps.kept (h : Steps False connects c c') (hc : Kept limit c) : Kept limit c' := by
  induction h with
  | refl => exact hc
  | tail _ hstep ih => exact hstep.kept ih

/-- Both limits start out equal. -/
theorem kept_init (username password : List UInt8) (clientId pnlFloor positionCap : ℤ)
    (socket : Option Socket) (network : List (Option (List Arrival))) :
    Kept RiskTracker.init.maxExposure
      (init username password clientId pnlFloor positionCap socket network) := by
  refine ⟨rfl, rfl, fun _ ↦ ⟨⟨fun orderId entry hget ↦ ?_, fun symbol ↦ ?_, fun symbol ↦ ?_⟩, ?_⟩⟩
  · cases hget
  · show (0 : ℤ) + 0 ≤ 8
    decide
  · show -(0 : ℤ) + 0 ≤ 8
    decide
  · exact fun p hp ↦ absurd hp List.not_mem_nil

end OrderEntryClient

/-- The limits as the risk tracker states them, on what the open orders could add to the positions
and on the positions. -/
def WithinLimits (limits : RiskTracker) (openOrders : Dict ℤ OeConfig)
    (positionTracker : PositionTracker) : Prop :=
  ∀ symbol,
    buyExposure symbol openOrders (positionTracker.getPosition symbol) ≤ limits.maxExposure ∧
    sellExposure symbol openOrders (positionTracker.getPosition symbol) ≤ limits.maxExposure ∧
    |positionTracker.getPosition symbol| ≤ limits.positionLimit

/-- A client that is covered is within its limits. -/
theorem Covered.withinLimits {limits : RiskTracker} {openOrders : Dict ℤ OeConfig}
    {positionTracker : PositionTracker} (h : Covered limits.maxExposure openOrders positionTracker)
    (hlimit : limits.positionLimit = limits.maxExposure) :
    WithinLimits limits openOrders positionTracker :=
  fun symbol ↦ ⟨h.buy_le symbol, h.sell_le symbol, hlimit ▸ h.position_le symbol⟩

namespace OrderEntryClient

/-- **Exposure stays within the limit**: in every run of calls without `modify_order`, whatever is
received on whatever connections, in which no fill overfills its order, the limits hold at every
point, and at the end. -/
theorem withinLimits_of_fits (username password : List UInt8) (clientId pnlFloor positionCap : ℤ)
    (socket : Option Socket) (network : List (Option (List Arrival))) (calls : List Call)
    (hcalls : ∀ call ∈ calls, call.modifies = false)
    (hfits : ∀ p ∈ (runCalls calls
      (init username password clientId pnlFloor positionCap socket network)).record.trace,
      p.note.Fits) :
    let c := runCalls calls (init username password clientId pnlFloor positionCap socket network)
    (∀ p ∈ c.record.trace, WithinLimits c.riskTracker p.openOrders p.positionTracker) ∧
      WithinLimits c.riskTracker c.openOrders c.positionTracker := by
  intro c
  have hran : Ran False True _ [] c := ran_runCalls
    (fun call hcall htrue ↦ absurd (hcalls call hcall) (by rw [htrue]; decide))
    (fun _ _ _ ↦ trivial) rfl
  have hkept := hran.steps.kept (kept_init ..)
  obtain ⟨hnow, hpoints⟩ := hkept.covered hfits
  have hlimit : c.riskTracker.positionLimit = c.riskTracker.maxExposure :=
    hkept.positionLimit_eq.trans hkept.limit_eq.symm
  rw [← hkept.limit_eq] at hnow hpoints
  exact ⟨fun p hp ↦ (hpoints p hp).withinLimits hlimit, hnow.withinLimits hlimit⟩

/-- A buy of eight, three of which fill at once and three more while the rest is being cancelled. -/
def partialFillRun : OrderEntryClient :=
  runCalls [.newOrder 0 1 5 1 8 100 0, .deleteOrder 1]
    (init [] [] 7 (-18000) 10 (some (.connected
      (Arrival.burst [.ack ⟨⟨40, 101, 1, 1, 1, 7⟩, 1, 900, 8, 100⟩,
        .fill ⟨⟨33, 103, 1, 2, 1, 7⟩, 1, 3, 100, 1⟩] ++ [.pause] ++
      Arrival.burst [.fill ⟨⟨33, 103, 1, 3, 1, 7⟩, 1, 3, 100, 1⟩,
        .closed ⟨⟨24, 104, 1, 4, 2, 7⟩, 1⟩] ++ [.pause]))) [])

/-- In that run the limits hold throughout, and a position of six is left. -/
theorem withinLimits_of_fits_partialFill :
    ((∀ p ∈ partialFillRun.record.trace,
        WithinLimits partialFillRun.riskTracker p.openOrders p.positionTracker) ∧
      WithinLimits partialFillRun.riskTracker partialFillRun.openOrders
        partialFillRun.positionTracker) ∧
    partialFillRun.positionTracker.getPosition 5 = 6 := by
  refine ⟨?_, by decide +kernel⟩
  unfold partialFillRun
  exact withinLimits_of_fits [] [] 7 (-18000) 10 _ [] _ (by decide) (by decide +kernel)

end OrderEntryClient

end HftTrading.OrderEntry
