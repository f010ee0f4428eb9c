import HftTrading.Strategy.Steps

/-!
# What is not the strategy's own

Of the books the strategy only reads best prices, and what is outside moves only as it moves by
itself. So an assertion of these two is kept by every method and every run, if it is kept by such
reads and moves (`apart_keptByRunParts`).

There are two uses of it. The feed relies on nothing but reads, so it goes its way whatever the
strategy does; and a clock that does not go back, being outside, does not go back in a run. Neither
has to know anything of quotes, spoofs or arbitrages.
-/

namespace HftTrading.Strategy

open OrderEntry Method OrderStrategy

variable {ω : Type} {J : ω → OrderBookManager → Prop}

/-- Of what is outside, and of the books. -/
def Apart (J : ω → OrderBookManager → Prop) (x : OrderStrategy ω × OrderBookManager) : Prop :=
  J x.1.outside x.2

theorem apart_onClient {α : Type} (call : OrderEntryClient.ClientM α) :
    Keeps (Apart J) (onClient call) := by
  intro x hx
  rw [after_onClient]
  exact hx

/-- A call on the quoting of a symbol. -/
theorem apart_onQuoting {α : Type} (symbol : ℤ) (call : Quoting.QuotingM α) :
    Keeps (Apart J) (onQuoting symbol call) := by
  intro x hx
  rcases after_onQuoting symbol call x with ⟨-, hafter⟩ | ⟨state, -, hafter⟩
  · rwa [hafter]
  · rw [hafter]
    exact hx

theorem apart_dealing {α : Type} (task : OrderStrategy ω → Task) {m : StrategyM ω α}
    (hm : Keeps (Apart J) m) : Keeps (Apart J) (dealing task m) :=
  keeps_dealing (fun _ _ _ hx ↦ hx) task hm

theorem apart_deleteOrder (orderId : ℤ) : Keeps (Apart J) (OrderStrategy.deleteOrder orderId) :=
  apart_dealing _ (apart_onClient _)

section

variable {O : Outside ω} (hmoves : ∀ {w w'}, O.Moves w w' → ∀ {m}, J w m → J w' m)

include hmoves

/-- Reading the clock moves what is outside, as it moves. -/
theorem apart_monotonic : Keeps (Apart J) (monotonic O) := fun _ hx ↦ hmoves (.monotonic _) hx

/-- A new order, which reads the clock. -/
theorem apart_newOrder (orderId symbol side quantity price : ℤ) (flags : OrderFlags) :
    Keeps (Apart J) (newOrder O orderId symbol side quantity price flags) :=
  (apart_monotonic hmoves).bind fun _ ↦ apart_dealing _ (apart_onClient _)

theorem apart_maybeSendSpoof (symbol side bb ba : ℤ) :
    Keeps (Apart J) (maybeSendSpoof O symbol side bb ba) := by
  refine keeps_getStrategy.bind fun s ↦ ?_
  split
  · exact keeps_pure _
  dsimp only
  split
  · exact keeps_pure _
  refine (apart_onQuoting symbol _).bind fun oid ↦
    (apart_newOrder hmoves _ _ _ _ _ _).bind fun responses ↦ ?_
  split
  · exact (apart_monotonic hmoves).bind fun _ _ hx ↦ hx
  · exact keeps_pure _

/-- **Nothing of the strategy touches them**, but that what is outside moves on, and that best
prices are read off the books. -/
theorem apart_keptByRunParts (hread : ∀ w symbol side,
    Keeps (J w) (OrderBookManager.onBook symbol (OrderBook.getBest side))) :
    KeptByRunParts O (Apart J) where
  outside hm hx := hmoves hm hx
  read symbol side x hx := by
    show J _ ((onManager (OrderBookManager.onBook symbol (OrderBook.getBest side))).after x).2
    unfold onManager
    rw [after_zoom]
    exact hread _ symbol side x.2 hx
  cancelActiveSpoofs := keeps_cancelActiveSpoofs (fun _ hx ↦ hx) apart_deleteOrder
  cancelQuote symbol side := apart_dealing _ (apart_onQuoting symbol _)
  attempt := apart_dealing _ (keeps_pure _)
  submitClosing symbol side quantity price :=
    Keeps.bind (m := nextFlattenOid) (fun _ hx ↦ hx) fun _ ↦
      ((apart_newOrder hmoves _ _ _ _ _ _).bind fun _ ↦ keeps_pure _).tryCatch fun _ ↦ keeps_pure _
  finished hx := hx
  checkActiveSpoofs _ :=
    keeps_checkActiveSpoofs (fun hm hx ↦ hmoves hm hx) (fun _ hx ↦ hx) apart_deleteOrder
  killed _ _ _ hx := hx
  stopped _ _ _ hx := hx
  maybeSendSpoof _ symbol side bb ba := apart_maybeSendSpoof hmoves symbol side.value bb ba
  manageQuote _ symbol side targetPrice shouldQuote :=
    (apart_monotonic hmoves).bind fun _ ↦ apart_dealing _ (apart_onQuoting symbol _)
  cooldown _ _ _ _ hx := hx
  offer _ symbol side price :=
    Keeps.bind (m := ETFArbEngine.allocOid) (fun _ hx ↦ hx) fun _ ↦
      apart_newOrder hmoves _ _ _ _ _ _
  updatePosition _ _ _ _ _ _ hx := hx
  suspend hx := hx
  enabled hx := hx
  reconnect := apart_dealing _ (apart_onClient _)

end

end HftTrading.Strategy
