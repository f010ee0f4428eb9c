import HftTrading.OrderEntry.Placing
import HftTrading.Strategy.Spoofs

/-!
# The risk check over the runs of the strategy

Quotes, spoofs, the orders of `go_flat` and those of the ETF engine all go through `new_order`, and
so through the one risk tracker of the client. What is known of a client that only asks, places
what is approved, and is idle otherwise, is true of the client in every run (`KeptByClient`).

So no order of a run goes around the check (`cleared_runEvents`), and in less than a second no more
than twice the orders are placed that the tracker allows in one, however many of its ways to send
an order the strategy uses, and across any lost connections (`placements_runEvents`).

## The look at the clock

The strategy reads the clock and hands the time to `new_order`, so between the two a statement about
time is about the time that has been read and not about the clock, which may have gone on. An
invariant here therefore comes in two forms: one with the outside, which holds between the things
that the strategy does, and one with a time, which holds from the look at the clock to the end of
the order (`KeptByClient`). For the limits the two are the same; for the orders per second, the
first says that the stretch ends no later than the clock, the second that it ends at the time read.

The method lemmas of the strategy then do the rest: an invariant of this kind is one of its parts,
with trading and without.
-/

namespace HftTrading.Strategy

open OrderEntry Method OrderStrategy OrderEntryClient

variable {ω : Type} {O : Outside ω}

/-! ### What only the client and the clock decide -/

/-- **What the client keeps**: `D` from one thing that it does to the next, and `E` from the look at
the clock before it to its end. -/
structure KeptByClient (O : Outside ω) (D : ω → OrderEntryClient → Prop)
    (E : ℚ → OrderEntryClient → Prop) : Prop where
  moves : ∀ {w w' c}, O.Moves w w' → D w c → D w' c
  idle : ∀ {w c c'}, Idle c c' → D w c → D w c'
  looked : ∀ {w c}, D w c → E (O.monotonic w).1 c
  waited : ∀ {w c}, E (O.monotonic w).1 c → D (O.monotonic w).2 c
  idleThen : ∀ {now c c'}, Idle c c' → E now c → E now c'
  newOrder : ∀ {now c} orderId symbol side quantity price flags, E now c →
    E now ((OrderEntryClient.newOrder now orderId symbol side quantity price flags).after c)

/-- Of what is outside, and of the client. -/
def OfClient (D : ω → OrderEntryClient → Prop) (x : OrderStrategy ω × OrderBookManager) : Prop :=
  D x.1.outside x.1.client

namespace KeptByClient

variable {D : ω → OrderEntryClient → Prop} {E : ℚ → OrderEntryClient → Prop}
  (h : KeptByClient O D E)

include h

/-- A call that is idle. -/
theorem onClient {α : Type} {call : ClientM α} (hidle : ∀ c, Idle c (call.after c))
    (task : OrderStrategy ω → Task) : Keeps (OfClient D) (dealing task (onClient call)) := by
  refine keeps_dealing (fun _ _ _ hx ↦ hx) _ fun x hx ↦ ?_
  rw [after_onClient]
  exact h.idle (hidle x.1.client) hx

/-- A cancel is idle. -/
theorem deleteOrder (orderId : ℤ) : Keeps (OfClient D) (OrderStrategy.deleteOrder orderId) :=
  h.onClient (idle_deleteOrder orderId) _

/-- So is cancelling a quote. -/
theorem cancelQuote (symbol : ℤ) (side : Side) :
    Keeps (OfClient D) (OrderStrategy.cancelQuote symbol side.value) := by
  refine keeps_dealing (fun _ _ _ hx ↦ hx) _ fun x hx ↦ ?_
  rcases after_onQuoting symbol (Quoting.cancelQuote side.value) x with ⟨-, heq⟩ | ⟨state, -, heq⟩
  · rw [heq]
    exact hx
  · rw [heq]
    have hquoting := keeps_client_cancelQuote (J := D x.1.outside)
      (fun orderId c hc ↦ h.idle (idle_deleteOrder orderId c) hc) side.value
    exact hquoting (x.1.quoting state) hx

/-- What is done at a look at the clock. -/
theorem atLook {α : Type} {m : ℚ → StrategyM ω α} (hm : ∀ now, Keeps
      (fun x : OrderStrategy ω × OrderBookManager ↦
        E now x.1.client ∧ ∀ c, E now c → D x.1.outside c) (m now)) :
    Keeps (OfClient D) (do
      let now ← monotonic O
      m now) := by
  refine keeps_iff_triple.2 (Triple.bind (m := monotonic O) (R := fun now x ↦
    E now x.1.client ∧ ∀ c, E now c → D x.1.outside c) (fun x hx ↦ ⟨h.looked hx, fun c ↦ h.waited⟩)
    fun now ↦ ?_)
  exact (keeps_iff_triple.1 (hm now)).weaken (fun _ hx ↦ hx) (fun _ x hx ↦ hx.2 _ hx.1)
    fun x hx ↦ hx.2 _ hx.1

/-- **A new order**, whoever wants it. -/
theorem newOrder_strategy (orderId symbol side quantity price : ℤ) (flags : OrderFlags) :
    Keeps (OfClient D) (OrderStrategy.newOrder O orderId symbol side quantity price flags) := by
  refine h.atLook fun now ↦ keeps_dealing (fun _ _ _ hx ↦ hx) _ fun x hx ↦ ?_
  rw [after_onClient]
  exact ⟨h.newOrder _ _ _ _ _ _ hx.1, hx.2⟩

/-- **A quote** is placed, moved or withdrawn. -/
theorem manageQuote (symbol : ℤ) (side : Side) (targetPrice : ℤ) (shouldQuote : Bool) :
    Keeps (OfClient D) (OrderStrategy.manageQuote O symbol side.value targetPrice shouldQuote) := by
  refine h.atLook fun now ↦ keeps_dealing (fun _ _ _ hx ↦ hx) _ fun x hx ↦ ?_
  have hquoting : Keeps (fun q : Quoting ↦ E now q.client)
      (Quoting.manageQuote now side.value targetPrice shouldQuote) :=
    keeps_client_manageQuote
      (fun orderId symbol side quantity price flags _ hc ↦
        h.newOrder orderId symbol side quantity price flags hc)
      (fun orderId side quantity price c hc ↦
        h.idleThen (idle_modifyOrder orderId side quantity price c) hc)
      (fun orderId c hc ↦ h.idleThen (idle_deleteOrder orderId c) hc) side.value targetPrice
      shouldQuote
  rcases after_onQuoting symbol (Quoting.manageQuote now side.value targetPrice shouldQuote) x with
    ⟨-, heq⟩ | ⟨state, -, heq⟩
  · rw [heq]
    exact hx
  · rw [heq]
    exact ⟨hquoting (x.1.quoting state) hx.1, hx.2⟩

/-- A spoof is an order like any other, with its look at the clock. -/
theorem maybeSendSpoof (symbol side bb ba : ℤ) :
    Keeps (OfClient D) (OrderStrategy.maybeSendSpoof O symbol side bb ba) := by
  refine keeps_getStrategy.bind fun s ↦ ?_
  split
  · exact keeps_pure _
  dsimp only
  split
  · exact keeps_pure _
  have halloc : Keeps (OfClient D) (allocOrderId (ω := ω) symbol) := by
    intro x hx
    unfold allocOrderId
    rcases after_onQuoting symbol Quoting.allocOrderId x with ⟨-, heq⟩ | ⟨state, -, heq⟩
    · rwa [heq]
    · rw [heq]
      exact hx
  refine halloc.bind fun oid ↦ (h.newOrder_strategy _ _ _ _ _ _).bind fun responses ↦ ?_
  split
  · exact Keeps.bind (m := monotonic O) (fun _ hx ↦ h.moves (.monotonic _) hx) fun _ _ hx ↦ hx
  · exact keeps_pure _

/-- **Everything the strategy does** keeps it. -/
theorem runParts : KeptByRunParts O (OfClient D) where
  outside hmoves hx := h.moves hmoves hx
  read _ _ x hx := by
    unfold onManager
    rw [after_zoom]
    exact hx
  cancelActiveSpoofs := keeps_cancelActiveSpoofs (fun _ hx ↦ hx) h.deleteOrder
  cancelQuote := h.cancelQuote
  attempt := keeps_dealing (fun _ _ _ hx ↦ hx) _ (keeps_pure _)
  submitClosing symbol side quantity price :=
    Keeps.bind (m := nextFlattenOid) (fun _ hx ↦ hx) fun _ ↦
      ((h.newOrder_strategy _ _ _ _ _ _).bind fun _ ↦ keeps_pure _).tryCatch fun _ ↦ keeps_pure _
  finished hx := hx
  checkActiveSpoofs _ :=
    keeps_checkActiveSpoofs (fun hmoves hx ↦ h.moves hmoves hx) (fun _ hx ↦ hx) h.deleteOrder
  killed _ _ _ hx := hx
  stopped _ _ _ hx := hx
  maybeSendSpoof _ symbol side bb ba := h.maybeSendSpoof symbol side.value bb ba
  manageQuote _ := h.manageQuote
  cooldown _ _ _ _ hx := hx
  offer _ symbol side price :=
    Keeps.bind (m := ETFArbEngine.allocOid) (fun _ hx ↦ hx) fun _ ↦ h.newOrder_strategy _ _ _ _ _ _
  updatePosition _ _ symbol buyQty sellQty x hx :=
    have hidle : Idle x.1.client { x.1.client with
      positionTracker := x.1.client.positionTracker.updatePosition symbol buyQty sellQty } :=
      idle_of_eq rfl rfl rfl
    h.idle hidle hx
  suspend hx := hx
  enabled hx := hx
  reconnect := h.onClient idle_reconnect _

end KeptByClient

/-! ### No order goes around the check -/

/-- The limits, as an invariant of the client. -/
theorem ruled_keptByClient (rules : RiskTracker) :
    KeptByClient O (fun _ ↦ Ruled rules) (fun _ ↦ Ruled rules) where
  moves _ hc := hc
  idle hidle hc := hc.idle hidle
  looked hc := hc
  waited hc := hc
  idleThen hidle hc := hc.idle hidle
  newOrder _ _ _ _ _ _ hc := hc.newOrder _ _ _ _ _ _ _

/-- **No order goes around the risk check**: in every run of the strategy, each order was placed
within all the limits, as the client stood with it, and no more are open than there may be. -/
theorem cleared_runEvents (username password : List UInt8) (clientId pnlFloor positionCap : ℤ)
    (socket : Option Socket) (network : List (Option (List Arrival))) (calls : List Call)
    (config : OrderStrategyConfig) (outside : ω) (m : OrderBookManager) (events : List Event) :
    let c := (runEvents O events (.init
      (runCalls calls (init username password clientId pnlFloor positionCap socket network)) config
        outside, m)).1.client
    (∀ p ∈ c.record.trace, Cleared .init p) ∧
      c.openOrders.entries.length ≤ RiskTracker.init.maxUnackedOrders := by
  have hstart : Ruled .init (init username password clientId pnlFloor positionCap socket network) :=
    ⟨rfl, fun _ hp ↦ absurd hp List.not_mem_nil, Nat.zero_le _⟩
  have hruled := (ruled_keptByClient (O := O) .init).runParts.run (fun _ hx ↦ hx) events
    (x := (.init (runCalls calls _) config outside, m)) (ruled_runCalls calls hstart)
  exact ⟨hruled.cleared, hruled.open_le⟩

/-! ### Orders per second -/

/-- **The orders of a stretch of time**, which goes on with the clock. -/
theorem paced_keptByClient {time : ω → ℚ} (hO : Forward O time) (r : RiskTracker) (n : ℕ) (a : ℚ) :
    KeptByClient O (fun w ↦ Paced r n a (time w)) (Paced r n a) where
  moves hmoves hc := hc.later (hO.moves hmoves)
  idle hidle hc := hc.idle hidle
  looked hc := hc.later (hO.reading _).1
  waited hc := hc.later (hO.reading _).2
  idleThen hidle hc := hc.idle hidle
  newOrder _ _ _ _ _ _ hc := hc.newOrder le_rfl _ _ _ _ _ _

/-- **Orders per second**: from any state of the strategy, by a clock that does not go back, a run
that takes less than a second places at most twice the orders that the risk tracker allows in a
second. -/
theorem placements_runEvents {time : ω → ℚ} (hO : Forward O time) (events : List Event)
    (x : OrderStrategy ω × OrderBookManager)
    (hshort : time (runEvents O events x).1.outside - time x.1.outside < 1) :
    (runEvents O events x).1.client.placements ≤
      x.1.client.placements + 2 * x.1.client.riskTracker.maxOrdersPerSecond := by
  have hpaced := (paced_keptByClient hO x.1.client.riskTracker x.1.client.placements
    (time x.1.outside)).runParts.run (fun _ hx ↦ hx) events (x := x) (paced_start le_rfl _)
  exact hpaced.placements_le hshort

/-- A clock that moves on by a hundredth of a second at each look. -/
def slowly : Outside ℚ := { ticking with monotonic := fun w ↦ (w, w + 1 / 100) }

/-- This clock goes on. -/
theorem forward_slowly : Forward slowly id where
  reading w := ⟨le_rfl, (lt_add_of_pos_right w (by norm_num)).le⟩
  moves h := by
    cases h with
    | monotonic => exact (lt_add_of_pos_right _ (by norm_num)).le
    | _ => exact le_rfl

/-- A spoof is placed. -/
theorem placements_runEvents_slowly :
    (runEvents slowly [.marketDataUpdate] spoofing).1.client.placements = 1 ∧
      (runEvents slowly [.marketDataUpdate] spoofing).1.client.placements ≤ 0 + 2 * 30 := by
  refine ⟨by decide +kernel, ?_⟩
  exact placements_runEvents forward_slowly [.marketDataUpdate] spoofing (by decide +kernel)

end HftTrading.Strategy
