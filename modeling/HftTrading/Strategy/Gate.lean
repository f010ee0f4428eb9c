import HftTrading.OrderEntry.Sent
import HftTrading.Strategy.Steps

/-!
# Flat before trading

A book error suspends the strategy: `enabled` is cleared and `_pending_flatten` is set. A replay
and a reconnect enable it again, but leave `_pending_flatten` as it is, and as long as that is set
`on_market_data_update` does nothing but `go_flat`, which clears it at its very end. So whatever
messages, book errors, lost connections and exceptions come in between, **nothing but cancels and
`go_flat`'s own orders is sent until a `go_flat` has run to its end** (`flattens_before_trading`).

The packet loop is treated for any strategy: what its methods keep, a turn keeps (`Guards.turn`).

## Before and after a book error

The loop tells the strategy of a packet only while the feed is in sync, and the packet at which the
book error occurs is the last one it goes through. `Guards A B` is made for that: the methods keep
`A`, and whatever they do from `A` leaves at least `B`. With the suspension for `A`, a whole run
from the book error on is covered, since none of the methods that are called meanwhile leaves it
without a `go_flat` that has run to its end.

## What may be sent

The bytes on the connection are compared with those that were there at the book error
(`OnlyFlattening`). Each message since is a cancel or an immediate-or-cancel order under an id that
`go_flat` has drawn. The ids that it draws only go up, so an order stays one of these as more are
drawn.
-/

namespace HftTrading.World

open Method
open MarketData (MDHeader MarketDataMessage ParseError TradeSummary)

variable {σ ε α : Type} {S : StrategyMethods σ ε} {A B : σ → Prop}

/-- An assertion about the strategy, if there is one. -/
def Holds (A : σ → Prop) (w : World σ) : Prop := ∀ s ∈ w.strategy, A s

theorem Holds.mono (hAB : ∀ s, A s → B s) {w : World σ} (h : Holds A w) : Holds B w :=
  fun s hs ↦ hAB s (h s hs)

theorem holds_parsed (x : Except ParseError α) : Keeps (Holds A) (parsed (ε := ε) x) := by
  cases x with
  | ok a => exact keeps_pure _
  | error e => exact keeps_throw _

theorem holds_onSynchronizer (call : Method FeedError SnapShotSynchronizer α) :
    Keeps (Holds A) (onSynchronizer (ε := ε) call) := by
  intro w hw
  unfold after onSynchronizer
  rcases call w.synchronizer with ⟨a, z⟩ | ⟨e, z⟩
  · exact hw
  · exact hw

/-- A call on the strategy, by what it does to it, returned or raised. -/
theorem triple_onStrategy {call : Method ε (σ × OrderBookManager) Unit}
    (hcall : Triple (fun x ↦ A x.1) call (fun _ x ↦ B x.1) fun x ↦ B x.1) :
    Triple (Holds A) (onStrategy call) (fun _ ↦ Holds B) (Holds B) := by
  rintro ⟨z, strategy⟩ hw
  unfold onStrategy
  rcases strategy with - | s
  · exact fun s hs ↦ by cases hs
  have h := hcall (s, z.bookManager) (hw s rfl)
  dsimp only at h ⊢
  revert h
  rcases call (s, z.bookManager) with ⟨a, s', m⟩ | ⟨e, s', m⟩
  · exact fun h s hs ↦ Option.some.inj hs ▸ h
  · exact fun h s hs ↦ Option.some.inj hs ▸ h

theorem holds_onStrategy {call : Method ε (σ × OrderBookManager) Unit}
    (hcall : Keeps (fun x ↦ A x.1) call) : Keeps (Holds A) (onStrategy call) :=
  keeps_iff_triple.2 (triple_onStrategy (keeps_iff_triple.1 hcall))

/-- A change of the strategy that keeps it. -/
theorem holds_modify {f : σ → σ} (hf : ∀ s, A s → A (f s)) {w w' : World σ} (hw : Holds A w)
    (hstrategy : w'.strategy = w.strategy.map f) : Holds A w' := by
  intro s hs
  rw [hstrategy] at hs
  obtain ⟨s', hs', rfl⟩ := Option.map_eq_some_iff.1 hs
  exact hf s' (hw s' hs')

/-- What the methods of a strategy keep, up to the update, which may fall from `A` to `B`. -/
structure Guards (S : StrategyMethods σ ε) (A B : σ → Prop) : Prop where
  weaken : ∀ s, A s → B s
  suspend : ∀ s, A s → A (S.suspend s)
  resume : ∀ s, A s → A (S.resume s)
  onRawMessage : ∀ header body, Keeps (fun x ↦ A x.1) (S.onRawMessage header body)
  onTradeSummary : ∀ body timestamp, Keeps (fun x ↦ A x.1) (S.onTradeSummary body timestamp)
  onMarketDataUpdate :
    Triple (fun x ↦ A x.1) S.onMarketDataUpdate (fun _ x ↦ B x.1) fun x ↦ B x.1

namespace Guards

variable (h : Guards S A B)

include h

/-- What keeps a condition leaves the weaker one when it raises. -/
theorem keeps_triple {m : LoopM ε σ α} (hm : Keeps (Holds A) m) :
    Triple (Holds A) m (fun _ ↦ Holds A) (Holds B) :=
  (keeps_iff_triple.1 hm).weaken (fun _ hw ↦ hw) (fun _ _ hw ↦ hw) fun _ hw ↦ hw.mono h.weaken

/-- Dispatching a message suspends the strategy at the most. -/
theorem dispatchOrResync (header : MDHeader) (body : MarketDataMessage) :
    Keeps (Holds A) (dispatchOrResync S header body) := by
  refine Keeps.tryCatch ((holds_onSynchronizer _).bind fun _ ↦ keeps_pure _) fun _ ↦ ?_
  exact Keeps.bind (keeps_modify fun w hw ↦ holds_modify h.suspend hw rfl) fun _ ↦ keeps_pure _

theorem updateStrategy (header : MDHeader) (body : MarketDataMessage) :
    Triple (Holds A) (updateStrategy S header body) (fun _ ↦ Holds B) (Holds B) := by
  refine Triple.tryCatch (F := Holds B) ?_ fun e ↦ ?_
  · have hupdate := triple_onStrategy h.onMarketDataUpdate
    cases body with
    | tradeSummary b =>
      exact (h.keeps_triple (holds_onStrategy (h.onTradeSummary b header.timestamp))).bind
        fun _ ↦ hupdate
    | _ => exact hupdate
  · cases e with
    | strategy e' =>
      dsimp only
      split
      · exact triple_throw _ fun _ hw ↦ hw
      · exact triple_pure _ fun _ hw ↦ hw
    | _ => exact triple_throw _ fun _ hw ↦ hw

theorem handleLive (header : MDHeader) (packet : List UInt8) :
    Triple (Holds A) (handleLive S header packet) (fun _ ↦ Holds B) (Holds B) := by
  have hlog : Keeps (Holds B) (onSynchronizer (ε := ε) (σ := σ)
      (SnapShotSynchronizer.onManager OrderBookManager.logBooks)) := holds_onSynchronizer _
  refine triple_get fun w hw ↦ ?_
  rcases w.synchronizer.seqTracker.check header.seqNum with ⟨- | -, warning, tracker⟩
  · exact triple_pure _ fun _ hw' ↦ hw' ▸ hw.mono h.weaken
  refine Triple.bind (R := fun _ ↦ Holds A) (triple_modify fun w' hw' s hs ↦ ?_) fun _ ↦ ?_
  · exact hw s (by rw [← hw']; exact hs)
  refine (h.keeps_triple (holds_parsed _)).bind fun message ↦
    (h.keeps_triple (holds_onStrategy (h.onRawMessage header _))).bind fun _ ↦
      (h.keeps_triple (h.dispatchOrResync header _)).bind fun dispatchedOk ↦ ?_
  split
  · refine (h.updateStrategy header _).bind fun _ ↦ keeps_iff_triple.1 ?_
    split
    · exact hlog.bind fun _ ↦ keeps_pure _
    · exact keeps_pure _
  · exact triple_pure _ fun _ hw ↦ hw.mono h.weaken

theorem handleSnapshot (header : MDHeader) (packet : List UInt8) :
    Keeps (Holds A) (handleSnapshot S header packet) := by
  refine (holds_parsed _).bind fun message ↦ (holds_onSynchronizer _).bind fun _ ↦
    keeps_get.bind fun w ↦ ?_
  split
  · exact (holds_onSynchronizer _).bind fun _ ↦ (holds_onSynchronizer _).bind fun _ ↦
      keeps_modify fun w hw ↦ holds_modify h.resume hw rfl
  · exact keeps_pure _

/-- **A turn of the packet loop**, on any bytes. -/
theorem turn (rest : List UInt8) :
    Triple (Holds A) (turn S rest) (fun _ ↦ Holds B) (Holds B) := by
  have hpacket (header : MDHeader) (packet : List UInt8) :
      Triple (Holds A) (handlePacket S header packet) (fun _ ↦ Holds B) (Holds B) := by
    have hkeeps {m : LoopM ε σ Bool} (hm : Keeps (Holds A) m) :
        Triple (Holds A) m (fun _ ↦ Holds B) (Holds B) :=
      (h.keeps_triple hm).weaken (fun _ hw ↦ hw) (fun _ _ hw ↦ hw.mono h.weaken) fun _ hw ↦ hw
    refine triple_get fun w hw ↦ ?_
    refine (?_ : Triple (Holds A) _ (fun _ ↦ Holds B) (Holds B)).weaken (fun _ hw' ↦ hw' ▸ hw)
      (fun _ _ hw' ↦ hw') fun _ hw' ↦ hw'
    split
    · split
      · exact hkeeps ((holds_parsed _).bind fun _ ↦ (holds_onSynchronizer _).bind fun _ ↦
          keeps_pure _)
      · exact h.handleLive header packet
    · split
      · exact hkeeps ((h.handleSnapshot header packet).bind fun _ ↦ keeps_pure _)
      · exact hkeeps (keeps_pure _)
  refine (h.keeps_triple (holds_parsed _)).bind fun next ↦ ?_
  rcases next with - | header
  · exact triple_pure _ fun _ hw ↦ hw.mono h.weaken
  refine (hpacket header _).bind fun goOn ↦ ?_
  split
  · exact triple_pure _ fun _ hw ↦ hw
  · exact triple_pure _ fun _ hw ↦ hw

end Guards

/-! ### After a book error -/

/-- The strategy has just been suspended. -/
def Suspended (S : StrategyMethods σ ε) (w : World σ) : Prop :=
  Holds (fun s ↦ ∃ s₀, s = S.suspend s₀) w

/-- **A book error leaves the strategy suspended.** -/
theorem suspended_dispatchOrResync (header : MDHeader) (body : MarketDataMessage) :
    Triple (fun _ ↦ True) (dispatchOrResync S header body)
      (fun dispatchedOk w ↦ dispatchedOk = false → Suspended S w) fun _ ↦ True := by
  refine Triple.tryCatch (F := fun _ ↦ True) ?_ fun _ ↦ ?_
  · refine (triple_trivial _).bind fun _ ↦ triple_pure true fun _ _ h ↦ by cases h
  · refine Triple.bind (R := fun _ ↦ Suspended S) (triple_modify fun w _ s hs ↦ ?_) fun _ ↦
      triple_pure false fun _ hw _ ↦ hw
    obtain ⟨s₀, -, rfl⟩ := Option.map_eq_some_iff.1 hs
    exact ⟨s₀, rfl⟩

/-- So does the live branch that ends the loop. -/
theorem suspended_handleLive (header : MDHeader) (packet : List UInt8) :
    Triple (fun _ ↦ True) (handleLive S header packet)
      (fun goOn w ↦ goOn = false → Suspended S w) fun _ ↦ True := by
  refine triple_get fun w _ ↦ ?_
  rcases w.synchronizer.seqTracker.check header.seqNum with ⟨- | -, warning, tracker⟩
  · exact triple_pure true fun _ _ h ↦ by cases h
  refine Triple.bind (R := fun _ _ ↦ True) (triple_modify fun _ _ ↦ trivial) fun _ ↦
    (triple_trivial _).bind fun message ↦ (triple_trivial _).bind fun _ ↦
      (suspended_dispatchOrResync header _).bind fun dispatchedOk ↦ ?_
  rcases dispatchedOk with - | -
  · exact triple_pure false fun _ hw ↦ hw
  · refine Triple.bind (R := fun _ _ ↦ True)
      ((triple_trivial _).weaken (fun _ _ ↦ trivial) (fun _ _ h ↦ h) fun _ h ↦ h) fun _ ↦ ?_
    split
    · exact (triple_trivial _).bind fun _ ↦ triple_pure true fun _ _ h ↦ by cases h
    · exact triple_pure true fun _ _ h ↦ by cases h

theorem suspended_handlePacket (header : MDHeader) (packet : List UInt8) :
    Triple (fun _ ↦ True) (handlePacket S header packet)
      (fun goOn w ↦ goOn = false → Suspended S w) fun _ ↦ True := by
  have htrue {α : Type} (m : LoopM ε σ α) : Triple (fun _ ↦ True) (do let _ ← m; pure true)
      (fun goOn w ↦ goOn = false → Suspended S w) fun _ ↦ True :=
    (triple_trivial m).bind fun _ ↦ triple_pure true fun _ _ h ↦ by cases h
  refine triple_get fun w _ ↦ (?_ : Triple (fun _ ↦ True) _
    (fun goOn w ↦ goOn = false → Suspended S w) fun _ ↦ True).weaken
      (fun _ _ ↦ trivial) (fun _ _ hw ↦ hw) fun _ hw ↦ hw
  split
  · split
    · exact (triple_trivial _).bind fun message ↦ htrue _
    · exact suspended_handleLive header packet
  · split
    · exact htrue _
    · exact triple_pure true fun _ _ h ↦ by cases h

/-- **A turn that ends in a resync** has suspended the strategy. -/
theorem suspended_of_resync {rest rest' : List UInt8} {w w' : World σ}
    (h : turn S rest w = .ok (.done ⟨rest', true⟩) w') : Suspended S w' := by
  rcases hnext : nextPacket rest with e | - | header
  · rw [turn_of_error hnext] at h
    cases h
  · rw [turn_of_none hnext] at h
    cases h
  rw [turn_of_some hnext] at h
  have hpacket := suspended_handlePacket (S := S) header (rest.take header.length) w trivial
  revert h hpacket
  rcases handlePacket S header (rest.take header.length) w with ⟨- | -, w₁⟩ | ⟨e, w₁⟩
  · rintro h hpacket
    cases h
    exact hpacket rfl
  · intro h
    cases h
  · intro h
    cases h

end HftTrading.World

namespace HftTrading.Strategy

open OrderEntry Method OrderStrategy
open MarketData (MAGIC_NUMBER MDHeader MarketDataMessage encodeMessage)

variable {ω : Type} {O : Outside ω}

/-! ### The gate -/

/-- Unless `go_flat` has run to its end more than this many times, it still has to. -/
def Awaiting (k : ℕ) (s : OrderStrategy ω) : Prop :=
  k ≤ s.flattened ∧ (s.flattened = k → s.pendingFlatten = true)

/-- The flag and the count of `go_flat`s are all it is about. -/
theorem Awaiting.congr {k : ℕ} {s s' : OrderStrategy ω} (h : Awaiting k s)
    (hpending : s'.pendingFlatten = s.pendingFlatten) (hflattened : s'.flattened = s.flattened) :
    Awaiting k s' := by
  unfold Awaiting
  rw [hpending, hflattened]
  exact h

section

variable {α : Type} {k : ℕ}

/-- A dealing through the client leaves the gate alone. -/
theorem awaiting_onClient (task : OrderStrategy ω → Task) (call : OrderEntryClient.ClientM α) :
    Keeps (fun x : OrderStrategy ω × OrderBookManager ↦ Awaiting k x.1)
      (dealing task (onClient call)) := by
  refine keeps_dealing (fun _ _ _ hx ↦ hx.congr rfl rfl) _ fun x hx ↦ ?_
  rw [after_onClient]
  exact hx.congr rfl rfl

/-- A call on the quoting of a symbol touches neither. -/
theorem awaiting_onQuoting (symbol : ℤ) (call : Quoting.QuotingM α) :
    Keeps (fun x : OrderStrategy ω × OrderBookManager ↦ Awaiting k x.1)
      (onQuoting symbol call) := by
  intro x hx
  rcases after_onQuoting symbol call x with ⟨-, heq⟩ | ⟨state, -, heq⟩
  · rw [heq]
    exact hx
  · rw [heq]
    exact hx.congr rfl rfl

theorem awaiting_newOrder (orderId symbol side quantity price : ℤ) (flags : OrderFlags) :
    Keeps (fun x : OrderStrategy ω × OrderBookManager ↦ Awaiting k x.1)
      (newOrder O orderId symbol side quantity price flags) :=
  Keeps.bind (fun _ hx ↦ hx.congr rfl rfl) fun _ ↦ awaiting_onClient _ _

/-- **Only the end of a `go_flat` opens the gate.** -/
theorem awaiting_keptByRuns : KeptByRuns O fun x ↦ Awaiting k x.1 where
  outside _ hx := hx.congr rfl rfl
  books _ hx := hx
  spoofs _ hx := hx.congr rfl rfl
  deleteOrder _ := awaiting_onClient _ _
  cancelQuote symbol _ := keeps_dealing (fun _ _ _ hx ↦ hx.congr rfl rfl) _
    (awaiting_onQuoting symbol _)
  attempt := keeps_dealing (fun _ _ _ hx ↦ hx.congr rfl rfl) _ (keeps_pure _)
  submitClosing symbol side quantity price := Keeps.bind (m := nextFlattenOid)
    (fun _ hx ↦ hx.congr rfl rfl) fun oid ↦
    Keeps.tryCatch ((awaiting_newOrder oid symbol side quantity price .ioc).bind fun _ ↦
      keeps_pure _) fun _ ↦ keeps_pure _
  finished hx := ⟨Nat.le_succ_of_le hx.1, fun h ↦ absurd (h ▸ hx.1) (Nat.not_succ_le_self _)⟩
  killed _ _ _ hx := hx.congr rfl rfl
  stopped _ _ _ hx := hx.congr rfl rfl
  manageQuote _ symbol _ _ _ := Keeps.bind (m := monotonic O) (fun _ hx ↦ hx.congr rfl rfl) fun _ ↦
    keeps_dealing (fun _ _ _ hx ↦ hx.congr rfl rfl) _ (awaiting_onQuoting symbol _)
  allocOrderId _ symbol := awaiting_onQuoting symbol _
  newOrder _ := awaiting_newOrder
  cooldown _ _ _ _ hx := hx.congr rfl rfl
  allocOid _ := fun _ hx ↦ hx.congr rfl rfl
  updatePosition _ _ _ _ := fun _ hx ↦ hx.congr rfl rfl
  suspend hx := ⟨hx.1, fun _ ↦ rfl⟩
  enabled hx := hx.congr rfl rfl
  reconnect := awaiting_onClient _ _

end

/-! ### What `go_flat` sends -/

/-- A cancel, or a closing order under an id that `go_flat` has taken since its counter stood at
`first`. -/
def Flattening (first next : ℤ) (msg : List UInt8) : Prop :=
  IsCancel msg ∨ ∃ orderId, first ≤ orderId ∧ orderId < next ∧ IsIoc orderId msg

/-- Nothing but such messages has been sent since. -/
structure OnlyFlattening (first : ℤ) (before : List (List UInt8)) (s : OrderStrategy ω) : Prop where
  counter : first ≤ s.flattenOidCounter
  sent : OrderEntryClient.SentSince (Flattening first s.flattenOidCounter) before s.client

section

variable {first : ℤ} {before : List (List UInt8)}

/-- More ids may have been drawn since. -/
theorem Flattening.mono {next next' : ℤ} (h : next ≤ next') {msg : List UInt8}
    (hmsg : Flattening first next msg) : Flattening first next' msg := by
  rcases hmsg with hcancel | ⟨orderId, hfirst, hnext, hioc⟩
  · exact Or.inl hcancel
  · exact Or.inr ⟨orderId, hfirst, by omega, hioc⟩

/-- The client and the counter are all it is about. -/
theorem OnlyFlattening.congr {s s' : OrderStrategy ω} (h : OnlyFlattening first before s)
    (hclient : s'.client = s.client) (hcounter : s'.flattenOidCounter = s.flattenOidCounter) :
    OnlyFlattening first before s' := by
  refine ⟨by rw [hcounter]; exact h.counter, ?_⟩
  rw [hcounter, hclient]
  exact h.sent

/-- A call of the client that sends only such messages. -/
theorem onlyFlattening_onClient {α : Type} (task : OrderStrategy ω → Task)
    {call : OrderEntryClient.ClientM α} {next : ℤ}
    (hcall : Keeps (OrderEntryClient.SentSince (Flattening first next) before) call) :
    Keeps (fun x : OrderStrategy ω × OrderBookManager ↦ OnlyFlattening first before x.1 ∧
      x.1.flattenOidCounter = next) (dealing task (onClient call)) := by
  refine keeps_dealing (fun _ _ _ hx ↦ ⟨hx.1.congr rfl rfl, hx.2⟩) _ ?_
  rintro ⟨s, m⟩ ⟨hs, rfl⟩
  rw [after_onClient]
  exact ⟨⟨hs.counter, hcall _ hs.sent⟩, rfl⟩

/-- `go_flat` numbers its order, and sends it under that number or not at all. -/
theorem onlyFlattening_submitClosing (symbol side quantity price : ℤ) :
    Keeps (fun x : OrderStrategy ω × OrderBookManager ↦ OnlyFlattening first before x.1)
      (submitClosing O symbol side quantity price) := by
  rintro ⟨s, m⟩ hs
  have hcounter : nextFlattenOid (s, m) =
      .ok s.flattenOidCounter ({ s with flattenOidCounter := s.flattenOidCounter + 1 }, m) := rfl
  unfold submitClosing
  unfold after
  rw [bind_ok hcounter]
  have hnumbered : OnlyFlattening first before
      { s with flattenOidCounter := s.flattenOidCounter + 1 } := by
    obtain ⟨hfirst, new, hnew, hP⟩ := hs
    refine ⟨Int.le_add_one hfirst, new, hnew, fun msg hmsg ↦ (hP msg hmsg).mono ?_⟩
    exact Int.le_add_one (le_refl _)
  have hsend : Keeps (fun x : OrderStrategy ω × OrderBookManager ↦ OnlyFlattening first before x.1 ∧
      x.1.flattenOidCounter = s.flattenOidCounter + 1)
      (immediateOrCancel O s.flattenOidCounter symbol side quantity price) := by
    refine Keeps.bind (m := monotonic O) (fun _ hx ↦ ⟨hx.1.congr rfl rfl, hx.2⟩) fun now ↦
      onlyFlattening_onClient _ (OrderEntryClient.sent_newOrder (fun _ h ↦ Or.inl h) now ?_)
    intro header msg hmsg
    exact Or.inr ⟨_, hs.counter, Int.lt_succ _, _, hmsg, rfl, rfl⟩
  exact (((hsend.bind fun _ ↦ keeps_pure ()).tryCatch fun _ ↦ keeps_pure ()) _ ⟨hnumbered, rfl⟩).1

/-- **Without trading, only such messages are sent.** -/
theorem onlyFlattening_kept :
    Kept O False fun x ↦ OnlyFlattening first before x.1 where
  outside _ hx := hx.congr rfl rfl
  books _ hx := hx
  spoofs _ hx := hx.congr rfl rfl
  deleteOrder orderId := fun x hx ↦ (onlyFlattening_onClient _
    (OrderEntryClient.sent_deleteOrder (fun _ h ↦ Or.inl h) orderId) x ⟨hx, rfl⟩).1
  cancelQuote symbol side := by
    refine keeps_dealing (fun _ _ _ hx ↦ hx.congr rfl rfl) _ fun x hx ↦ ?_
    have hcall : Keeps (fun q : Quoting ↦ OrderEntryClient.SentSince
        (Flattening first x.1.flattenOidCounter) before q.client)
        (Quoting.cancelQuote side.value) :=
      keeps_client_cancelQuote (OrderEntryClient.sent_deleteOrder fun _ h ↦ Or.inl h) side.value
    rcases after_onQuoting symbol (Quoting.cancelQuote side.value) x with ⟨-, heq⟩ | ⟨state, -, heq⟩
    · rw [heq]
      exact hx
    · rw [heq]
      exact ⟨hx.counter, hcall _ hx.sent⟩
  attempt := keeps_dealing (fun _ _ _ hx ↦ hx.congr rfl rfl) _ (keeps_pure _)
  submitClosing := onlyFlattening_submitClosing
  finished hx := hx.congr rfl rfl
  killed h := h.elim
  stopped h := h.elim
  manageQuote h := h.elim
  allocOrderId h := h.elim
  newOrder h := h.elim
  cooldown h := h.elim
  allocOid h := h.elim
  updatePosition h := h.elim

/-- **While flattening is pending**, an update of the market sends nothing else. -/
theorem onlyFlattening_onMarketDataUpdate :
    Triple (fun x : OrderStrategy ω × OrderBookManager ↦ x.1.pendingFlatten = true ∧
      OnlyFlattening first before x.1) (onMarketDataUpdate O)
      (fun _ x ↦ OnlyFlattening first before x.1) fun x ↦ OnlyFlattening first before x.1 := by
  rintro ⟨s, m⟩ ⟨hpending, hs⟩
  have hkeeps := keeps_iff_triple.1 (onlyFlattening_kept (O := O)).goFlat (s, m) hs
  have hstart : getStrategy (s, m) = .ok s (s, m) := rfl
  rcases hoff : (!s.enabled || s.killed) with - | -
  · have hrun : onMarketDataUpdate O (s, m) = goFlat O (s, m) := by
      unfold onMarketDataUpdate
      rw [bind_ok hstart, if_neg (by rw [hoff]; exact Bool.false_ne_true), if_pos hpending]
    rw [hrun]
    exact hkeeps
  · have hrun : onMarketDataUpdate O (s, m) = .ok () (s, m) := by
      unfold onMarketDataUpdate
      rw [bind_ok hstart, if_pos hoff]
      rfl
    rw [hrun]
    exact hs

end

/-! ### Runs of the market data process -/

/-- What happens to `run_market_data`: a turn of `_process_buffer` on what a buffer holds, or the
handling of a `ConnectionError`. -/
inductive LoopEvent
  | turn (rest : List UInt8)
  | connectionLost

/-- What it does. -/
def LoopEvent.method (O : Outside ω) :
    LoopEvent → World.LoopM StrategyError (OrderStrategy ω) Unit
  | .turn rest => do
    let _ ← World.turn (methods O) rest
  | .connectionLost => World.onStrategy OrderStrategy.connectionLost

/-- The state after a run, which goes on whatever is raised. -/
def runLoop (O : Outside ω) (events : List LoopEvent) (w : World (OrderStrategy ω)) :
    World (OrderStrategy ω) := Method.run (events.map (LoopEvent.method O)) w

/-- The methods of the strategy, as to the flag. -/
theorem guards_awaiting {k : ℕ} : World.Guards (methods O) (Awaiting k) (Awaiting k) where
  weaken _ hs := hs
  suspend _ hs := ⟨hs.1, fun _ ↦ rfl⟩
  resume s hs := by
    show Awaiting k s.resume
    unfold resume
    split
    · exact hs
    · exact hs
  onRawMessage _ _ := fun _ hx ↦ hx.congr rfl rfl
  onTradeSummary _ _ := fun _ hx ↦ hx.congr rfl rfl
  onMarketDataUpdate := keeps_iff_triple.1 (awaiting_keptByRuns.onMarketDataUpdate trivial)

/-- **A run** does not open the gate either, unless a `go_flat` has run to its end. -/
theorem awaiting_runLoop {k : ℕ} (events : List LoopEvent) {w : World (OrderStrategy ω)}
    (hw : World.Holds (Awaiting k) w) : World.Holds (Awaiting k) (runLoop O events w) := by
  refine run_keeps (fun m hm ↦ ?_) hw
  obtain ⟨event, -, rfl⟩ := List.mem_map.1 hm
  cases event with
  | turn rest => exact (keeps_iff_triple.2 (guards_awaiting.turn rest)).bind fun _ ↦ keeps_pure _
  | connectionLost =>
    exact World.holds_onStrategy (awaiting_keptByRuns (O := O)).connectionLost

/-- And as to what they send while it is set. -/
theorem guards_flattening {first : ℤ} {before : List (List UInt8)} :
    World.Guards (methods O)
      (fun s ↦ s.pendingFlatten = true ∧ OnlyFlattening first before s)
      (OnlyFlattening first before) where
  weaken _ hs := hs.2
  suspend _ hs := ⟨rfl, hs.2.congr rfl rfl⟩
  resume s hs := by
    show s.resume.pendingFlatten = true ∧ OnlyFlattening _ _ s.resume
    unfold resume
    rw [if_pos hs.1]
    exact ⟨hs.1, hs.2.congr rfl rfl⟩
  onRawMessage _ _ := fun _ hx ↦ ⟨hx.1, hx.2.congr rfl rfl⟩
  onTradeSummary _ _ := fun _ hx ↦ ⟨hx.1, hx.2.congr rfl rfl⟩
  onMarketDataUpdate := onlyFlattening_onMarketDataUpdate

/-- **Flat before trading**: after a turn that ends in a resync, and until a `go_flat` has run to
its end, a turn sends nothing but cancels and the orders of `go_flat`. -/
theorem flattens_before_trading {w w₁ : World (OrderStrategy ω)} {rest rest' : List UInt8}
    (hresync : World.turn (methods O) rest w = .ok (.done ⟨rest', true⟩) w₁)
    {s₁ s₂ s₃ : OrderStrategy ω} (h₁ : w₁.strategy = some s₁) (events : List LoopEvent)
    (h₂ : (runLoop O events w₁).strategy = some s₂) (hflattened : s₂.flattened = s₁.flattened)
    (next : List UInt8)
    (h₃ : ((World.turn (methods O) next).after (runLoop O events w₁)).strategy = some s₃) :
    OrderEntryClient.SentSince (Flattening s₂.flattenOidCounter s₃.flattenOidCounter)
      s₂.client.sent s₃.client := by
  have hsuspended : s₁.pendingFlatten = true := by
    obtain ⟨s₀, rfl⟩ := World.suspended_of_resync hresync s₁ h₁
    rfl
  have hawaiting : World.Holds (Awaiting s₁.flattened) w₁ := by
    intro s hs
    obtain rfl := Option.some.inj (h₁.symm.trans hs)
    exact ⟨le_refl _, fun _ ↦ hsuspended⟩
  have hpending : s₂.pendingFlatten = true :=
    (awaiting_runLoop events hawaiting s₂ h₂).2 hflattened
  have hstart : World.Holds (fun s ↦ s.pendingFlatten = true ∧
      OnlyFlattening s₂.flattenOidCounter s₂.client.sent s) (runLoop O events w₁) := by
    intro s hs
    obtain rfl := Option.some.inj (h₂.symm.trans hs)
    exact ⟨hpending, le_refl _, .refl _ _⟩
  have hturn := (guards_flattening (O := O)).turn next (runLoop O events w₁) hstart
  rcases hrun : World.turn (methods O) next (runLoop O events w₁) with ⟨a, w₃⟩ | ⟨e, w₃⟩
  · rw [after_ok hrun] at h₃
    rw [hrun] at hturn
    exact (hturn s₃ h₃).sent
  · rw [after_error hrun] at h₃
    rw [hrun] at hturn
    exact (hturn s₃ h₃).sent

/-- Nothing happens outside, and the clock stands still. -/
def idle : Outside Unit where
  monotonic w := (0, w)
  attempts _ := 1
  signals _ _ _ _ _ w := (none, w)
  onRawMessage _ _ _ w := w
  onTradeSummary _ _ w := w
  post _ w := (.otherException, w)

/-- The packet of a message. -/
def packet (magic seqNum : ℕ) (body : MarketDataMessage) : List UInt8 :=
  (encodeMessage (⟨magic, MDHeader.STRUCT_SIZE + body.bodySize, seqNum, 0, body.msgType⟩,
    body)).getD []

/-- What arrives on the second connection: the login is accepted; the quote that is cancelled is
closed; the closing order is filled at once. -/
def secondConnection : List Arrival :=
  Arrival.burst [.loginResponse ⟨⟨25, 100, 1, 1, 1, 7⟩, 77, 0⟩] ++ [.pause] ++
    Arrival.burst [.closed ⟨⟨24, 104, 1, 2, 1, 7⟩, 100000⟩] ++ [.pause] ++
    Arrival.burst [.ack ⟨⟨40, 101, 1, 3, 2, 7⟩, 15000000, 901, 5, 100⟩,
      .fill ⟨⟨33, 103, 1, 4, 2, 7⟩, 15000000, 5, 100, 1⟩]

/-- A synced feed that expects number 1, and a strategy that is long five in symbol 1 and quotes a
bid there. -/
def longAndQuoting : World (OrderStrategy Unit) where
  synchronizer := World.synced.synchronizer
  strategy := some
    { OrderStrategy.init
        { OrderEntryClient.init [] [] 7 (-20000) 10 (some (.connected []))
            [some secondConnection] with
          positionTracker := PositionTracker.init.updatePosition 1 5 0 } { symbols := [1] } () with
      state := Dict.empty.insert 1 ⟨1, 10, some 100000, none, 90, 0, 100001, rfl⟩ }

/-- Number 1 on the live channel, a trade of an order that the books do not have. -/
def unknownTrade : List UInt8 := packet MAGIC_NUMBER 1 (.trade ⟨7, 1, 100⟩)

/-- The connection is lost and set up again, and the feed recovers: number 2 is buffered, and the
snapshot of the only symbol arrives, a buy. -/
def recovery : List LoopEvent :=
  [.connectionLost, .turn (packet MAGIC_NUMBER 2 (.newOrder ⟨8, 1, .sell, 5, 110, 0⟩)),
    .turn (packet 0 0 (.snapshotInfo ⟨1, 1, 0, 1⟩)),
    .turn (packet 0 0 (.newOrder ⟨7, 1, .buy, 10, 100, 0⟩))]

/-- Number 3. -/
def liveAgain : List UInt8 := packet MAGIC_NUMBER 3 (.newOrder ⟨9, 1, .buy, 1, 95, 0⟩)

/-- The first update after the recovery cancels the bid and sells the five, and they are sold. -/
theorem flattens_before_trading_liveAgain :
    let w₁ := (World.turn (methods idle) unknownTrade).after longAndQuoting
    let w₂ := runLoop idle recovery w₁
    let w₃ := (World.turn (methods idle) liveAgain).after w₂
    ∃ s₂ s₃, w₂.strategy = some s₂ ∧ w₃.strategy = some s₃ ∧
      s₃.client.sent.length = s₂.client.sent.length + 2 ∧
      s₃.client.positionTracker.getPosition 1 = 0 ∧
      OrderEntryClient.SentSince (Flattening s₂.flattenOidCounter s₃.flattenOidCounter)
        s₂.client.sent s₃.client := by
  intro w₁ w₂ w₃
  obtain ⟨w, hresync⟩ := value?_eq_some_iff.1
    (show (World.turn (methods idle) unknownTrade).value? longAndQuoting =
      some (.done ⟨[], true⟩) by decide +kernel)
  obtain rfl : w₁ = w := after_ok hresync
  obtain ⟨s₁, h₁, hflattened₁⟩ := Option.map_eq_some_iff.1
    (show w₁.strategy.map (fun s ↦ s.flattened) = some 0 by decide +kernel)
  obtain ⟨s₂, h₂, hs₂⟩ := Option.map_eq_some_iff.1
    (show w₂.strategy.map (fun s ↦ (s.flattened, s.client.sent.length)) = some (0, 1)
      by decide +kernel)
  obtain ⟨s₃, h₃, hs₃⟩ := Option.map_eq_some_iff.1
    (show w₃.strategy.map (fun s ↦
      (s.client.sent.length, s.client.positionTracker.getPosition 1)) = some (3, 0)
      by decide +kernel)
  obtain ⟨hflattened₂, hsent₂⟩ := Prod.mk.inj hs₂
  obtain ⟨hsent₃, hflat⟩ := Prod.mk.inj hs₃
  exact ⟨s₂, s₃, h₂, h₃, by rw [hsent₂, hsent₃], hflat, flattens_before_trading hresync h₁ recovery
    h₂ (hflattened₂.trans hflattened₁.symm) liveAgain h₃⟩

end HftTrading.Strategy
