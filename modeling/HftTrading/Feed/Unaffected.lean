import HftTrading.Feed.Beside
import HftTrading.Feed.Once

/-!
# The strategy does not disturb the feed

The strategy works on the books that the feed keeps, in the middle of the loop that keeps them, and
may raise there. All that the feed relies on is that it only reads them (`ReadsOnly`). Then the feed
takes **each packet as it would without a strategy**, but for the heaps of the books, also one at
which the strategy loses its connection (`follows_handlePacket`), and so **all runs of the process
are runs of the feed alone**, on the packets that the channels have brought (`feed_unaffected`).

Two things have to be seen. One is that a read book is as good as one that has not been read, which
is a matter of the books alone (`Beside`). The other is the order of things within a packet: the
feed checks the number and dispatches the message before it tells the strategy anything. So whatever
is raised there comes when the feed is done with the packet, and what a later call goes through
again is skipped.
-/

namespace HftTrading

open MarketData Method

namespace World

variable {σ ε : Type} {S : StrategyMethods σ ε}

/-- A call on the strategy that does no more to the manager than to read its books. -/
def Reads (call : Method ε (σ × OrderBookManager) Unit) : Prop :=
  ∀ m', Keeps (fun x ↦ OrderBookManager.Beside x.2 m') call

/-- **What the feed relies on.** What `on_raw_message` raised would keep a message from the
books. -/
structure ReadsOnly (S : StrategyMethods σ ε) : Prop where
  returns : ∀ header body, Returns (S.onRawMessage header body)
  onRawMessage : ∀ header body, Reads (S.onRawMessage header body)
  onTradeSummary : ∀ body timestamp, Reads (S.onTradeSummary body timestamp)
  onMarketDataUpdate : Reads S.onMarketDataUpdate

/-- The body of a packet, if it has one. -/
def bodyOf (header : MDHeader) (packet : List UInt8) : MarketDataMessage :=
  match parseMessage packet with
  | .ok message => message.2
  | .error _ => .header header

/-- What parsing gives is the body of the packet. -/
theorem bodyOf_of_ok (header : MDHeader) {packet : List UInt8} {message : Message}
    (h : parseMessage packet = .ok message) : bodyOf header packet = message.2 := by
  rw [bodyOf, h]

/-- The feed alone returns from a call too, also if the strategy has raised, and comes to the same
but for the heaps. -/
def Follows (alone : EStateM.Result FeedError SnapShotSynchronizer Unit) {α : Type} :
    EStateM.Result (LoopError ε) (World σ) α → Prop
  | .ok _ w => ∃ z, alone = .ok () z ∧ SnapShotSynchronizer.Beside w.synchronizer z
  | .error (.strategy _) w => ∃ z, alone = .ok () z ∧ SnapShotSynchronizer.Beside w.synchronizer z
  | .error _ _ => True

/-- What is returned in the end makes no difference. -/
theorem follows_bind_pure {alone : EStateM.Result FeedError SnapShotSynchronizer Unit} {α β : Type}
    {m : LoopM ε σ α} {w : World σ} (h : Follows alone (m w)) (b : β) :
    Follows alone ((m >>= fun _ ↦ pure b : LoopM ε σ β) w) := by
  rcases hrun : m w with ⟨a, w'⟩ | ⟨e, w'⟩ <;> rw [hrun] at h
  · rw [bind_ok hrun]
    exact h
  · rw [bind_error hrun]
    cases e with
    | strategy e => exact h
    | parse e => exact trivial
    | feed e => exact trivial

section

variable {z : SnapShotSynchronizer} {w : World σ}

/-- A call on the synchronizer has like outcomes. -/
theorem onSynchronizer_cases {α : Type} {call : Method FeedError SnapShotSynchronizer α}
    (hcall : Agree SnapShotSynchronizer.Beside call call)
    (h : SnapShotSynchronizer.Beside w.synchronizer z) :
    (∃ a w' z', onSynchronizer call w = (.ok a w' : EStateM.Result (LoopError ε) (World σ) α) ∧
        call z = .ok a z' ∧ SnapShotSynchronizer.Beside w'.synchronizer z' ∧
        w'.strategy = w.strategy) ∨
      ∃ e w' z', onSynchronizer call w = (.error (.feed e) w' :
          EStateM.Result (LoopError ε) (World σ) α) ∧
        call z = .error e z' ∧ SnapShotSynchronizer.Beside w'.synchronizer z' ∧
        w'.strategy = w.strategy := by
  have halike := hcall w.synchronizer z h
  unfold onSynchronizer
  revert halike
  rcases call w.synchronizer with ⟨a, t⟩ | ⟨e, t⟩ <;> rcases call z with ⟨a', t'⟩ | ⟨e', t'⟩ <;>
    intro halike <;> cases halike
  · exact Or.inl ⟨a, _, _, rfl, rfl, ‹_›, rfl⟩
  · exact Or.inr ⟨e, _, _, rfl, rfl, ‹_›, rfl⟩

/-- A call on the strategy leaves the feed as it is, or raises an error of the strategy's. -/
theorem onStrategy_cases {call : Method ε (σ × OrderBookManager) Unit} (hcall : Reads call)
    (h : SnapShotSynchronizer.Beside w.synchronizer z) :
    (∃ w', onStrategy call w = .ok () w' ∧ SnapShotSynchronizer.Beside w'.synchronizer z) ∨
      ∃ e w', onStrategy call w = .error (.strategy e) w' ∧
        SnapShotSynchronizer.Beside w'.synchronizer z := by
  unfold onStrategy
  rcases w.strategy with - | s
  · exact Or.inl ⟨w, rfl, h⟩
  have hmanager : OrderBookManager.Beside w.synchronizer.bookManager z.bookManager := by
    obtain ⟨m, hz, hm⟩ := h
    rw [hz]
    exact hm
  have hafter := hcall z.bookManager (s, w.synchronizer.bookManager) hmanager
  unfold after at hafter
  dsimp only
  rcases hrun : call (s, w.synchronizer.bookManager) with ⟨a, s', m⟩ | ⟨e, s', m⟩ <;>
    rw [hrun] at hafter
  · exact Or.inl ⟨_, rfl, h.setManager hafter⟩
  · exact Or.inr ⟨e, _, rfl, h.setManager hafter⟩

/-- Telling the strategy of a message changes nothing that a message could tell. -/
theorem onRawMessage_ok (hS : ReadsOnly S) (header : MDHeader) (body : MarketDataMessage)
    (h : SnapShotSynchronizer.Beside w.synchronizer z) :
    ∃ w', onStrategy (S.onRawMessage header body) w = .ok () w' ∧
      SnapShotSynchronizer.Beside w'.synchronizer z := by
  refine (onStrategy_cases (hS.onRawMessage header body) h).resolve_right ?_
  rintro ⟨e, w', hrun, -⟩
  unfold onStrategy at hrun
  rcases hs : w.strategy with - | s <;> rw [hs] at hrun
  · cases hrun
  dsimp only at hrun
  rw [(hS.returns header body).ok] at hrun
  cases hrun

/-- What the strategy is told of a message, whatever it raises of it. -/
theorem updateStrategy_cases (hS : ReadsOnly S) (header : MDHeader) (body : MarketDataMessage)
    (h : SnapShotSynchronizer.Beside w.synchronizer z) :
    (∃ w', updateStrategy S header body w = .ok () w' ∧
        SnapShotSynchronizer.Beside w'.synchronizer z) ∨
      ∃ e w', updateStrategy S header body w = .error (.strategy e) w' ∧
        SnapShotSynchronizer.Beside w'.synchronizer z := by
  have hupdate : ∀ w : World σ, SnapShotSynchronizer.Beside w.synchronizer z →
      (∃ w', onStrategy S.onMarketDataUpdate w = .ok () w' ∧
          SnapShotSynchronizer.Beside w'.synchronizer z) ∨
        ∃ e w', onStrategy S.onMarketDataUpdate w = .error (.strategy e) w' ∧
          SnapShotSynchronizer.Beside w'.synchronizer z :=
    fun w h ↦ onStrategy_cases hS.onMarketDataUpdate h
  -- the calls as one, and then the handler
  obtain ⟨call, handle, hcall, hhandle, hcases⟩ :
      ∃ (call : LoopM ε σ Unit) (handle : LoopError ε → LoopM ε σ Unit),
        updateStrategy S header body = tryCatch call handle ∧
        (∀ e, handle (.strategy e) =
          if S.isConnectionError e then throw (.strategy e) else pure ()) ∧
        ((∃ w', call w = .ok () w' ∧ SnapShotSynchronizer.Beside w'.synchronizer z) ∨
          ∃ e w', call w = .error (.strategy e) w' ∧
            SnapShotSynchronizer.Beside w'.synchronizer z) := by
    refine ⟨_, _, rfl, fun _ ↦ rfl, ?_⟩
    cases body with
    | tradeSummary b =>
      rcases onStrategy_cases (hS.onTradeSummary b header.timestamp) h with
        ⟨w₁, hrun, h₁⟩ | ⟨e, w₁, hrun, h₁⟩
      · rcases hupdate w₁ h₁ with ⟨w', hrun', h'⟩ | ⟨e, w', hrun', h'⟩
        · exact Or.inl ⟨w', (bind_ok hrun).trans hrun', h'⟩
        · exact Or.inr ⟨e, w', (bind_ok hrun).trans hrun', h'⟩
      · exact Or.inr ⟨e, w₁, bind_error hrun, h₁⟩
    | _ => exact hupdate w h
  rw [hcall]
  rcases hcases with ⟨w', hrun, h'⟩ | ⟨e, w', hrun, h'⟩
  · exact Or.inl ⟨w', tryCatch_ok hrun _, h'⟩
  · rw [tryCatch_error hrun, hhandle]
    split
    · exact Or.inr ⟨e, w', rfl, h'⟩
    · exact Or.inl ⟨w', rfl, h'⟩

/-- Logging the books of the feed alone raises nothing, and nothing comes of it. -/
theorem logBooks_alone (h : SnapShotSynchronizer.Beside w.synchronizer z) :
    ∃ z', SnapShotSynchronizer.onManager OrderBookManager.logBooks z = .ok () z' ∧
      SnapShotSynchronizer.Beside w.synchronizer z' := by
  obtain ⟨m, hlog, -⟩ := OrderBookManager.logBooks_ok z.bookManager
  refine ⟨_, focus_ok hlog SnapShotSynchronizer.setManager z, ?_⟩
  obtain ⟨m₀, hz, hm₀⟩ := h
  refine ⟨m₀, hz, ?_⟩
  have hafter := OrderBookManager.Beside.logBooks z.bookManager hm₀.symm
  rw [after_ok hlog] at hafter
  exact hafter.symm

/-- Logging the books, with and without a strategy. -/
theorem logBooks_both (h : SnapShotSynchronizer.Beside w.synchronizer z) :
    ∃ w' z', onSynchronizer (SnapShotSynchronizer.onManager OrderBookManager.logBooks) w =
        (.ok () w' : EStateM.Result (LoopError ε) (World σ) Unit) ∧
      SnapShotSynchronizer.onManager OrderBookManager.logBooks z = .ok () z' ∧
        SnapShotSynchronizer.Beside w'.synchronizer z' := by
  obtain ⟨z', hz', -⟩ := logBooks_alone h
  rcases onSynchronizer_cases (ε := ε)
      (SnapShotSynchronizer.beside_onManager OrderBookManager.beside_logBooks) h with
    ⟨_, w₁, z₁, hw, hz, h₁, -⟩ | ⟨e, w₁, z₁, -, hz, -⟩
  · exact ⟨w₁, z₁, hw, hz, h₁⟩
  · cases hz'.symm.trans hz

/-- A message, past the check. -/
theorem follows_dispatch (hS : ReadsOnly S) (header : MDHeader) (body : MarketDataMessage)
    (h : SnapShotSynchronizer.Beside w.synchronizer z) :
    Follows ((do
        let dispatchedOk ← SnapShotSynchronizer.dispatchOrReset header body
        if dispatchedOk ∧ header.seqNum % 10000 = 0 then
          SnapShotSynchronizer.onManager OrderBookManager.logBooks :
        Method FeedError SnapShotSynchronizer Unit) z)
      ((do
        let dispatchedOk ← dispatchOrResync S header body
        if dispatchedOk then
          updateStrategy S header body
          if header.seqNum % 10000 = 0 then
            onSynchronizer (SnapShotSynchronizer.onManager OrderBookManager.logBooks)
          pure true
        else pure false : LoopM ε σ Bool) w) := by
  rcases onSynchronizer_cases (ε := ε) (SnapShotSynchronizer.beside_dispatch header body) h with
    ⟨_, w₁, z₁, hw, hz, h₁, -⟩ | ⟨e, w₁, z₁, hw, hz, h₁, -⟩
  · have hloop : dispatchOrResync S header body w = .ok true w₁ :=
      tryCatch_ok ((bind_ok hw).trans (pure_apply true w₁)) _
    have halone : SnapShotSynchronizer.dispatchOrReset header body z = .ok true z₁ :=
      tryCatch_ok ((bind_ok hz).trans (pure_apply true z₁)) _
    rw [bind_ok hloop, bind_ok halone]
    show Follows ((if true ∧ header.seqNum % 10000 = 0 then
        SnapShotSynchronizer.onManager OrderBookManager.logBooks else pure () :
        Method FeedError SnapShotSynchronizer Unit) z₁)
      ((updateStrategy S header body >>= fun _ ↦ do
        if header.seqNum % 10000 = 0 then
          onSynchronizer (SnapShotSynchronizer.onManager OrderBookManager.logBooks)
        pure true) w₁)
    by_cases hlog : header.seqNum % 10000 = 0
    · rw [if_pos ⟨rfl, hlog⟩]
      rcases updateStrategy_cases hS header body h₁ with ⟨w₂, hrun, h₂⟩ | ⟨e, w₂, hrun, h₂⟩
      · rw [bind_ok hrun, if_pos hlog]
        obtain ⟨w₃, z₃, hw₃, hz₃, h₃⟩ := logBooks_both (ε := ε) h₂
        rw [bind_ok hw₃]
        exact ⟨z₃, hz₃, h₃⟩
      · rw [bind_error hrun]
        exact logBooks_alone h₂
    · rw [if_neg fun h ↦ hlog h.2]
      rcases updateStrategy_cases hS header body h₁ with ⟨w₂, hrun, h₂⟩ | ⟨e, w₂, hrun, h₂⟩
      · rw [bind_ok hrun, if_neg hlog]
        exact ⟨z₁, rfl, h₂⟩
      · rw [bind_error hrun]
        exact ⟨z₁, rfl, h₂⟩
  · have hloop : dispatchOrResync S header body w = .ok false
        { w₁ with
          strategy := w₁.strategy.map S.suspend
          synchronizer := w₁.synchronizer.resetForResnap } := tryCatch_error (bind_error hw) _
    have halone : SnapShotSynchronizer.dispatchOrReset header body z =
        .ok false z₁.resetForResnap := tryCatch_error (bind_error hz) _
    rw [bind_ok hloop, bind_ok halone]
    exact ⟨_, rfl, h₁.resetForResnap⟩

/-- **A live packet in sync.** -/
theorem follows_handleLive (hS : ReadsOnly S) (header : MDHeader) (packet : List UInt8)
    (h : SnapShotSynchronizer.Beside w.synchronizer z) :
    Follows (SnapShotSynchronizer.processLive header (bodyOf header packet) z)
      (handleLive S header packet w) := by
  obtain ⟨m, hz, hm⟩ := h
  have htracker : w.synchronizer.seqTracker = z.seqTracker := by rw [hz]; rfl
  unfold handleLive SnapShotSynchronizer.processLive
  rw [bind_ok (get_apply w), bind_ok (get_apply z), htracker]
  rcases hcheck : z.seqTracker.check header.seqNum with ⟨- | -, warning, tracker⟩
  -- a repeat
  · exact ⟨z, rfl, m, hz, hm⟩
  dsimp only
  rw [bind_ok (modify_apply _ w), bind_ok (modify_apply _ z)]
  rcases hparse : parseMessage packet with e | ⟨header', body⟩
  · exact trivial
  rw [bodyOf_of_ok header hparse]
  -- the same message on both sides, past the check
  have hpast : SnapShotSynchronizer.Beside
      { w.synchronizer with
        seqTracker := tracker, gapWarnings := w.synchronizer.gapWarnings ++ warning.toList }
      { z with seqTracker := tracker, gapWarnings := z.gapWarnings ++ warning.toList } := by
    rw [hz]
    exact ⟨m, rfl, hm⟩
  obtain ⟨w₁, hraw, h₁⟩ := onRawMessage_ok hS header body (w := ⟨_, w.strategy⟩) hpast
  show Follows _ ((onStrategy (S.onRawMessage header body) >>= fun _ ↦ _) _)
  rw [bind_ok hraw]
  exact follows_dispatch hS header body h₁

/-- A snapshot packet out of sync. -/
theorem follows_handleSnapshot (S : StrategyMethods σ ε) (header : MDHeader) (packet : List UInt8)
    (h : SnapShotSynchronizer.Beside w.synchronizer z) :
    Follows ((do
        SnapShotSynchronizer.handleSnapshotMessage header (bodyOf header packet)
        let z ← get
        if z.snapComplete = true then
          SnapShotSynchronizer.replayBufferedMessages
          SnapShotSynchronizer.onManager OrderBookManager.logBooks :
        Method FeedError SnapShotSynchronizer Unit) z) (handleSnapshot S header packet w) := by
  unfold handleSnapshot
  rcases hparse : parseMessage packet with e | ⟨header', body⟩
  · exact trivial
  rw [bodyOf_of_ok header hparse]
  show Follows _ ((onSynchronizer (SnapShotSynchronizer.handleSnapshotMessage header body) >>=
    fun _ ↦ _) w)
  rcases onSynchronizer_cases (ε := ε)
      (SnapShotSynchronizer.beside_handleSnapshotMessage header body) h with
    ⟨_, w₁, z₁, hw, hz, h₁, -⟩ | ⟨e, w₁, z₁, hw, -, -, -⟩
  · rw [bind_ok hw, bind_ok (get_apply w₁), bind_ok hz, bind_ok (get_apply z₁)]
    have hcomplete : w₁.synchronizer.snapComplete = z₁.snapComplete := by
      obtain ⟨m, hz₁, -⟩ := h₁
      rw [hz₁]
      rfl
    rw [hcomplete]
    split
    · rcases onSynchronizer_cases (ε := ε)
          SnapShotSynchronizer.beside_replayBufferedMessages h₁ with
        ⟨_, w₂, z₂, hw, hz, h₂, -⟩ | ⟨e, w₂, z₂, hw, -, -, -⟩
      · rw [bind_ok hw, bind_ok hz]
        obtain ⟨w₃, z₃, hw₃, hz₃, h₃⟩ := logBooks_both (ε := ε) h₂
        rw [bind_ok hw₃, hz₃]
        exact ⟨z₃, rfl, h₃⟩
      · rw [bind_error hw]
        exact trivial
    · exact ⟨z₁, rfl, h₁⟩
  · rw [bind_error hw]
    exact trivial

/-- **Each packet** is taken as the feed takes it alone. -/
theorem follows_handlePacket (hS : ReadsOnly S) (header : MDHeader) (packet : List UInt8)
    (h : SnapShotSynchronizer.Beside w.synchronizer z) :
    Follows (SnapShotSynchronizer.processPacket header (bodyOf header packet) z)
      (handlePacket S header packet w) := by
  have hsync : w.synchronizer.sync = z.sync := by
    obtain ⟨m, hz, -⟩ := h
    rw [hz]
    rfl
  unfold handlePacket SnapShotSynchronizer.processPacket
  rw [bind_ok (get_apply w), bind_ok (get_apply z), hsync]
  split
  · split
    · rcases hparse : parseMessage packet with e | ⟨header', body⟩
      · exact trivial
      rw [bodyOf_of_ok header hparse]
      obtain ⟨m, hz, hm⟩ := h
      refine ⟨_, rfl, m, ?_, hm⟩
      show SnapShotSynchronizer.bufferLiveMessage header body w.synchronizer = _
      rw [hz]
      rfl
    · exact follows_handleLive hS header packet h
  split
  · exact follows_bind_pure (follows_handleSnapshot S header packet h) true
  · exact ⟨z, rfl, h⟩

end

end World

namespace Process

variable {σ ε : Type} {S : StrategyMethods σ ε} {lost : Method ε (σ × OrderBookManager) Unit}

/-- The packets among what a run has handled, as the feed takes them. -/
def eventsOf (items : List (Channel × Piece)) : List SnapShotSynchronizer.Event :=
  items.filterMap fun item ↦
    match item.2 with
    | .packet header bytes => some (.packet header (World.bodyOf header bytes))
    | .discard _ => none

/-- **What is handled packet by packet** is a run of the feed alone. -/
theorem follows_handles (hS : World.ReadsOnly S) (hlost : World.Reads lost) {w w' : World σ}
    {items : List (Channel × Piece)} (h : Handles S lost w items w') {z : SnapShotSynchronizer}
    (hz : SnapShotSynchronizer.Beside w.synchronizer z) :
    ∃ z', SnapShotSynchronizer.runEvents (eventsOf items) z = .ok () z' ∧
      SnapShotSynchronizer.Beside w'.synchronizer z' := by
  induction h generalizing z with
  | nil => exact ⟨z, rfl, hz⟩
  | @packet w w₁ w' items header bytes goOn c hrun _ ih =>
    have hfollows := World.follows_handlePacket hS header bytes hz
    rw [hrun] at hfollows
    obtain ⟨z₁, hz₁, h₁⟩ := hfollows
    obtain ⟨z', hz', h'⟩ := ih h₁
    exact ⟨z', (bind_ok hz₁).trans hz', h'⟩
  | @lost w w₁ w₂ w' items header bytes e c hrun he hseen _ ih =>
    have hfollows := World.follows_handlePacket hS header bytes hz
    rw [hrun] at hfollows
    cases e with
    | strategy e =>
      obtain ⟨z₁, hz₁, h₁⟩ := hfollows
      rcases World.onStrategy_cases hlost h₁ with ⟨w₃, hw₃, h₃⟩ | ⟨e', w₃, hw₃, -⟩
      · cases hseen.symm.trans hw₃
        obtain ⟨z', hz', h'⟩ := ih h₃
        exact ⟨z', (bind_ok hz₁).trans hz', h'⟩
      · cases hseen.symm.trans hw₃
    | parse e => cases he
    | feed e => cases he
  | discard bytes _ ih => exact ih hz

/-- **All runs of the process are runs of the feed alone**, on the packets that the channels have
brought, each of them once and in order, whatever the strategy does and whatever connections it
loses: all that the two differ in is what the heaps of the books have gathered. -/
theorem feed_unaffected (hS : World.ReadsOnly S) (hlost : World.Reads lost) {w : World σ}
    (hbooks : w.synchronizer.bookManager.Books) {events : List PollEvent} {p : Process σ}
    (h : Runs S lost (start w) events p) (hmarked : ∀ r ∈ p.reads, r.Marked) :
    ∃ (items : List (Channel × Piece)) (pending : Channel → List UInt8) (z : SnapShotSynchronizer),
      (∀ c, Cuts (received c events) (piecesOf c items) (pending c)) ∧
      SnapShotSynchronizer.runEvents (eventsOf items) w.synchronizer = .ok () z ∧
      SnapShotSynchronizer.Beside p.world.synchronizer z := by
  obtain ⟨items, pending, hprogress⟩ := progress_of_runs h hmarked
  obtain ⟨z, hz, hbeside⟩ := follows_handles hS hlost hprogress.handles (.refl hbooks)
  exact ⟨items, pending, z, hprogress.cuts, hz, hbeside⟩

end Process

end HftTrading
