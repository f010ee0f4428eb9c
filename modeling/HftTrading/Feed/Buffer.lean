import HftTrading.Feed.Handler
import HftTrading.Lib.Loop
import HftTrading.MarketData.Parser

/-!
# The packet loop

`_process_buffer`: the bytes that have arrived on a channel are cut into packets, packet by packet,
and each is handled on the spot; what is left at the end is moved to the front of the buffer, where
the next bytes are read behind it. The strategy is whatever has the methods the loop calls
(`StrategyMethods`), or there is none.

The loop goes on from the bytes that are left, and nothing in its text makes these fewer: a header
that announces a length of zero leaves them as they are. Parsing an empty packet raises, so the loop
stops all the same, except where a packet is skipped unparsed. **It ends exactly when it comes to no
such packet** (`processBuffer_ends_iff`).

How the bytes are cut into reads does not matter: **what two calls make of two pieces is what one
call makes of both** (`chunk_invariance`).
-/

namespace HftTrading

open MarketData Method

/-! ### What the loop works on -/

/-- What `_process_buffer` uses of a strategy. Its methods work on its own state and on the manager,
which it shares with the feed. -/
structure StrategyMethods (σ ε : Type) where
  /-- `enabled = False`, `_pending_flatten = True`. -/
  suspend : σ → σ
  /-- `if _pending_flatten: enabled = True`. -/
  resume : σ → σ
  onRawMessage : MDHeader → MarketDataMessage → Method ε (σ × OrderBookManager) Unit
  onTradeSummary : TradeSummary → ℕ → Method ε (σ × OrderBookManager) Unit
  onMarketDataUpdate : Method ε (σ × OrderBookManager) Unit
  isConnectionError : ε → Bool

/-- The feed, and the strategy if there is one. -/
structure World (σ : Type) where
  synchronizer : SnapShotSynchronizer
  strategy : Option σ

/-- What escapes the loop. -/
inductive LoopError (ε : Type)
  | parse (e : ParseError)
  | feed (e : FeedError)
  | strategy (e : ε)

namespace World

variable {σ ε α : Type}

/-- A method of the loop. -/
abbrev LoopM (ε σ α : Type) : Type := Method (LoopError ε) (World σ) α

/-- What parsing gives. -/
def parsed (x : Except ParseError α) : LoopM ε σ α :=
  match x with
  | .ok a => pure a
  | .error e => throw (.parse e)

/-- A call on the synchronizer. -/
def onSynchronizer (call : Method FeedError SnapShotSynchronizer α) : LoopM ε σ α := fun w ↦
  match call w.synchronizer with
  | .ok a z => .ok a { w with synchronizer := z }
  | .error e z => .error (.feed e) { w with synchronizer := z }

/-- A call on the strategy, if there is one. -/
def onStrategy (call : Method ε (σ × OrderBookManager) Unit) : LoopM ε σ Unit := fun w ↦
  match w.strategy with
  | none => .ok () w
  | some s =>
    match call (s, w.synchronizer.bookManager) with
    | .ok _ (s', m) => .ok () ⟨w.synchronizer.setManager m, some s'⟩
    | .error e (s', m) => .error (.strategy e) ⟨w.synchronizer.setManager m, some s'⟩

variable (S : StrategyMethods σ ε)

/-- Dispatch a message; a book error suspends the strategy and triggers a resync. The answer tells
which. -/
def dispatchOrResync (header : MDHeader) (body : MarketDataMessage) : LoopM ε σ Bool :=
  tryCatch (do onSynchronizer (SnapShotSynchronizer.dispatch header body); pure true) fun _ ↦ do
    modify fun w ↦
      { w with
        strategy := w.strategy.map S.suspend
        synchronizer := w.synchronizer.resetForResnap }
    pure false

/-- What the strategy is told of a message that has been dispatched. Of what it raises, only a lost
connection gets past the loop. -/
def updateStrategy (header : MDHeader) (body : MarketDataMessage) : LoopM ε σ Unit :=
  tryCatch (do
    match body with
    | .tradeSummary b => onStrategy (S.onTradeSummary b header.timestamp)
    | _ => pure ()
    onStrategy S.onMarketDataUpdate) fun e ↦
      match e with
      | .strategy e' => if S.isConnectionError e' then throw e else pure ()
      | _ => throw e

/-- The live branch while synced. The answer is whether the loop goes on. -/
def handleLive (header : MDHeader) (packet : List UInt8) : LoopM ε σ Bool := do
  let w ← get
  match w.synchronizer.seqTracker.check header.seqNum with
  | (false, _, _) => pure true
  | (true, warning, tracker) =>
    modify fun w ↦
      { w with synchronizer := { w.synchronizer with
        seqTracker := tracker, gapWarnings := w.synchronizer.gapWarnings ++ warning.toList } }
    let (_, body) ← parsed (parseMessage packet)
    onStrategy (S.onRawMessage header body)
    let dispatchedOk ← dispatchOrResync S header body
    if dispatchedOk then
      updateStrategy S header body
      if header.seqNum % 10000 = 0 then
        onSynchronizer (SnapShotSynchronizer.onManager OrderBookManager.logBooks)
      pure true
    else pure false

/-- The snapshot branch while not synced. -/
def handleSnapshot (header : MDHeader) (packet : List UInt8) : LoopM ε σ Unit := do
  let (_, body) ← parsed (parseMessage packet)
  onSynchronizer (SnapShotSynchronizer.handleSnapshotMessage header body)
  let w ← get
  if w.synchronizer.snapComplete = true then
    onSynchronizer SnapShotSynchronizer.replayBufferedMessages
    onSynchronizer (SnapShotSynchronizer.onManager OrderBookManager.logBooks)
    modify fun w ↦ { w with strategy := w.strategy.map S.resume }

/-- One packet. The magic number tells the live channel from the snapshot channel. -/
def handlePacket (header : MDHeader) (packet : List UInt8) : LoopM ε σ Bool := do
  let w ← get
  if header.magicNumber = MAGIC_NUMBER then
    if w.synchronizer.sync = false then
      let (_, body) ← parsed (parseMessage packet)
      onSynchronizer (modify (SnapShotSynchronizer.bufferLiveMessage header body))
      pure true
    else handleLive S header packet
  else if w.synchronizer.sync = false then
    handleSnapshot S header packet
    pure true
  else pure true

/-! ### The loop -/

/-- The header of the packet in front, if all of the packet has arrived. -/
def nextPacket (rest : List UInt8) : Except ParseError (Option MDHeader) :=
  if rest.length < MDHeader.STRUCT_SIZE then pure none
  else do
    let header ← MDHeader.ofData (rest.take MDHeader.STRUCT_SIZE)
    if rest.length < header.length then pure none else pure (some header)

/-- How the loop was left: with these bytes not consumed, and by a resync or not. -/
structure Stop where
  rest : List UInt8
  resync : Bool
  deriving DecidableEq

/-- One turn of the loop, on the bytes not consumed so far. -/
def turn (rest : List UInt8) : LoopM ε σ (Turn (List UInt8) Stop) := do
  match ← parsed (nextPacket rest) with
  | none => pure (.done ⟨rest, false⟩)
  | some header =>
    let goOn ← handlePacket S header (rest.take header.length)
    let rest' := rest.drop header.length
    if goOn then pure (.again rest') else pure (.done ⟨rest', true⟩)

end World

/-- A receive buffer, filled up to some length. -/
structure Buffer where
  bytes : List UInt8
  len : ℕ
  len_le : len ≤ bytes.length

namespace Buffer

/-- What has been received and not consumed. -/
def filled (b : Buffer) : List UInt8 := b.bytes.take b.len

/-- `buf[:remaining] = mv[pos : pos + remaining]`, unless there is nothing to move. -/
def compact (pos : ℕ) (b : Buffer) : Buffer where
  bytes :=
    let remaining := b.len - pos
    if remaining ≠ 0 ∧ pos ≠ 0 then (b.bytes.drop pos).take remaining ++ b.bytes.drop remaining
    else b.bytes
  len := b.len - pos
  len_le := by
    have h := b.len_le
    dsimp only
    split
    · rw [List.length_append, List.length_take, List.length_drop, List.length_drop]
      omega
    · omega

/-- `recv_into` behind what is there, for bytes that there is room for. -/
def recvInto (data : List UInt8) (b : Buffer) (h : b.len + data.length ≤ b.bytes.length) :
    Buffer where
  bytes := b.filled ++ data ++ b.bytes.drop (b.len + data.length)
  len := b.len + data.length
  len_le := by
    rw [List.length_append, List.length_append, List.length_drop, filled, List.length_take]
    omega

/-- What is filled has the length that is noted. -/
theorem length_filled (b : Buffer) : b.filled.length = b.len := by
  rw [filled, List.length_take]
  exact min_eq_left b.len_le

/-- **Compacting drops what has been consumed**, and nothing else. -/
theorem filled_compact (pos : ℕ) (b : Buffer) : (b.compact pos).filled = b.filled.drop pos := by
  rw [filled, filled, List.drop_take]
  unfold compact
  dsimp only
  split
  · have h := b.len_le
    exact List.take_left' (by rw [List.length_take, List.length_drop]; omega)
  · rename_i hmove
    rcases Nat.eq_zero_or_pos (b.len - pos) with hzero | hpos
    · rw [hzero, List.take_zero, List.take_zero]
    · obtain rfl : pos = 0 := by
        by_contra hne
        exact hmove ⟨hpos.ne', hne⟩
      rfl

/-- What is received stands behind what was filled. -/
theorem filled_recvInto (data : List UInt8) (b : Buffer)
    (h : b.len + data.length ≤ b.bytes.length) : (b.recvInto data h).filled = b.filled ++ data := by
  refine List.take_left' ?_
  rw [List.length_append, length_filled, recvInto]

end Buffer

namespace World

variable {σ ε : Type} (S : StrategyMethods σ ε)

/-- `_process_buffer`, for at most a number of turns. It returns the buffer with what remains in
front, and notes whether it was left by a resync. -/
def processBuffer (iterations : ℕ) (b : Buffer) (w : World σ) :
    Option (EStateM.Result (LoopError ε) (World σ) (Buffer × Bool)) :=
  (turns (turn S) iterations b.filled w).map fun
    | .ok stop w' => .ok (b.compact (b.len - stop.rest.length), stop.resync) w'
    | .error e w' => .error e w'

/-- What the call ends with does not depend on how many turns it is given. -/
theorem processBuffer_eq_some_iff {b : Buffer} {w : World σ}
    {r : EStateM.Result (LoopError ε) (World σ) (Buffer × Bool)} :
    (∃ n, processBuffer S n b w = some r) ↔
      ∃ r', Ends (turn S) b.filled w r' ∧ r = match r' with
        | .ok stop w' => .ok (b.compact (b.len - stop.rest.length), stop.resync) w'
        | .error e w' => .error e w' := by
  unfold processBuffer
  constructor
  · rintro ⟨n, hn⟩
    obtain ⟨r', hr', rfl⟩ := Option.map_eq_some_iff.1 hn
    exact ⟨r', ends_iff_exists_turns.2 ⟨n, hr'⟩, rfl⟩
  · rintro ⟨r', hr', rfl⟩
    obtain ⟨n, hn⟩ := ends_iff_exists_turns.1 hr'
    exact ⟨n, by rw [hn]; rfl⟩

/-- So two calls that return at all return the same. -/
theorem processBuffer_unique {n n' : ℕ} {b : Buffer} {w : World σ}
    {r r' : EStateM.Result (LoopError ε) (World σ) (Buffer × Bool)}
    (h : processBuffer S n b w = some r) (h' : processBuffer S n' b w = some r') : r = r' := by
  obtain ⟨q, hq, rfl⟩ := (processBuffer_eq_some_iff S).1 ⟨n, h⟩
  obtain ⟨q', hq', rfl⟩ := (processBuffer_eq_some_iff S).1 ⟨n', h'⟩
  rw [hq.unique hq']

/-! ### One turn -/

/-- There is a next packet exactly when a header and all that it announces have arrived. -/
theorem nextPacket_eq_some_iff {rest : List UInt8} {header : MDHeader} :
    nextPacket rest = .ok (some header) ↔ MDHeader.STRUCT_SIZE ≤ rest.length ∧
      MDHeader.ofData (rest.take MDHeader.STRUCT_SIZE) = .ok header ∧
      header.length ≤ rest.length := by
  unfold nextPacket
  split
  · constructor
    · intro h
      cases h
    · rintro ⟨h, -⟩
      omega
  · rw [MarketData.bind_eq_ok_iff]
    constructor
    · rintro ⟨header', hheader, h⟩
      split at h
      · cases h
      · cases h
        exact ⟨by omega, hheader, by omega⟩
    · rintro ⟨-, hheader, hlength⟩
      exact ⟨header, hheader, if_neg (by omega)⟩

section

variable {S} {rest : List UInt8} {w : World σ}

/-- With no packet there, the call returns what it was given. -/
theorem turn_of_none (h : nextPacket rest = .ok none) :
    turn S rest w = .ok (.done ⟨rest, false⟩) w := by
  unfold turn
  rw [h]
  rfl

/-- A header that does not parse is raised. -/
theorem turn_of_error {e : ParseError} (h : nextPacket rest = .error e) :
    turn S rest w = .error (.parse e) w := by
  unfold turn
  rw [h]
  rfl

/-- **What a turn does with a packet**: it handles the bytes that the header announces, and goes on
behind them or stops. -/
theorem turn_of_some {header : MDHeader} (h : nextPacket rest = .ok (some header)) :
    turn S rest w = match handlePacket S header (rest.take header.length) w with
      | .ok true w' => .ok (.again (rest.drop header.length)) w'
      | .ok false w' => .ok (.done ⟨rest.drop header.length, true⟩) w'
      | .error e w' => .error e w' := by
  unfold turn
  rw [h]
  show (handlePacket S header (rest.take header.length) >>= _) w = _
  rw [bind_apply]
  rcases handlePacket S header (rest.take header.length) w with ⟨- | -, w'⟩ | ⟨e, w'⟩ <;> rfl

end

/-! ### Packets that are skipped -/

/-- A packet the loop skips without parsing it: on the snapshot channel while synced, or a repeat on
the live channel. -/
def Skipped (header : MDHeader) (z : SnapShotSynchronizer) : Prop :=
  z.sync = true ∧ (header.magicNumber = MAGIC_NUMBER →
    ∃ expected, z.seqTracker.expectedSeq = some expected ∧ header.seqNum < expected)

theorem handlePacket_of_skipped {header : MDHeader} {w : World σ}
    (h : Skipped header w.synchronizer) (packet : List UInt8) :
    handlePacket S header packet w = .ok true w := by
  obtain ⟨hsync, hseq⟩ := h
  unfold handlePacket
  rw [bind_ok (get_apply w)]
  by_cases hmagic : header.magicNumber = MAGIC_NUMBER
  · obtain ⟨expected, hexpected, hlt⟩ := hseq hmagic
    rw [if_pos hmagic, if_neg (by rw [hsync]; exact Bool.false_ne_true.symm)]
    unfold handleLive
    rw [bind_ok (get_apply w), SequenceTracker.check, hexpected]
    dsimp only
    rw [if_pos hlt]
    rfl
  · rw [if_neg hmagic, if_neg (by rw [hsync]; exact Bool.false_ne_true.symm)]
    rfl

/-- Any other packet is parsed, so an empty one raises. -/
theorem skipped_of_handlePacket_nil {header : MDHeader} {w w' : World σ} {goOn : Bool}
    (h : handlePacket S header [] w = .ok goOn w') : Skipped header w.synchronizer := by
  have hparse {α : Type} (f : Message → LoopM ε σ α) (w : World σ) :
      (parsed (parseMessage []) >>= f) w = .error (.parse .shortData) w := rfl
  unfold handlePacket at h
  rw [bind_ok (get_apply w)] at h
  rcases hsync : w.synchronizer.sync with - | -
  · split at h
    · rw [hparse] at h
      cases h
    · have hsnap : handleSnapshot S header [] w = .error (.parse .shortData) w := hparse _ w
      rw [bind_error hsnap] at h
      cases h
  refine ⟨hsync, fun hmagic ↦ ?_⟩
  rw [if_pos hmagic, if_neg (by rw [hsync]; exact Bool.false_ne_true.symm)] at h
  unfold handleLive at h
  rw [bind_ok (get_apply w)] at h
  rcases hcheck : w.synchronizer.seqTracker.check header.seqNum with ⟨- | -, warning, tracker⟩
  · unfold SequenceTracker.check at hcheck
    split at hcheck
    · cases hcheck
    · rename_i expected hexpected
      refine ⟨expected, hexpected, ?_⟩
      by_contra hge
      rw [if_neg hge] at hcheck
      split at hcheck <;> cases hcheck
  · rw [hcheck] at h
    dsimp only at h
    rw [bind_ok (modify_apply _ w), hparse] at h
    cases h

/-- The packet in front is empty, and skipped. -/
def Stuck (rest : List UInt8) (w : World σ) : Prop :=
  ∃ header, nextPacket rest = .ok (some header) ∧ header.length = 0 ∧
    Skipped header w.synchronizer

/-- **Every turn makes progress**, except on a packet like that, where it changes nothing. -/
theorem turn_again {rest rest' : List UInt8} {w w' : World σ}
    (h : turn S rest w = .ok (.again rest') w') :
    rest'.length < rest.length ∧ ¬Stuck rest w ∨ (rest' = rest ∧ w' = w) ∧ Stuck rest w := by
  rcases hnext : nextPacket rest with e | - | header
  · rw [turn_of_error hnext] at h
    cases h
  · rw [turn_of_none hnext] at h
    cases h
  have hsize := (nextPacket_eq_some_iff.1 hnext).1
  have hpos : 0 < MDHeader.STRUCT_SIZE := by decide
  rw [turn_of_some hnext] at h
  rcases Nat.eq_zero_or_pos header.length with hzero | hlength
  · rw [hzero, List.take_zero, List.drop_zero] at h
    rcases hrun : handlePacket S header [] w with ⟨- | -, w₁⟩ | ⟨e, w₁⟩ <;> rw [hrun] at h
    · cases h
    · have hskip := skipped_of_handlePacket_nil S hrun
      rw [handlePacket_of_skipped S hskip] at hrun
      cases hrun
      cases h
      exact Or.inr ⟨⟨rfl, rfl⟩, header, hnext, hzero, hskip⟩
    · cases h
  · refine Or.inl ⟨?_, ?_⟩
    · split at h
      · cases h
        rw [List.length_drop]
        omega
      · cases h
      · cases h
    · rintro ⟨header', hnext', hzero, -⟩
      rw [hnext] at hnext'
      cases hnext'
      omega

/-- On an empty packet that is skipped, the turn comes back to where it was. -/
theorem turn_of_stuck {rest : List UInt8} {w : World σ} (h : Stuck rest w) :
    turn S rest w = .ok (.again rest) w := by
  obtain ⟨header, hnext, hzero, hskip⟩ := h
  rw [turn_of_some hnext, handlePacket_of_skipped S hskip, hzero]
  rfl

/-- **`_process_buffer` returns or raises exactly when it skips no empty packet.** -/
theorem processBuffer_ends_iff (b : Buffer) (w : World σ) :
    (∃ n r, processBuffer S n b w = some r) ↔
      ∀ rest w', Reaches (turn S) b.filled w rest w' → ¬Stuck rest w' := by
  have hends : (∃ n r, processBuffer S n b w = some r) ↔ ∃ r, Ends (turn S) b.filled w r := by
    constructor
    · rintro ⟨n, r, hn⟩
      obtain ⟨r', hr', -⟩ := (processBuffer_eq_some_iff S).1 ⟨n, hn⟩
      exact ⟨r', hr'⟩
    · rintro ⟨r, hr⟩
      obtain ⟨n, hn⟩ := (processBuffer_eq_some_iff S).2 ⟨r, hr, rfl⟩
      exact ⟨n, _, hn⟩
  rw [hends, exists_ends_iff List.length fun hturn ↦ (turn_again S hturn).imp And.left And.left]
  constructor
  · exact fun h rest w' hreaches hstuck ↦ h rest w' hreaches (turn_of_stuck S hstuck)
  · intro h rest w' hreaches hturn
    rcases turn_again S hturn with ⟨hlt, -⟩ | ⟨-, hstuck⟩
    · exact absurd hlt (lt_irrefl _)
    · exact h rest w' hreaches hstuck

/-- No strategy. -/
def noStrategy : StrategyMethods Empty Empty where
  suspend := id
  resume := id
  onRawMessage _ _ := pure ()
  onTradeSummary _ _ := pure ()
  onMarketDataUpdate := pure ()
  isConnectionError _ := false

/-- A synced feed that expects number 1, and no strategy. -/
def synced : World Empty where
  synchronizer := { SnapShotSynchronizer.start 1 with sync := true, seqTracker := ⟨some 1⟩ }
  strategy := none

/-- A buffer that holds exactly some bytes. -/
def holding (data : List UInt8) : Buffer := ⟨data, data.length, le_refl _⟩

/-- A header on the live channel that repeats number 0 and announces a length of zero. -/
def emptyRepeat : List UInt8 :=
  [0x47, 0x4F, 0x49, 0x52, 0x49, 0x53, 0x48, 0x21] ++ List.replicate 15 0

/-- **A repeat of length zero keeps the loop going forever.** -/
theorem emptyRepeat_never_ends :
    ¬∃ n r, processBuffer noStrategy n (holding emptyRepeat) synced = some r := by
  have hstuck : Stuck (holding emptyRepeat).filled synced :=
    ⟨⟨MAGIC_NUMBER, 0, 0, 0, .heartbeat⟩, rfl, rfl, rfl, fun _ ↦ ⟨1, rfl, by decide⟩⟩
  rintro ⟨n, r, hn⟩
  obtain ⟨r', hends, -⟩ := (processBuffer_eq_some_iff noStrategy).1 ⟨n, hn⟩
  exact not_ends_of_again_self (turn_of_stuck noStrategy hstuck) hends

/-! ### Cutting the bytes differently -/

section

variable {S} {a b : List UInt8} {w w' : World σ}

/-- More bytes behind do not change what the packet in front is. -/
theorem nextPacket_append {header : MDHeader} (h : nextPacket a = .ok (some header))
    (b : List UInt8) :
    nextPacket (a ++ b) = .ok (some header) ∧
      (a ++ b).take header.length = a.take header.length ∧
      (a ++ b).drop header.length = a.drop header.length ++ b := by
  obtain ⟨hsize, hheader, hlength⟩ := nextPacket_eq_some_iff.1 h
  refine ⟨nextPacket_eq_some_iff.2 ⟨?_, ?_, ?_⟩, List.take_append_of_le_length hlength,
    List.drop_append_of_le_length hlength⟩
  · rw [List.length_append]
    omega
  · rw [List.take_append_of_le_length hsize]
    exact hheader
  · rw [List.length_append]
    omega

/-- Nor do they repair a header that does not parse. -/
theorem nextPacket_append_error {e : ParseError} (h : nextPacket a = .error e) (b : List UInt8) :
    nextPacket (a ++ b) = .error e := by
  unfold nextPacket at h ⊢
  split at h
  · cases h
  rename_i hsize
  rw [List.length_append, if_neg (by omega), List.take_append_of_le_length (by omega)]
  rcases hheader : MDHeader.ofData (a.take MDHeader.STRUCT_SIZE) with e' | header
  · rw [hheader] at h
    exact h
  · rw [hheader] at h
    change (if a.length < header.length then _ else _) = _ at h
    split at h <;> cases h

/-- A turn that goes on has handled the packet in front. -/
theorem turn_again_iff {rest' : List UInt8} :
    turn S a w = .ok (.again rest') w' ↔ ∃ header, nextPacket a = .ok (some header) ∧
      handlePacket S header (a.take header.length) w = .ok true w' ∧
        rest' = a.drop header.length := by
  constructor
  · intro h
    rcases hnext : nextPacket a with e | - | header
    · rw [turn_of_error hnext] at h
      cases h
    · rw [turn_of_none hnext] at h
      cases h
    · rw [turn_of_some hnext] at h
      refine ⟨header, rfl, ?_⟩
      split at h
      · rename_i hrun
        cases h
        exact ⟨hrun, rfl⟩
      · cases h
      · cases h
  · rintro ⟨header, hnext, hrun, rfl⟩
    rw [turn_of_some hnext, hrun]

/-- A turn that stops, and not by a resync, waits for more bytes. -/
theorem turn_waiting {rest : List UInt8} (h : turn S a w = .ok (.done ⟨rest, false⟩) w') :
    nextPacket a = .ok none ∧ rest = a ∧ w' = w := by
  rcases hnext : nextPacket a with e | - | header
  · rw [turn_of_error hnext] at h
    cases h
  · rw [turn_of_none hnext] at h
    cases h
    exact ⟨rfl, rfl, rfl⟩
  · rw [turn_of_some hnext] at h
    split at h <;> cases h

/-- **One run over all of the bytes is two runs**: one over those in front, and one over what it
leaves and the rest. -/
theorem ends_append_iff {rest : List UInt8} :
    Ends (turn S) (a ++ b) w (.ok ⟨rest, false⟩ w') ↔
      ∃ rest₁ w₁, Ends (turn S) a w (.ok ⟨rest₁, false⟩ w₁) ∧
        Ends (turn S) (rest₁ ++ b) w₁ (.ok ⟨rest, false⟩ w') := by
  constructor
  · intro h
    generalize hx : a ++ b = x at h
    generalize hr : EStateM.Result.ok (⟨rest, false⟩ : Stop) w' = r at h
    induction h generalizing a with
    | again hturn hrest ih =>
      subst hx hr
      obtain ⟨header', hnext', hrun, rfl⟩ := turn_again_iff.1 hturn
      rcases hnext : nextPacket a with e | - | header
      · cases hnext'.symm.trans (nextPacket_append_error hnext b)
      -- the bytes in front hold no further packet: the first run stops here
      · exact ⟨a, _, .done (turn_of_none hnext), .again hturn hrest⟩
      · obtain ⟨hnextAll, htake, hdrop⟩ := nextPacket_append hnext b
        cases hnext'.symm.trans hnextAll
        obtain ⟨rest₁, w₁, hfirst, hsecond⟩ := ih hdrop.symm rfl
        exact ⟨rest₁, w₁, .again (turn_again_iff.2 ⟨_, hnext, htake ▸ hrun, rfl⟩) hfirst,
          hsecond⟩
    | done hturn =>
      subst hx
      cases hr
      rcases hnext : nextPacket a with e | - | header
      · cases (turn_waiting hturn).1.symm.trans (nextPacket_append_error hnext b)
      · exact ⟨a, _, .done (turn_of_none hnext), .done hturn⟩
      · cases (turn_waiting hturn).1.symm.trans (nextPacket_append hnext b).1
    | error => cases hr
  · rintro ⟨rest₁, w₁, hfirst, hsecond⟩
    generalize hr : EStateM.Result.ok (⟨rest₁, false⟩ : Stop) w₁ = r at hfirst
    induction hfirst with
    | again hturn hrest ih =>
      obtain ⟨header, hnext, hrun, rfl⟩ := turn_again_iff.1 hturn
      obtain ⟨hnextAll, htake, hdrop⟩ := nextPacket_append hnext b
      exact .again (turn_again_iff.2 ⟨header, hnextAll, htake ▸ hrun, hdrop.symm⟩) (ih hr)
    | done hturn =>
      cases hr
      obtain ⟨-, rfl, rfl⟩ := turn_waiting hturn
      exact hsecond
    | error => cases hr

/-- What is left is a tail of what there was. -/
theorem rest_suffix_of_ends {stop : Stop} (h : Ends (turn S) a w (.ok stop w')) :
    stop.rest = a.drop (a.length - stop.rest.length) := by
  suffices stop.rest <:+ a by exact (List.suffix_iff_eq_drop).1 this
  generalize hr : EStateM.Result.ok stop w' = r at h
  induction h with
  | again hturn _ ih =>
    obtain ⟨header, -, -, rfl⟩ := turn_again_iff.1 hturn
    exact (ih hr).trans (List.drop_suffix _ _)
  | @done a w w'' stop' hturn =>
    cases hr
    rcases hnext : nextPacket a with e | - | header
    · rw [turn_of_error hnext] at hturn
      cases hturn
    · rw [turn_of_none hnext] at hturn
      cases hturn
      exact List.suffix_rfl
    · rw [turn_of_some hnext] at hturn
      split at hturn <;> cases hturn
      exact List.drop_suffix _ _
  | error => cases hr

/-- The bytes from a packet boundary on. -/
inductive Boundary (data : List UInt8) : List UInt8 → Prop
  | start : Boundary data data
  | next {rest : List UInt8} {header : MDHeader} (hb : Boundary data rest)
      (hnext : nextPacket rest = .ok (some header)) : Boundary data (rest.drop header.length)

/-- Every packet is at least as long as a header. -/
def WellFramed (data : List UInt8) : Prop :=
  ∀ rest header, Boundary data rest → nextPacket rest = .ok (some header) →
    MDHeader.STRUCT_SIZE ≤ header.length

/-- The loop comes to packet boundaries only. -/
theorem boundary_of_reaches {data rest : List UInt8} (h : Reaches (turn S) data w rest w') :
    Boundary data rest := by
  suffices ∀ start, Boundary start data → Boundary start rest from this data .start
  induction h with
  | refl => exact fun _ hb ↦ hb
  | again hturn _ ih =>
    obtain ⟨header, hnext, -, rfl⟩ := turn_again_iff.1 hturn
    exact fun start hb ↦ ih start (hb.next hnext)

/-- Well-framed bytes are gone through, if nothing raises. -/
theorem exists_ends_of_wellFramed (hframed : WellFramed a) : ∃ r, Ends (turn S) a w r := by
  have hpos : 0 < MDHeader.STRUCT_SIZE := by decide
  refine (exists_ends_iff List.length fun hturn ↦ (turn_again S hturn).imp And.left And.left).2
    fun rest w' hreaches hturn ↦ ?_
  obtain ⟨header, hnext, -, hdrop⟩ := turn_again_iff.1 hturn
  have hlong := hframed rest header (boundary_of_reaches hreaches) hnext
  have hsize := (nextPacket_eq_some_iff.1 hnext).1
  have hlength := congrArg List.length hdrop
  rw [List.length_drop] at hlength
  omega

end

/-! ### The buffer between two calls -/

/-- A call that returns leaves the unconsumed tail in front of the buffer. -/
theorem filled_of_processBuffer {n : ℕ} {b b' : Buffer} {w w' : World σ} {resync : Bool}
    (h : processBuffer S n b w = some (.ok (b', resync) w')) :
    Ends (turn S) b.filled w (.ok ⟨b'.filled, resync⟩ w') ∧
      b'.filled = b.filled.drop (b.len - b'.len) ∧ b'.len ≤ b.len ∧
      b'.bytes.length = b.bytes.length := by
  obtain ⟨r', hends, hr⟩ := (processBuffer_eq_some_iff S).1 ⟨n, h⟩
  rcases r' with ⟨⟨rest, resync'⟩, w''⟩ | ⟨e, w''⟩
  · cases hr
    have hrest := rest_suffix_of_ends hends
    rw [Buffer.length_filled] at hrest
    have hfilled : (b.compact (b.len - rest.length)).filled = rest := by
      rw [Buffer.filled_compact]
      exact hrest.symm
    have hlen : rest.length ≤ b.len := by
      have h := congrArg List.length hrest
      rw [List.length_drop, Buffer.length_filled] at h
      exact h ▸ Nat.sub_le _ _
    have hlen' : (b.compact (b.len - rest.length)).len = rest.length := by
      show b.len - (b.len - rest.length) = _
      omega
    refine ⟨hfilled.symm ▸ hends, ?_, hlen'.le.trans hlen, ?_⟩
    · rw [hlen', hfilled]
      exact hrest
    · have hb := b.len_le
      unfold Buffer.compact
      dsimp only
      split
      · rw [List.length_append, List.length_take, List.length_drop, List.length_drop]
        omega
      · rfl
  · cases hr

/-- A call on well-framed bytes returns, unless it raises. -/
theorem exists_processBuffer (b : Buffer) (w : World σ) (hframed : WellFramed b.filled)
    (hraise : ∀ n e w', processBuffer S n b w ≠ some (.error e w')) :
    ∃ n b' resync w', processBuffer S n b w = some (.ok (b', resync) w') := by
  obtain ⟨r, hends⟩ := exists_ends_of_wellFramed (S := S) (w := w) hframed
  obtain ⟨n, hn⟩ := (processBuffer_eq_some_iff S).2 ⟨r, hends, rfl⟩
  rcases r with ⟨stop, w'⟩ | ⟨e, w'⟩
  · exact ⟨n, _, stop.resync, w', hn⟩
  · exact absurd hn (hraise n e w')

/-- What a run over the filled part ends with, the call returns. -/
theorem processBuffer_of_ends {b : Buffer} {w w' : World σ} {rest : List UInt8} {resync : Bool}
    (h : Ends (turn S) b.filled w (.ok ⟨rest, resync⟩ w')) :
    ∃ n b', processBuffer S n b w = some (.ok (b', resync) w') ∧ b'.filled = rest := by
  obtain ⟨n, hn⟩ := (processBuffer_eq_some_iff S).2 ⟨_, h, rfl⟩
  refine ⟨n, _, hn, ?_⟩
  have hends := (filled_of_processBuffer S hn).1.unique h
  simp only [EStateM.Result.ok.injEq, Stop.mk.injEq] at hends
  exact hends.1.1

/-- **How the bytes are cut into reads makes no difference.** One call on `a ++ b`, if nothing
raises and no book error triggers a resync, returns in some world with some bytes left. Then a call
on `a` returns too, leaving its unconsumed tail in front, and a second call, with `b` read in
behind that tail, returns in the same world with the same bytes left. -/
theorem chunk_invariance {a b : List UInt8} {w : World σ} {whole first : Buffer}
    (hwhole : whole.filled = a ++ b) (hfirst : first.filled = a)
    (hroom : first.len + b.length ≤ first.bytes.length) (hframed : WellFramed (a ++ b))
    (hraise : ∀ n e w', processBuffer S n whole w ≠ some (.error e w'))
    (hresync : ∀ n b' w', processBuffer S n whole w ≠ some (.ok (b', true) w')) :
    ∃ n whole' w', processBuffer S n whole w = some (.ok (whole', false) w') ∧
      whole'.filled = (a ++ b).drop ((a ++ b).length - whole'.len) ∧
      ∃ k first' w₁, processBuffer S k first w = some (.ok (first', false) w₁) ∧
        first'.filled = a.drop (a.length - first'.len) ∧
        ∃ (hroom' : first'.len + b.length ≤ first'.bytes.length) (m : ℕ) (second' : Buffer),
          processBuffer S m (first'.recvInto b hroom') w₁ = some (.ok (second', false) w') ∧
            second'.filled = whole'.filled := by
  obtain ⟨n, whole', resync, w', hn⟩ := exists_processBuffer S whole w (hwhole ▸ hframed) hraise
  rcases resync with - | -
  swap
  · exact absurd hn (hresync n whole' w')
  obtain ⟨hends, htail, -, -⟩ := filled_of_processBuffer S hn
  rw [hwhole] at hends htail
  rw [← Buffer.length_filled whole, hwhole] at htail
  obtain ⟨rest₁, w₁, hends₁, hends₂⟩ := ends_append_iff.1 hends
  rw [← hfirst] at hends₁
  obtain ⟨k, first', hk, hrest⟩ := processBuffer_of_ends S hends₁
  obtain ⟨-, htail₁, hlen₁, hbytes₁⟩ := filled_of_processBuffer S hk
  rw [← Buffer.length_filled first, hfirst] at htail₁
  have hroom' : first'.len + b.length ≤ first'.bytes.length := by omega
  rw [← hrest, ← Buffer.filled_recvInto b first' hroom'] at hends₂
  obtain ⟨m, second', hm, hsecond⟩ := processBuffer_of_ends S hends₂
  exact ⟨n, whole', w', hn, htail, k, first', w₁, hk, htail₁, hroom', m, second', hm, hsecond⟩

/-- A new feed that waits for one symbol, and no strategy. -/
def unsynced : World Empty := ⟨SnapShotSynchronizer.start 1, none⟩

/-- The first bytes of a heartbeat on the live channel. -/
def heartbeatFront : List UInt8 := [0x47, 0x4F, 0x49, 0x52, 0x49, 0x53, 0x48, 0x21, 23, 0]

/-- The other bytes of the heartbeat, with number 0, and the first one of the next packet. -/
def heartbeatBack : List UInt8 := List.replicate 13 0 ++ [0x47]

/-- The heartbeat is followed by less than a header. -/
theorem wellFramed_heartbeat : WellFramed (heartbeatFront ++ heartbeatBack) := by
  have hfirst : nextPacket (heartbeatFront ++ heartbeatBack) =
      .ok (some ⟨MAGIC_NUMBER, 23, 0, 0, .heartbeat⟩) := rfl
  have hsecond : nextPacket [0x47] = .ok none := rfl
  have hboundary {rest : List UInt8} (h : Boundary (heartbeatFront ++ heartbeatBack) rest) :
      rest = heartbeatFront ++ heartbeatBack ∨ rest = [0x47] := by
    induction h with
    | start => exact Or.inl rfl
    | next _ hnext ih =>
      rcases ih with rfl | rfl
      · cases hfirst.symm.trans hnext
        exact Or.inr rfl
      · cases hsecond.symm.trans hnext
  intro rest header hb hnext
  rcases hboundary hb with rfl | rfl
  · cases hfirst.symm.trans hnext
    decide
  · cases hsecond.symm.trans hnext

/-- Cut within the heartbeat, the first call handles nothing and the second all of it. -/
theorem chunk_invariance_heartbeat :
    ∃ n whole' w', processBuffer noStrategy n (holding (heartbeatFront ++ heartbeatBack)) unsynced =
        some (.ok (whole', false) w') ∧
      whole'.filled = (heartbeatFront ++ heartbeatBack).drop
        ((heartbeatFront ++ heartbeatBack).length - whole'.len) ∧
      ∃ k first' w₁, processBuffer noStrategy k
          ⟨heartbeatFront ++ heartbeatBack, 10, by decide⟩ unsynced =
            some (.ok (first', false) w₁) ∧
        first'.filled = heartbeatFront.drop (heartbeatFront.length - first'.len) ∧
        ∃ (hroom : first'.len + heartbeatBack.length ≤ first'.bytes.length) (m : ℕ)
          (second' : Buffer),
          processBuffer noStrategy m (first'.recvInto heartbeatBack hroom) w₁ =
              some (.ok (second', false) w') ∧
            second'.filled = whole'.filled := by
  obtain ⟨whole', w', hrun⟩ : ∃ whole' w',
      processBuffer noStrategy 2 (holding (heartbeatFront ++ heartbeatBack)) unsynced =
        some (.ok (whole', false) w') := ⟨_, _, rfl⟩
  refine chunk_invariance noStrategy rfl rfl (by decide) wellFramed_heartbeat
    (fun n e w'' h ↦ ?_) fun n b' w'' h ↦ ?_
  · cases processBuffer_unique noStrategy h hrun
  · cases processBuffer_unique noStrategy h hrun

end World

end HftTrading
