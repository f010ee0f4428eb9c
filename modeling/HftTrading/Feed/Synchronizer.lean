import HftTrading.Book.Manager
import Mathlib.Data.Finset.Card
import Mathlib.Data.List.Sort

/-!
# Snapshot recovery

`SequenceTracker` and `SnapShotSynchronizer`, with `dispatch_live_message`, as the source writes
them. The synchronizer holds the manager and the tracker it works on, so its state is the state of
the whole feed side.

Two fields are records and not state: `dispatched`, the sequence numbers handed to the manager, and
`gapWarnings`, the gaps logged as warnings, both since the last reset. No operation reads them; they
are what the statements about runs speak of.

## The three phases

Out of sync, live messages are buffered and the snapshot messages fill the books, symbol by symbol,
until every symbol is complete and the buffer reaches back far enough. Replay then goes through the
buffer and brings the feed into sync, or finds the buffer short and starts over. In sync, each live
message is checked against the tracker and dispatched.

## What the operations come to

Replay has a description without its loop: what it dispatches is `toReplay`, a filter of the sorted
buffer, and what it leaves is `goLive` of whatever these messages leave of the manager
(`replayBufferedMessages_eq_ok_iff`). The two snapshot handlers come with the list of what they can
leave. A call on the manager inside the synchronizer is `onManager`, which touches nothing else; a
condition that is not about the manager survives it without any proof of its own
(`keeps_onManager`).
-/

namespace HftTrading

open MarketData

/-- `SequenceTracker`. -/
structure SequenceTracker where
  expectedSeq : Option ℕ
  deriving DecidableEq

/-- A gap that was logged and gone over: the numbers from `expected` up to but not including
`got`. -/
structure GapWarning where
  expected : ℕ
  got : ℕ
  deriving DecidableEq

namespace SequenceTracker

/-- `SequenceTracker.__init__`. -/
def init : SequenceTracker := ⟨none⟩

/-- `check`: the answer, the gap it logs, and the tracker afterwards. -/
def check (seqNum : ℕ) (t : SequenceTracker) : Bool × Option GapWarning × SequenceTracker :=
  match t.expectedSeq with
  | none => (true, none, ⟨some (seqNum + 1)⟩)
  | some expected =>
    if seqNum < expected then (false, none, t)
    else if seqNum ≠ expected then (true, some ⟨expected, seqNum⟩, ⟨some (seqNum + 1)⟩)
    else (true, none, ⟨some (seqNum + 1)⟩)

end SequenceTracker

/-- `dispatch_live_message`. Heartbeats and unknown messages are only logged. -/
def dispatchLiveMessage (header : MDHeader) (body : MarketDataMessage) :
    Method FeedError OrderBookManager Unit :=
  match header.msgType, body with
  | .newOrder, .newOrder b =>
    OrderBookManager.processNewOrder header.seqNum header.timestamp b.orderId b.symbol b.side
      b.quantity b.price b.flags
  | .deleteOrder, .deleteOrder b => OrderBookManager.processDeleteOrder header.seqNum b.orderId
  | .modifyOrder, .modifyOrder b =>
    OrderBookManager.processModifyOrder header.seqNum b.orderId b.side b.quantity b.price
  | .trade, .trade b => OrderBookManager.processTrade header.seqNum b.orderId b.quantity b.price
  | .tradeSummary, .tradeSummary b =>
    OrderBookManager.processTradeSummary header.seqNum b.symbol b.aggressorSide b.totalQuantity
      b.lastPrice
  | .snapshotInfo, .snapshotInfo _ => throw (.snapshotInfoOnLive header.seqNum)
  | _, _ => pure ()

/-- An entry of `snap_state`. -/
structure SnapState where
  askCount : ℕ
  bidCount : ℕ
  lastMdSeqNum : ℕ
  ordersReceived : ℕ
  expectedTotal : ℕ
  deriving DecidableEq

/-- `SnapShotSynchronizer`. -/
structure SnapShotSynchronizer where
  bookManager : OrderBookManager
  seqTracker : SequenceTracker
  sync : Bool
  lastSnapSeqNum : ℕ
  liveBuffer : List Message
  snapState : Dict ℤ SnapState
  snapComplete : Bool
  completedSymbols : Finset ℤ
  totalSymbols : ℕ
  /-- The sequence numbers handed to the manager since the last reset. -/
  dispatched : List ℕ
  /-- The gaps logged since the last reset. -/
  gapWarnings : List GapWarning
  deriving DecidableEq

namespace SnapShotSynchronizer

/-- `SnapShotSynchronizer.__init__`, on a new manager and a new tracker. -/
def init : SnapShotSynchronizer where
  bookManager := .init
  seqTracker := .init
  sync := false
  lastSnapSeqNum := 0
  totalSymbols := 13
  liveBuffer := []
  snapState := .empty
  snapComplete := false
  completedSymbols := ∅
  dispatched := []
  gapWarnings := []

/-- Write back the manager. -/
def setManager (m : OrderBookManager) (z : SnapShotSynchronizer) : SnapShotSynchronizer :=
  { z with bookManager := m }

/-- A call on the manager. -/
def onManager {α : Type} (call : Method FeedError OrderBookManager α) :
    Method FeedError SnapShotSynchronizer α := fun z ↦ call.focus z.bookManager setManager z

/-- Log a gap between two numbers, if there is one, as a warning. -/
def warnOnGap (lastSeq seqNum : ℕ) (z : SnapShotSynchronizer) : SnapShotSynchronizer :=
  if seqNum ≠ lastSeq + 1 then
    { z with gapWarnings := z.gapWarnings ++ [⟨lastSeq + 1, seqNum⟩] }
  else z

/-- `dispatch_live_message` on the synchronizer's manager. -/
def dispatch (header : MDHeader) (body : MarketDataMessage) :
    Method FeedError SnapShotSynchronizer Unit := do
  modify fun z ↦ { z with dispatched := z.dispatched ++ [header.seqNum] }
  onManager (dispatchLiveMessage header body)

/-- `_reset_for_resnap`. The tracker keeps its number, and the books stay, emptied. -/
def resetForResnap (z : SnapShotSynchronizer) : SnapShotSynchronizer :=
  { z with
    liveBuffer := []
    snapState := .empty
    completedSymbols := ∅
    lastSnapSeqNum := 0
    snapComplete := false
    sync := false
    bookManager := { z.bookManager with
      books := z.bookManager.books.mapValues OrderBook.clear
      orderIdToSymbol := .empty }
    dispatched := []
    gapWarnings := [] }

/-- `buffer_live_message`. -/
def bufferLiveMessage (header : MDHeader) (body : MarketDataMessage)
    (z : SnapShotSynchronizer) : SnapShotSynchronizer :=
  { z with liveBuffer := z.liveBuffer ++ [(header, body)] }

/-- The coverage test of both snapshot handlers, on the first message in the live buffer. -/
def bufferCovers (z : SnapShotSynchronizer) : Prop :=
  match z.liveBuffer with
  | [] => False
  | (header, _) :: _ =>
    header.seqNum < z.lastSnapSeqNum ∨ header.seqNum = z.lastSnapSeqNum + 1

instance (z : SnapShotSynchronizer) : Decidable z.bufferCovers := by
  unfold bufferCovers
  split <;> infer_instance

/-- What `_handle_snapshot_info` writes for a symbol. -/
def startSnapshot (body : SnapshotInfo) (z : SnapShotSynchronizer) : SnapShotSynchronizer :=
  { z with
    completedSymbols := z.completedSymbols.erase body.symbol
    snapState := z.snapState.insert body.symbol
      { askCount := body.askCount
        bidCount := body.bidCount
        lastMdSeqNum := body.lastMdSeqNum
        ordersReceived := 0
        expectedTotal := body.askCount + body.bidCount }
    lastSnapSeqNum := max z.lastSnapSeqNum body.lastMdSeqNum }

/-- `_handle_snapshot_info`. -/
def handleSnapshotInfo (body : SnapshotInfo) : Method FeedError SnapShotSynchronizer Unit := do
  let z ← get
  if z.bufferCovers ∧ (body.symbol : ℤ) ∈ z.completedSymbols ∧
      z.completedSymbols.card = z.totalSymbols then
    modify fun z ↦ { z with snapComplete := true }
  else
    modify (startSnapshot body)
    let _ ← onManager (OrderBookManager.getOrCreateBook body.symbol)
    onManager (OrderBookManager.onBook body.symbol (modify OrderBook.clear))

/-- One more order of a symbol's snapshot received. -/
def countOrder (symbol : ℤ) (state : SnapState) (z : SnapShotSynchronizer) :
    SnapShotSynchronizer :=
  { z with
    snapState :=
      z.snapState.insert symbol { state with ordersReceived := state.ordersReceived + 1 } }

/-- `_handle_snapshot_order`. -/
def handleSnapshotOrder (header : MDHeader) (body : NewOrder) :
    Method FeedError SnapShotSynchronizer Unit := do
  let symbol : ℤ := body.symbol
  let z ← get
  match z.snapState.get? symbol with
  | none => modify resetForResnap
  | some state =>
    if symbol ∈ z.completedSymbols then throw .completedSymbol
    else
      onManager (modify fun m ↦ m.setIndex (m.orderIdToSymbol.insert body.orderId symbol))
      let _ ← onManager (OrderBookManager.getOrCreateBook symbol)
      onManager (OrderBookManager.onBook symbol
        (OrderBook.addOrder body.orderId symbol body.side body.quantity body.price
          header.timestamp))
      modify (countOrder symbol state)
      if state.ordersReceived + 1 = state.expectedTotal then
        modify fun z ↦ { z with completedSymbols := insert symbol z.completedSymbols }
        onManager (OrderBookManager.onBook symbol OrderBook.validate)
        modify fun z ↦
          if z.bufferCovers ∧ z.completedSymbols.card = z.totalSymbols then
            { z with snapComplete := true }
          else z

/-- `handle_snapshot_message`. -/
def handleSnapshotMessage (header : MDHeader) (body : MarketDataMessage) :
    Method FeedError SnapShotSynchronizer Unit :=
  match header.msgType, body with
  | .snapshotInfo, .snapshotInfo b => handleSnapshotInfo b
  | .newOrder, .newOrder b => handleSnapshotOrder header b
  | _, _ => pure ()

/-! ### Replay -/

/-- The sequence number of a message. -/
def seqOf (item : Message) : ℕ := item.1.seqNum

/-- The first item of each sequence number, in order; `seenSeq` holds the numbers met so far. -/
def dedup (seenSeq : Finset ℕ) : List Message → List Message
  | [] => []
  | item :: rest =>
    if seqOf item ∈ seenSeq then dedup seenSeq rest
    else item :: dedup (insert (seqOf item) seenSeq) rest

/-- The live buffer as replay goes through it: sorted (Python's sort is stable) and without
repeats. -/
def deduped (buffer : List Message) : List Message :=
  dedup ∅ (buffer.insertionSort fun x y ↦ seqOf x ≤ seqOf y)

/-- Dropping repeats leaves the order as it is. -/
theorem dedup_sublist (seenSeq : Finset ℕ) (l : List Message) : (dedup seenSeq l).Sublist l := by
  induction l generalizing seenSeq with
  | nil => exact List.Sublist.refl []
  | cons item rest ih =>
    rw [dedup]
    split
    · exact (ih seenSeq).cons item
    · exact (ih _).cons_cons item

/-- No number that has been met before is left. -/
theorem seqOf_not_mem_of_mem_dedup {seenSeq : Finset ℕ} {l : List Message} {item : Message}
    (h : item ∈ dedup seenSeq l) : seqOf item ∉ seenSeq := by
  induction l generalizing seenSeq with
  | nil => exact absurd h List.not_mem_nil
  | cons first rest ih =>
    rw [dedup] at h
    split at h
    · exact ih h
    · rename_i hnew
      rcases List.mem_cons.1 h with rfl | hrest
      · exact hnew
      · exact fun hseen ↦ ih hrest (Finset.mem_insert_of_mem hseen)

/-- Every number not met before is still there. -/
theorem exists_mem_dedup {seenSeq : Finset ℕ} {l : List Message} {item : Message} (h : item ∈ l)
    (hnew : seqOf item ∉ seenSeq) : ∃ item' ∈ dedup seenSeq l, seqOf item' = seqOf item := by
  induction l generalizing seenSeq with
  | nil => exact absurd h List.not_mem_nil
  | cons first rest ih =>
    rw [dedup]
    split
    · rename_i hseen
      rcases List.mem_cons.1 h with rfl | hrest
      · exact absurd hseen hnew
      · exact ih hrest hnew
    · by_cases hseq : seqOf item = seqOf first
      · exact ⟨first, List.mem_cons_self, hseq.symm⟩
      rcases List.mem_cons.1 h with rfl | hrest
      · exact absurd rfl hseq
      · have hnew' : seqOf item ∉ insert (seqOf first) seenSeq := by simp [hseq, hnew]
        obtain ⟨item', hmem, heq⟩ := ih hrest hnew'
        exact ⟨item', List.mem_cons_of_mem _ hmem, heq⟩

/-- Sorted without repeats is strictly sorted. -/
theorem pairwise_dedup {seenSeq : Finset ℕ} {l : List Message}
    (h : l.Pairwise fun x y ↦ seqOf x ≤ seqOf y) :
    (dedup seenSeq l).Pairwise fun x y ↦ seqOf x < seqOf y := by
  induction l generalizing seenSeq with
  | nil => exact List.Pairwise.nil
  | cons item rest ih =>
    rw [List.pairwise_cons] at h
    rw [dedup]
    split
    · exact ih h.2
    · refine List.pairwise_cons.2 ⟨fun item' hmem ↦ ?_, ih h.2⟩
      have hle := h.1 item' ((dedup_sublist _ rest).subset hmem)
      have hne := seqOf_not_mem_of_mem_dedup hmem
      have hne' : seqOf item' ≠ seqOf item := fun heq ↦ hne (by simp [heq])
      omega

/-- What replay goes through is in the buffer. -/
theorem mem_of_mem_deduped {buffer : List Message} {item : Message} (h : item ∈ deduped buffer) :
    item ∈ buffer :=
  (List.mem_insertionSort _).1 ((dedup_sublist _ _).subset h)

/-- Every number of the buffer is gone through. -/
theorem exists_mem_deduped {buffer : List Message} {item : Message} (h : item ∈ buffer) :
    ∃ item' ∈ deduped buffer, seqOf item' = seqOf item :=
  exists_mem_dedup ((List.mem_insertionSort _).2 h) (Finset.notMem_empty _)

theorem pairwise_deduped (buffer : List Message) :
    (deduped buffer).Pairwise fun x y ↦ seqOf x < seqOf y := by
  have : Std.Total fun x y : Message ↦ seqOf x ≤ seqOf y := ⟨fun x y ↦ le_total _ _⟩
  have : IsTrans Message fun x y ↦ seqOf x ≤ seqOf y := ⟨fun _ _ _ ↦ le_trans⟩
  exact pairwise_dedup (List.pairwise_insertionSort _ buffer)

/-- The loop of `replay_buffered_messages`; it returns the last number replayed. -/
def replayLoop (lastSnapSeqNum : ℕ) : List Message → ℕ → Method FeedError SnapShotSynchronizer ℕ
  | [], lastSeq => pure lastSeq
  | (header, body) :: rest, lastSeq =>
    if header.seqNum ≤ lastSnapSeqNum then replayLoop lastSnapSeqNum rest lastSeq
    else do
      modify (warnOnGap lastSeq header.seqNum)
      dispatch header body
      replayLoop lastSnapSeqNum rest header.seqNum

/-- `replay_buffered_messages`. -/
def replayBufferedMessages : Method FeedError SnapShotSynchronizer Unit := do
  let z ← get
  -- `deduped` is empty exactly when the buffer is
  match deduped z.liveBuffer with
  | [] => modify resetForResnap
  | first :: rest =>
    if seqOf first > z.lastSnapSeqNum + 1 then modify resetForResnap
    else
      let lastSeq ← replayLoop z.lastSnapSeqNum (first :: rest) z.lastSnapSeqNum
      modify fun z ↦ { z with seqTracker := ⟨some (lastSeq + 1)⟩, liveBuffer := [], sync := true }

/-! ### Calls on the manager -/

/-- A call on the manager returns what it returns on the manager alone. -/
theorem onManager_eq_ok_iff {α : Type} {call : Method FeedError OrderBookManager α}
    {z z' : SnapShotSynchronizer} {a : α} :
    onManager call z = .ok a z' ↔
      ∃ m, call z.bookManager = .ok a m ∧ z' = setManager m z := by
  unfold onManager Method.focus
  rcases call z.bookManager with ⟨b, m⟩ | ⟨e, m⟩
  · constructor
    · intro h
      cases h
      exact ⟨m, rfl, rfl⟩
    · rintro ⟨m', hm, rfl⟩
      cases hm
      rfl
  · constructor
    · intro h
      cases h
    · rintro ⟨m', hm, -⟩
      cases hm

/-- And leaves the manager as it leaves it alone. -/
theorem after_onManager {α : Type} (call : Method FeedError OrderBookManager α)
    (z : SnapShotSynchronizer) :
    (onManager call).after z = setManager (call.after z.bookManager) z :=
  Method.after_focus call z.bookManager setManager z

/-- What does not speak of the manager survives every call on it. -/
theorem keeps_onManager {α : Type} {I : SnapShotSynchronizer → Prop}
    (h : ∀ z m, I z → I (setManager m z)) (call : Method FeedError OrderBookManager α) :
    Method.Keeps I (onManager call) := by
  intro z hz
  rw [after_onManager]
  exact h z _ hz

/-! ### What replay does

The loop over the buffer, seen from the messages it does not skip: they go to the manager in order,
their numbers are recorded, and the gaps between them are logged. -/

/-- Dispatch messages in order. -/
def dispatchAll (items : List Message) : Method FeedError OrderBookManager Unit :=
  Method.all (items.map fun item ↦ dispatchLiveMessage item.1 item.2)

/-- The messages replay dispatches. -/
def toReplay (z : SnapShotSynchronizer) : List Message :=
  (deduped z.liveBuffer).filter fun item ↦ z.lastSnapSeqNum < seqOf item

/-- The gaps logged on the way through `items` from `lastSeq`. -/
def gapsFrom (lastSeq : ℕ) : List Message → List GapWarning
  | [] => []
  | item :: rest =>
    (if seqOf item ≠ lastSeq + 1 then [⟨lastSeq + 1, seqOf item⟩] else []) ++
      gapsFrom (seqOf item) rest

/-- The gaps before a message, and those behind it. -/
theorem gapsFrom_cons (lastSeq : ℕ) (item : Message) (rest : List Message) :
    gapsFrom lastSeq (item :: rest) = gapsFrom lastSeq [item] ++ gapsFrom (seqOf item) rest := by
  simp only [gapsFrom, List.append_nil]

/-- The number of the last of `items`, or `lastSeq` when there is none. -/
def lastFrom (lastSeq : ℕ) : List Message → ℕ
  | [] => lastSeq
  | item :: rest => lastFrom (seqOf item) rest

/-- The state after `items` have been dispatched and left `m`. -/
def replayed (m : OrderBookManager) (lastSeq : ℕ) (items : List Message)
    (z : SnapShotSynchronizer) : SnapShotSynchronizer :=
  { z with
    bookManager := m
    dispatched := z.dispatched ++ items.map seqOf
    gapWarnings := z.gapWarnings ++ gapsFrom lastSeq items }

/-- The state after a replay that left `m`: in sync, the tracker primed with the next number. -/
def goLive (m : OrderBookManager) (z : SnapShotSynchronizer) : SnapShotSynchronizer :=
  { replayed m z.lastSnapSeqNum (toReplay z) z with
    seqTracker := ⟨some (lastFrom z.lastSnapSeqNum (toReplay z) + 1)⟩
    liveBuffer := []
    sync := true }

theorem replayed_cons (m m₁ : OrderBookManager) (lastSeq : ℕ) (item : Message) (rest : List Message)
    (z : SnapShotSynchronizer) :
    replayed m lastSeq (item :: rest) z =
      replayed m (seqOf item) rest { z with
        bookManager := m₁
        dispatched := z.dispatched ++ [seqOf item]
        gapWarnings := z.gapWarnings ++ gapsFrom lastSeq [item] } := by
  rw [replayed, replayed, gapsFrom_cons lastSeq item rest]
  simp

/-- Dispatching returns when the manager takes the message, and records the number. -/
theorem dispatch_eq_ok_iff {header : MDHeader} {body : MarketDataMessage}
    {z z' : SnapShotSynchronizer} :
    dispatch header body z = .ok () z' ↔
      ∃ m, dispatchLiveMessage header body z.bookManager = .ok () m ∧
        z' = { z with bookManager := m, dispatched := z.dispatched ++ [header.seqNum] } := by
  unfold dispatch
  rw [Method.bind_ok (Method.modify_apply _ z), onManager_eq_ok_iff]
  rfl

/-- The number is recorded even if the manager raises. -/
theorem dispatch_error {header : MDHeader} {body : MarketDataMessage} {z : SnapShotSynchronizer}
    {e : FeedError} {m : OrderBookManager}
    (h : dispatchLiveMessage header body z.bookManager = .error e m) :
    dispatch header body z =
      .error e { z with bookManager := m, dispatched := z.dispatched ++ [header.seqNum] } := by
  unfold dispatch
  rw [Method.bind_ok (Method.modify_apply _ z)]
  exact Method.focus_error h setManager _

/-- **The replay loop** returns exactly when the manager accepts all messages above the snapshot. -/
theorem replayLoop_eq_ok_iff {snap lastSeq lastSeq' : ℕ} {l : List Message}
    {z z' : SnapShotSynchronizer} :
    replayLoop snap l lastSeq z = .ok lastSeq' z' ↔
      ∃ m, dispatchAll (l.filter fun item ↦ snap < seqOf item) z.bookManager = .ok () m ∧
        z' = replayed m lastSeq (l.filter fun item ↦ snap < seqOf item) z ∧
        lastSeq' = lastFrom lastSeq (l.filter fun item ↦ snap < seqOf item) := by
  induction l generalizing lastSeq z with
  | nil =>
    constructor
    · intro h
      cases h
      exact ⟨_, rfl, by simp [replayed, gapsFrom], rfl⟩
    · rintro ⟨m, hm, rfl, rfl⟩
      cases hm
      simp [replayLoop, replayed, gapsFrom]
  | cons item rest ih =>
    obtain ⟨header, body⟩ := item
    rw [replayLoop]
    by_cases hskip : header.seqNum ≤ snap
    · rw [if_pos hskip, List.filter_cons_of_neg (by simp [seqOf, not_lt.2 hskip])]
      exact ih
    rw [if_neg hskip, List.filter_cons_of_pos (by simp [seqOf, not_le.1 hskip])]
    have hwarn : warnOnGap lastSeq header.seqNum z = { z with
        gapWarnings := z.gapWarnings ++ gapsFrom lastSeq [(header, body)] } := by
      by_cases hseq : header.seqNum = lastSeq + 1 <;> simp [warnOnGap, gapsFrom, seqOf, hseq]
    refine Iff.trans (b := (do
        dispatch header body
        replayLoop snap rest header.seqNum) (warnOnGap lastSeq header.seqNum z)
          = .ok lastSeq' z') Iff.rfl ?_
    rw [hwarn, Method.bind_eq_ok_iff]
    constructor
    · rintro ⟨_, t, hdispatch, hrest⟩
      obtain ⟨m₁, hm₁, rfl⟩ := dispatch_eq_ok_iff.1 hdispatch
      obtain ⟨m, hm, rfl, rfl⟩ := ih.1 hrest
      exact ⟨m, (Method.bind_ok hm₁).trans hm,
        (replayed_cons m m₁ lastSeq (header, body) _ z).symm, rfl⟩
    · rintro ⟨m, hm, rfl, rfl⟩
      obtain ⟨_, m₁, hm₁, hm⟩ := Method.bind_eq_ok_iff.1 hm
      exact ⟨(), _, dispatch_eq_ok_iff.2 ⟨m₁, hm₁, rfl⟩,
        ih.2 ⟨m, hm, replayed_cons m m₁ lastSeq (header, body) _ z, rfl⟩⟩

/-- The buffer reaches back to the snapshot, by replay's own test. -/
def ReplayCovers (z : SnapShotSynchronizer) : Prop :=
  ∃ first ∈ z.liveBuffer, seqOf first ≤ z.lastSnapSeqNum + 1

/-- Replay looks at the first message it would go through. -/
theorem replayCovers_iff (z : SnapShotSynchronizer) :
    z.ReplayCovers ↔ ∃ first rest, deduped z.liveBuffer = first :: rest ∧
      seqOf first ≤ z.lastSnapSeqNum + 1 := by
  constructor
  · rintro ⟨item, hitem, hle⟩
    obtain ⟨item', hmem, heq⟩ := exists_mem_deduped hitem
    rcases hd : deduped z.liveBuffer with - | ⟨first, rest⟩
    · rw [hd] at hmem
      exact absurd hmem List.not_mem_nil
    · refine ⟨first, rest, rfl, ?_⟩
      have hsorted := pairwise_deduped z.liveBuffer
      rw [hd] at hmem hsorted
      rcases List.mem_cons.1 hmem with rfl | hrest
      · omega
      · have hlt := (List.pairwise_cons.1 hsorted).1 item' hrest
        omega
  · rintro ⟨first, rest, hd, hle⟩
    exact ⟨first, mem_of_mem_deduped (hd ▸ List.mem_cons_self), hle⟩

/-- **Replay** either finds the buffer short and resets, or dispatches what lies above the snapshot
and goes into sync. -/
theorem replayBufferedMessages_eq_ok_iff {z z' : SnapShotSynchronizer} :
    replayBufferedMessages z = .ok () z' ↔
      (¬ z.ReplayCovers ∧ z' = z.resetForResnap) ∨
        (z.ReplayCovers ∧ ∃ m, dispatchAll z.toReplay z.bookManager = .ok () m ∧
          z' = goLive m z) := by
  unfold replayBufferedMessages
  rw [Method.bind_ok (Method.get_apply z), replayCovers_iff]
  rcases hd : deduped z.liveBuffer with - | ⟨first, rest⟩
  · simp [eq_comm]
  · by_cases hgap : seqOf first > z.lastSnapSeqNum + 1
    · simp [hgap, eq_comm]
    · have hle : seqOf first ≤ z.lastSnapSeqNum + 1 := by omega
      simp only [if_neg hgap]
      rw [Method.bind_eq_ok_iff]
      have htoReplay : (first :: rest).filter (fun item ↦ z.lastSnapSeqNum < seqOf item) =
          z.toReplay := by
        rw [toReplay, hd]
      simp only [replayLoop_eq_ok_iff, htoReplay]
      constructor
      · rintro ⟨_, _, ⟨m, hm, rfl, rfl⟩, hset⟩
        cases hset
        exact Or.inr ⟨⟨first, rest, rfl, hle⟩, m, hm, rfl⟩
      · rintro (⟨hnot, -⟩ | ⟨-, m, hm, rfl⟩)
        · exact absurd ⟨first, rest, rfl, hle⟩ hnot
        · exact ⟨_, _, ⟨m, hm, rfl, rfl⟩, rfl⟩

/-! ### What a snapshot message does -/

/-- The manager after `_handle_snapshot_info` has opened the snapshot of a symbol. -/
def openBook (symbol : ℤ) : Method FeedError OrderBookManager Unit := do
  let _ ← OrderBookManager.getOrCreateBook symbol
  OrderBookManager.onBook symbol (modify OrderBook.clear)

/-- A snapshot order goes into the books as a new order on the live channel does. -/
def loadOrder (header : MDHeader) (body : NewOrder) : Method FeedError OrderBookManager Unit :=
  OrderBookManager.processNewOrder header.seqNum header.timestamp body.orderId body.symbol body.side
    body.quantity body.price body.flags

/-- The state once the last order of a symbol's snapshot is in. -/
def completeSymbol (symbol : ℤ) (z : SnapShotSynchronizer) : SnapShotSynchronizer :=
  { z with completedSymbols := insert symbol z.completedSymbols }

/-- `snap_complete`, decided after a symbol has been completed. -/
def decideComplete (z : SnapShotSynchronizer) : SnapShotSynchronizer :=
  if z.bufferCovers ∧ z.completedSymbols.card = z.totalSymbols then { z with snapComplete := true }
  else z

/-- What a `SnapshotInfo` can leave: all complete, or its snapshot opened. -/
theorem handleSnapshotInfo_ok {z z' : SnapShotSynchronizer} {body : SnapshotInfo}
    (hrun : handleSnapshotInfo body z = .ok () z') :
    (z.bufferCovers ∧ (body.symbol : ℤ) ∈ z.completedSymbols ∧
        z.completedSymbols.card = z.totalSymbols ∧ z' = { z with snapComplete := true }) ∨
      (¬ (z.bufferCovers ∧ (body.symbol : ℤ) ∈ z.completedSymbols ∧
          z.completedSymbols.card = z.totalSymbols) ∧
        ∃ m, openBook body.symbol z.bookManager = .ok () m ∧
          z' = setManager m (startSnapshot body z)) := by
  unfold handleSnapshotInfo at hrun
  rw [Method.bind_ok (Method.get_apply z)] at hrun
  split at hrun
  · rename_i hc
    cases hrun
    exact Or.inl ⟨hc.1, hc.2.1, hc.2.2, rfl⟩
  · rename_i hc
    rw [Method.bind_ok (Method.modify_apply _ z)] at hrun
    obtain ⟨book, _, hbook, hrun⟩ := Method.bind_eq_ok_iff.1 hrun
    obtain ⟨m₁, hm₁, rfl⟩ := onManager_eq_ok_iff.1 hbook
    obtain ⟨m₂, hm₂, rfl⟩ := onManager_eq_ok_iff.1 hrun
    exact Or.inr ⟨hc, m₂, (Method.bind_ok hm₁).trans hm₂, rfl⟩

/-- What an order can leave: a reset, or one more order in its book. -/
theorem handleSnapshotOrder_ok {z z' : SnapShotSynchronizer} {header : MDHeader} {body : NewOrder}
    (hrun : handleSnapshotOrder header body z = .ok () z') :
    (z.snapState.get? body.symbol = none ∧ z' = z.resetForResnap) ∨
      ∃ state m, z.snapState.get? body.symbol = some state ∧
        (body.symbol : ℤ) ∉ z.completedSymbols ∧
        loadOrder header body z.bookManager = .ok () m ∧
        ((state.ordersReceived + 1 ≠ state.expectedTotal ∧
            z' = setManager m (countOrder body.symbol state z)) ∨
          (state.ordersReceived + 1 = state.expectedTotal ∧
            ∃ m', OrderBookManager.onBook body.symbol OrderBook.validate m = .ok () m' ∧
              z' = decideComplete (setManager m'
                (completeSymbol body.symbol (countOrder body.symbol state z))))) := by
  unfold handleSnapshotOrder at hrun
  rw [Method.bind_ok (Method.get_apply z)] at hrun
  rcases hstate : z.snapState.get? body.symbol with - | state
  · simp only [hstate] at hrun
    cases hrun
    exact Or.inl ⟨rfl, rfl⟩
  simp only [hstate] at hrun
  by_cases hdone : (body.symbol : ℤ) ∈ z.completedSymbols
  · rw [if_pos hdone] at hrun
    cases hrun
  rw [if_neg hdone] at hrun
  obtain ⟨_, _, hindex, hrun⟩ := Method.bind_eq_ok_iff.1 hrun
  obtain ⟨m₁, hm₁, rfl⟩ := onManager_eq_ok_iff.1 hindex
  obtain ⟨book, _, hbook, hrun⟩ := Method.bind_eq_ok_iff.1 hrun
  obtain ⟨m₂, hm₂, rfl⟩ := onManager_eq_ok_iff.1 hbook
  obtain ⟨_, _, hadd, hrun⟩ := Method.bind_eq_ok_iff.1 hrun
  obtain ⟨m, hm, rfl⟩ := onManager_eq_ok_iff.1 hadd
  have hload : loadOrder header body z.bookManager = .ok () m :=
    (Method.bind_ok hm₁).trans ((Method.bind_ok hm₂).trans hm)
  refine Or.inr ⟨state, m, rfl, hdone, hload, ?_⟩
  rw [Method.bind_ok (Method.modify_apply _ _)] at hrun
  by_cases htotal : state.ordersReceived + 1 = state.expectedTotal
  · rw [if_pos htotal, Method.bind_ok (Method.modify_apply _ _)] at hrun
    obtain ⟨_, _, hvalidate, hrun⟩ := Method.bind_eq_ok_iff.1 hrun
    obtain ⟨m', hm', rfl⟩ := onManager_eq_ok_iff.1 hvalidate
    cases hrun
    exact Or.inr ⟨htotal, m', hm', rfl⟩
  · rw [if_neg htotal] at hrun
    cases hrun
    exact Or.inl ⟨htotal, rfl⟩

/-- A snapshot message is an info, an order, or nothing to the synchronizer. -/
theorem handleSnapshotMessage_cases (header : MDHeader) (body : MarketDataMessage) :
    (∃ b, body = .snapshotInfo b ∧ handleSnapshotMessage header body = handleSnapshotInfo b) ∨
      (∃ b, body = .newOrder b ∧ handleSnapshotMessage header body = handleSnapshotOrder header b) ∨
      handleSnapshotMessage header body = pure () := by
  unfold handleSnapshotMessage
  split
  · exact Or.inl ⟨_, rfl, rfl⟩
  · exact Or.inr (Or.inl ⟨_, rfl, rfl⟩)
  · exact Or.inr (Or.inr rfl)

end SnapShotSynchronizer

end HftTrading
