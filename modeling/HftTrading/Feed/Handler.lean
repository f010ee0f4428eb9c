import HftTrading.Feed.Synchronizer

/-!
# The feed handler

The body of the loop of `_process_buffer`: what one received packet does. A run of the feed is a
sequence of packets from either channel, with the books read by the strategy in between (`Event`).
It ends with the first exception that escapes the loop, because nothing above catches it.

`Outcome` lists what an event that raises nothing can do, in terms of the synchronizer's operations.
With it goes the induction that all invariants of the feed use: what holds of a new synchronizer and
survives every outcome holds in every reachable state (`Reachable.induct`). No invariant is proved
by going through the text of the loop again.

A run on packets that are given can be run, and what has been checked of the state it leaves is then
known of a reachable state (`exists_reachable`). This is how the runs in which something goes wrong
are shown to exist.
-/

namespace HftTrading

open MarketData

namespace OrderBookManager

/-- Read both best prices of a book. -/
def readBook (symbol : ℤ) : Method FeedError OrderBookManager Unit := do
  let _ ← onBook symbol OrderBook.getBestBid
  let _ ← onBook symbol OrderBook.getBestAsk

/-- The loop that logs every book, in the order of the symbols. -/
def logBooks : Method FeedError OrderBookManager Unit := do
  let m ← get
  Method.all ((m.books.keys.insertionSort (· ≤ ·)).map readBook)

end OrderBookManager

namespace SnapShotSynchronizer

/-- Dispatch a message; a book error triggers a resync instead. The answer tells which. -/
def dispatchOrReset (header : MDHeader) (body : MarketDataMessage) :
    Method FeedError SnapShotSynchronizer Bool :=
  tryCatch (do dispatch header body; pure true) fun _ ↦ do modify resetForResnap; pure false

/-- The live branch of the loop while synced: check, dispatch, resync on a book error. -/
def processLive (header : MDHeader) (body : MarketDataMessage) :
    Method FeedError SnapShotSynchronizer Unit := do
  let z ← get
  match z.seqTracker.check header.seqNum with
  | (false, _, _) => pure ()
  | (true, warning, tracker) =>
    modify fun z ↦
      { z with seqTracker := tracker, gapWarnings := z.gapWarnings ++ warning.toList }
    let dispatchedOk ← dispatchOrReset header body
    if dispatchedOk ∧ header.seqNum % 10000 = 0 then onManager OrderBookManager.logBooks

/-- One packet. The magic number tells the live channel from the snapshot channel. -/
def processPacket (header : MDHeader) (body : MarketDataMessage) :
    Method FeedError SnapShotSynchronizer Unit := do
  let z ← get
  if header.magicNumber = MAGIC_NUMBER then
    if z.sync = false then modify (bufferLiveMessage header body)
    else processLive header body
  else if z.sync = false then
    handleSnapshotMessage header body
    let z ← get
    if z.snapComplete = true then
      replayBufferedMessages
      onManager OrderBookManager.logBooks

/-- What happens on the feed side: a packet, or a read of a book by the strategy. -/
inductive Event
  | packet (header : MDHeader) (body : MarketDataMessage)
  | read (symbol : ℤ)

/-- One event. A read of a symbol without a book reads nothing. -/
def Event.step : Event → Method FeedError SnapShotSynchronizer Unit
  | .packet header body => processPacket header body
  | .read symbol => do
    let z ← get
    if z.bookManager.books.contains symbol then onManager (OrderBookManager.readBook symbol)

/-- A run of the feed, up to the first exception that escapes. -/
def runEvents (events : List Event) : Method FeedError SnapShotSynchronizer Unit :=
  Method.all (events.map Event.step)

/-- A new synchronizer that waits for a given number of symbols; `init` waits for 13. -/
def start (totalSymbols : ℕ) : SnapShotSynchronizer := { init with totalSymbols := totalSymbols }

/-- The states a run of the feed reaches. -/
def Reachable (totalSymbols : ℕ) (z : SnapShotSynchronizer) : Prop :=
  ∃ events, runEvents events (start totalSymbols) = .ok () z

/-- A run goes on where another has come to. -/
theorem Reachable.run {totalSymbols : ℕ} {z z' : SnapShotSynchronizer}
    (h : Reachable totalSymbols z) {events : List Event} (hrun : runEvents events z = .ok () z') :
    Reachable totalSymbols z' := by
  obtain ⟨events', hevents⟩ := h
  refine ⟨events' ++ events, ?_⟩
  rw [runEvents, List.map_append, Method.all_append]
  exact (Method.bind_ok hevents).trans hrun

/-- A run on given packets can be checked by running it. -/
theorem exists_run (events : List Event) (z₀ : SnapShotSynchronizer)
    (p : SnapShotSynchronizer → Bool) (h : ((runEvents events).state? z₀).any p = true) :
    ∃ z, runEvents events z₀ = .ok () z ∧ p z = true := by
  obtain ⟨z, hz, hp⟩ := (Option.any_eq_true _ _).1 h
  obtain ⟨_, hrun⟩ := Method.state?_eq_some_iff.1 hz
  exact ⟨z, hrun, hp⟩

/-- A state that a run on given packets comes to is reachable. -/
theorem exists_reachable (totalSymbols : ℕ) (events : List Event) (p : SnapShotSynchronizer → Bool)
    (h : ((runEvents events).state? (start totalSymbols)).any p = true) :
    ∃ z, Reachable totalSymbols z ∧ p z = true := by
  obtain ⟨z, hrun, hp⟩ := exists_run events (start totalSymbols) p h
  exact ⟨z, ⟨events, hrun⟩, hp⟩

/-! ### Packets for concrete runs -/

/-- A heartbeat on the live channel. -/
def liveHeartbeat (seqNum : ℕ) : Event :=
  let header : MDHeader := ⟨MAGIC_NUMBER, 23, seqNum, 0, .heartbeat⟩
  .packet header (.header header)

/-- A new order on the live channel. -/
def liveOrder (seqNum : ℕ) (body : NewOrder) : Event :=
  .packet ⟨MAGIC_NUMBER, 45, seqNum, 0, .newOrder⟩ (.newOrder body)

/-- The snapshot of a symbol with one order, a buy of one at 100, under the symbol as its id. -/
def snapshotOf (lastMdSeqNum symbol : ℕ) : List Event :=
  [.packet ⟨0, 39, 0, 0, .snapshotInfo⟩ (.snapshotInfo ⟨symbol, 1, 0, lastMdSeqNum⟩),
    .packet ⟨0, 45, 0, 0, .newOrder⟩ (.newOrder ⟨symbol, symbol, .buy, 1, 100, 0⟩)]

/-! ### What the live path does -/

/-- The gaps a check logs: the numbers from the expected one up to the one it got. -/
def checkGaps (expected seqNum : ℕ) : List GapWarning :=
  if seqNum = expected then [] else [⟨expected, seqNum⟩]

/-- The state after a live message has been accepted and dispatched, leaving `m`. -/
def accepted (m : OrderBookManager) (expected seqNum : ℕ) (z : SnapShotSynchronizer) :
    SnapShotSynchronizer :=
  { z with
    bookManager := m
    seqTracker := ⟨some (seqNum + 1)⟩
    dispatched := z.dispatched ++ [seqNum]
    gapWarnings := z.gapWarnings ++ checkGaps expected seqNum }

/-- **The live path** drops a number below the tracker's; any other it dispatches, resetting if the
manager raises. -/
theorem processLive_ok {z z' : SnapShotSynchronizer} {expected : ℕ}
    (he : z.seqTracker.expectedSeq = some expected) {header : MDHeader} {body : MarketDataMessage}
    (hrun : processLive header body z = .ok () z') :
    (header.seqNum < expected ∧ z' = z) ∨
      (expected ≤ header.seqNum ∧
        ((∃ e m, dispatchLiveMessage header body z.bookManager = .error e m ∧
            z' = (accepted m expected header.seqNum z).resetForResnap) ∨
          ∃ m m', dispatchLiveMessage header body z.bookManager = .ok () m ∧
            (m' = m ∨ OrderBookManager.logBooks m = .ok () m') ∧
            z' = accepted m' expected header.seqNum z)) := by
  unfold processLive at hrun
  rw [Method.bind_ok (Method.get_apply z)] at hrun
  rcases lt_or_ge header.seqNum expected with hlt | hge
  · have hcheck : z.seqTracker.check header.seqNum = (false, none, z.seqTracker) := by
      simp [SequenceTracker.check, he, hlt]
    rw [hcheck] at hrun
    cases hrun
    exact Or.inl ⟨hlt, rfl⟩
  refine Or.inr ⟨hge, ?_⟩
  obtain ⟨w, hw, hcheck⟩ : ∃ w : Option GapWarning, w.toList = checkGaps expected header.seqNum ∧
      z.seqTracker.check header.seqNum = (true, w, ⟨some (header.seqNum + 1)⟩) := by
    by_cases hseq : header.seqNum = expected
    · exact ⟨none, by simp [checkGaps, hseq], by simp [SequenceTracker.check, he, hseq]⟩
    · exact ⟨some ⟨expected, header.seqNum⟩, by simp [checkGaps, hseq],
        by simp [SequenceTracker.check, he, hseq, not_lt.2 hge]⟩
  simp only [hcheck, hw] at hrun
  rw [Method.bind_ok (Method.modify_apply _ z)] at hrun
  set z₁ : SnapShotSynchronizer := { z with
    seqTracker := ⟨some (header.seqNum + 1)⟩
    gapWarnings := z.gapWarnings ++ checkGaps expected header.seqNum } with hz₁
  -- the tracker has moved on either way; an exception of the books is caught, and resets
  rcases hd : dispatchLiveMessage header body z.bookManager with ⟨_, m⟩ | ⟨e, m⟩
  · have hok : dispatch header body z₁ = .ok () (accepted m expected header.seqNum z) :=
      dispatch_eq_ok_iff.2 ⟨m, hd, rfl⟩
    have htry : dispatchOrReset header body z₁ =
        .ok true (accepted m expected header.seqNum z) := by
      refine Method.tryCatch_ok ?_ _
      rw [Method.bind_ok hok, Method.pure_apply]
    rw [Method.bind_ok htry] at hrun
    refine Or.inr ⟨m, ?_⟩
    split at hrun
    · obtain ⟨m', hlog, rfl⟩ := onManager_eq_ok_iff.1 hrun
      exact ⟨m', rfl, Or.inr hlog, rfl⟩
    · cases hrun
      exact ⟨m, rfl, Or.inl rfl, rfl⟩
  · have herror : dispatch header body z₁ = .error e (accepted m expected header.seqNum z) :=
      dispatch_error hd
    have htry : dispatchOrReset header body z₁ =
        .ok false (accepted m expected header.seqNum z).resetForResnap :=
      Method.tryCatch_error (Method.bind_error herror) _
    rw [Method.bind_ok htry] at hrun
    cases hrun
    exact Or.inl ⟨e, m, rfl, rfl⟩

/-! ### What an event does -/

/-- Everything an event that raises nothing can do to the feed. -/
inductive Outcome (z : SnapShotSynchronizer) : Event → SnapShotSynchronizer → Prop
  | readNothing (symbol : ℤ) : Outcome z (.read symbol) z
  | read {symbol : ℤ} {m : OrderBookManager}
      (hread : OrderBookManager.readBook symbol z.bookManager = .ok () m) :
      Outcome z (.read symbol) (setManager m z)
  | buffered {header : MDHeader} {body : MarketDataMessage} (hs : z.sync = false)
      (hmagic : header.magicNumber = MAGIC_NUMBER) :
      Outcome z (.packet header body) (bufferLiveMessage header body z)
  | live {header : MDHeader} {body : MarketDataMessage} {z' : SnapShotSynchronizer}
      (hs : z.sync = true) (hmagic : header.magicNumber = MAGIC_NUMBER)
      (hlive : processLive header body z = .ok () z') : Outcome z (.packet header body) z'
  | ignored {header : MDHeader} {body : MarketDataMessage} (hs : z.sync = true)
      (hmagic : header.magicNumber ≠ MAGIC_NUMBER) : Outcome z (.packet header body) z
  | snapshot {header : MDHeader} {body : MarketDataMessage} {z' : SnapShotSynchronizer}
      (hs : z.sync = false) (hmagic : header.magicNumber ≠ MAGIC_NUMBER)
      (hsnap : handleSnapshotMessage header body z = .ok () z') (hc : z'.snapComplete = false) :
      Outcome z (.packet header body) z'
  | replay {header : MDHeader} {body : MarketDataMessage} {z₁ z₂ : SnapShotSynchronizer}
      {m : OrderBookManager} (hs : z.sync = false) (hmagic : header.magicNumber ≠ MAGIC_NUMBER)
      (hsnap : handleSnapshotMessage header body z = .ok () z₁) (hc : z₁.snapComplete = true)
      (hreplay : replayBufferedMessages z₁ = .ok () z₂)
      (hlog : OrderBookManager.logBooks z₂.bookManager = .ok () m) :
      Outcome z (.packet header body) (setManager m z₂)

/-- **Everything an event does, if it raises nothing.** -/
theorem Event.step_ok {event : Event} {z z' : SnapShotSynchronizer}
    (hstep : event.step z = .ok () z') : Outcome z event z' := by
  cases event with
  | read symbol =>
    obtain ⟨_, _, hget, hread⟩ := Method.bind_eq_ok_iff.1 hstep
    cases hget
    by_cases hbook : z.bookManager.books.contains symbol = true
    · rw [if_pos hbook] at hread
      obtain ⟨m, hm, rfl⟩ := onManager_eq_ok_iff.1 hread
      exact .read hm
    · rw [if_neg hbook] at hread
      cases hread
      exact .readNothing symbol
  | packet header body =>
    obtain ⟨_, _, hget, hpacket⟩ := Method.bind_eq_ok_iff.1 hstep
    cases hget
    by_cases hmagic : header.magicNumber = MAGIC_NUMBER <;>
      rcases hs : z.sync with - | - <;>
      simp only [hmagic, hs, if_true, if_false, Bool.true_eq_false] at hpacket
    · cases hpacket
      exact .buffered hs hmagic
    · exact .live hs hmagic hpacket
    · obtain ⟨_, z₁, hsnap, hrest⟩ := Method.bind_eq_ok_iff.1 hpacket
      obtain ⟨_, _, hget, hrest⟩ := Method.bind_eq_ok_iff.1 hrest
      cases hget
      rcases hc : z₁.snapComplete with - | -
      · rw [hc, if_neg Bool.false_ne_true] at hrest
        cases hrest
        exact .snapshot hs hmagic hsnap hc
      · rw [hc, if_pos rfl] at hrest
        obtain ⟨_, z₂, hreplay, hlog⟩ := Method.bind_eq_ok_iff.1 hrest
        obtain ⟨m, hm, rfl⟩ := onManager_eq_ok_iff.1 hlog
        exact .replay hs hmagic hsnap hc hreplay hm
    · cases hpacket
      exact .ignored hs hmagic

/-- **What every event preserves holds in every reachable state.** -/
theorem Reachable.induct {I : SnapShotSynchronizer → Prop} {totalSymbols : ℕ}
    (hstart : I (start totalSymbols))
    (hstep : ∀ z event z', I z → Outcome z event z' → I z') {z : SnapShotSynchronizer}
    (h : Reachable totalSymbols z) : I z := by
  obtain ⟨events, hrun⟩ := h
  refine Method.all_induct (fun m hm s s' hs hrun ↦ ?_) hstart hrun
  obtain ⟨event, -, rfl⟩ := List.mem_map.1 hm
  exact hstep s event s' hs (Event.step_ok hrun)

end SnapShotSynchronizer

end HftTrading
