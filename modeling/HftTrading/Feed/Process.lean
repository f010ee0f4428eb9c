import HftTrading.Feed.Buffer
import Mathlib.Data.List.DropRight

/-!
# The market data process

`run_market_data`, on epoll: each channel has a socket and a receive buffer of its own. What has
arrived on a socket is read in behind what its buffer holds, and `_process_buffer` goes through it.
The snapshot channel is only listened to while there is something to be gained by it.

A lost connection to the exchange interrupts `_process_buffer`. Then nothing is said of how far it
has come: the buffer stays as it was, and with the next read it is gone through from the front. What
this takes is room in the buffer, which is not got back by an interrupted call. But **only many such
calls in a row exhaust it** (`room_of_runs`).

## Reads and events

An event is what `poll` reports: a channel, and the datagram that is there to be read, if any. What
it can do without ending the run is `Polled`, and `poll_ok` gets it from the method once and for
all, so that no statement about runs goes back to the text of the loop. The process keeps a record
of its reads: the bytes that each call was handed and how the call ended. The program has no such
record; statements about whole runs speak of it where they need to say what happened in between.

## How much a buffer holds

A read takes at most `MAX_UDP_PAYLOAD` bytes. A call that finishes leaves less than a packet behind,
and one that triggers a resync leaves nothing. So what a buffer holds is at most one datagram for
each call that was interrupted since, and a last one that is not complete.
-/

namespace HftTrading

open MarketData Method

/-- `MAX_UDP_PAYLOAD`. -/
def MAX_UDP_PAYLOAD : ℕ := 1500

/-- The size of a receive buffer. -/
def BUFFER_SIZE : ℕ := 65536

namespace Buffer

/-- `bytearray(1 << 16)`, with nothing received. -/
def new : Buffer := ⟨List.replicate BUFFER_SIZE 0, 0, Nat.zero_le _⟩

/-- `recv_into` takes the room that it is told to fill at the most, or raises. -/
def HasRoom (b : Buffer) : Prop := b.len + MAX_UDP_PAYLOAD ≤ b.bytes.length

instance (b : Buffer) : Decidable b.HasRoom := inferInstanceAs (Decidable (_ ≤ _))

/-- A datagram is received; what is too long of it is lost. -/
def receive (datagram : List UInt8) (b : Buffer) (h : b.HasRoom) : Buffer :=
  b.recvInto (datagram.take MAX_UDP_PAYLOAD) <| by
    unfold HasRoom at h
    rw [List.length_take]
    omega

/-- Forget what has been received. -/
def emptied (b : Buffer) : Buffer := ⟨b.bytes, 0, Nat.zero_le _⟩

/-- What is received stands behind what was there. -/
theorem filled_receive (datagram : List UInt8) {b : Buffer} (h : b.HasRoom) :
    (b.receive datagram h).filled = b.filled ++ datagram.take MAX_UDP_PAYLOAD :=
  filled_recvInto _ _ _

/-- A resync leaves nothing in a buffer. -/
theorem filled_emptied (b : Buffer) : b.emptied.filled = [] := List.take_zero

end Buffer

/-- The channels. -/
inductive Channel
  | live
  | snap
  deriving DecidableEq

/-- How a call of `_process_buffer` was left: it went through all there was, or a book error or a
lost connection stopped it. -/
inductive Ending
  | finished
  | resync
  | interrupted
  deriving DecidableEq

/-- A read that has been made: on which channel, what the call was to go through, and its end. -/
structure Read where
  channel : Channel
  bytes : List UInt8
  ending : Ending
  deriving DecidableEq

/-- The number of each packet tells its channel. -/
def Read.Marked (r : Read) : Prop :=
  ∀ rest header, World.Boundary r.bytes rest → World.nextPacket rest = .ok (some header) →
    (header.magicNumber = MAGIC_NUMBER ↔ r.channel = .live)

/-- What `run_market_data` works on. The field `reads` is a record and not state: no operation goes
by it. -/
structure Process (σ : Type) where
  world : World σ
  liveBuf : Buffer
  snapBuf : Buffer
  reads : List Read

/-- A socket that is ready, and what it then gives: a datagram, or `BlockingIOError`. -/
structure PollEvent where
  channel : Channel
  datagram : Option (List UInt8)

/-- What ends `run_market_data`. -/
inductive ProcessError (ε : Type)
  /-- `recv_into` has not got the room. -/
  | noRoom
  | loop (e : LoopError ε)

namespace Process

variable {σ ε : Type}

/-- The start of `run_market_data`. -/
def start (w : World σ) : Process σ := ⟨w, .new, .new, []⟩

/-- The buffer of a channel. -/
def buffer (c : Channel) (p : Process σ) : Buffer :=
  match c with
  | .live => p.liveBuf
  | .snap => p.snapBuf

/-- Write back the buffer of a channel, and the world. -/
def put (c : Channel) (b : Buffer) (w : World σ) (p : Process σ) : Process σ :=
  match c with
  | .live => { p with world := w, liveBuf := b }
  | .snap => { p with world := w, snapBuf := b }

/-- Note a read. -/
def noteRead (r : Read) (p : Process σ) : Process σ := { p with reads := p.reads ++ [r] }

/-- Putting a buffer back, with the feed as it is now. -/
@[simp] theorem world_put (c : Channel) (b : Buffer) (w : World σ) (p : Process σ) :
    (p.put c b w).world = w := by
  cases c <;> rfl

@[simp] theorem reads_put (c : Channel) (b : Buffer) (w : World σ) (p : Process σ) :
    (p.put c b w).reads = p.reads := by
  cases c <;> rfl

/-- Only the buffer of the channel is replaced. -/
theorem buffer_put (c c' : Channel) (b : Buffer) (w : World σ) (p : Process σ) :
    (p.put c b w).buffer c' = if c' = c then b else p.buffer c' := by
  cases c <;> cases c' <;> rfl

@[simp] theorem buffer_noteRead (c : Channel) (r : Read) (p : Process σ) :
    (noteRead r p).buffer c = p.buffer c := by
  cases c <;> rfl

section

variable (S : StrategyMethods σ ε) (lost : Method ε (σ × OrderBookManager) Unit)

/-- Whether an exception is caught as a lost connection. -/
def isLost : LoopError ε → Bool
  | .strategy e => S.isConnectionError e
  | _ => false

/-- What comes of a call of `_process_buffer` on a buffer. If a connection is lost, the buffer stays
as it was, and `lost` is what is done about it. -/
def settle (c : Channel) (b : Buffer) (p : Process σ) :
    EStateM.Result (LoopError ε) (World σ) (Buffer × Bool) →
      EStateM.Result (ProcessError ε) (Process σ) Unit
  | .ok (b', resync) w =>
    .ok () (noteRead ⟨c, b.filled, if resync then .resync else .finished⟩ (p.put c b' w))
  | .error e w =>
    if isLost S e then
      match World.onStrategy lost w with
      | .ok _ w' => .ok () (noteRead ⟨c, b.filled, .interrupted⟩ (p.put c b w'))
      | .error e' w' => .error (.loop e') (p.put c b w')
    else .error (.loop e) (p.put c b w)

/-- A read into the buffer of a channel, with at most a number of turns of `_process_buffer`. -/
def read (iterations : ℕ) (c : Channel) (datagram : Option (List UInt8)) (p : Process σ) :
    Option (EStateM.Result (ProcessError ε) (Process σ) Unit) :=
  if h : (p.buffer c).HasRoom then
    match datagram with
    | none => some (.ok () p)
    | some data =>
      let b := (p.buffer c).receive data h
      (World.processBuffer S iterations b p.world).map (settle S lost c b p)
  else some (.error .noRoom p)

/-- One event. In sync, what the snapshot channel sends is thrown away. -/
def poll (iterations : ℕ) (event : PollEvent) (p : Process σ) :
    Option (EStateM.Result (ProcessError ε) (Process σ) Unit) :=
  if event.channel = .snap ∧ p.world.synchronizer.sync = true then
    some (.ok () (if event.datagram.isSome then { p with snapBuf := p.snapBuf.emptied } else p))
  else read S lost iterations event.channel event.datagram p

/-- A run that nothing has ended yet. -/
inductive Runs : Process σ → List PollEvent → Process σ → Prop
  | nil (p : Process σ) : Runs p [] p
  | snoc {p p' p'' : Process σ} {events : List PollEvent} {event : PollEvent} {n : ℕ}
      (h : Runs p events p') (hpoll : poll S lost n event p' = some (.ok () p'')) :
      Runs p (events ++ [event]) p''

/-- What the socket of a channel has given. -/
def received (c : Channel) (events : List PollEvent) : List UInt8 :=
  events.flatMap fun event ↦
    if event.channel = c then (event.datagram.getD []).take MAX_UDP_PAYLOAD else []

/-- What a channel receives, in one run after another. -/
theorem received_append (c : Channel) (events events' : List PollEvent) :
    received c (events ++ events') = received c events ++ received c events' :=
  List.flatMap_append

end

variable {S : StrategyMethods σ ε} {lost : Method ε (σ × OrderBookManager) Unit}

/-! ### What an event does -/

/-- Everything that an event can do which does not end the run. -/
inductive Polled (S : StrategyMethods σ ε) (lost : Method ε (σ × OrderBookManager) Unit)
    (p : Process σ) (event : PollEvent) : Process σ → Prop
  | nothing (hdata : event.datagram = none) : Polled S lost p event p
  | drained {data : List UInt8} (hdata : event.datagram = some data)
      (hc : event.channel = .snap) (hs : p.world.synchronizer.sync = true) :
      Polled S lost p event { p with snapBuf := p.snapBuf.emptied }
  | gone {data : List UInt8} {b' : Buffer} {resync : Bool} {w' : World σ}
      (hdata : event.datagram = some data)
      (hc : event.channel = .snap → p.world.synchronizer.sync = false)
      (h : (p.buffer event.channel).HasRoom)
      (hends : Ends (World.turn S) ((p.buffer event.channel).receive data h).filled p.world
        (.ok ⟨b'.filled, resync⟩ w'))
      (hsize : b'.bytes.length = (p.buffer event.channel).bytes.length)
      (hle : b'.len ≤ ((p.buffer event.channel).receive data h).len) :
      Polled S lost p event (noteRead ⟨event.channel,
        ((p.buffer event.channel).receive data h).filled, if resync then .resync else .finished⟩
        (p.put event.channel b' w'))
  | lost {data : List UInt8} {e : LoopError ε} {w₁ w' : World σ}
      (hdata : event.datagram = some data)
      (hc : event.channel = .snap → p.world.synchronizer.sync = false)
      (h : (p.buffer event.channel).HasRoom)
      (hends : Ends (World.turn S) ((p.buffer event.channel).receive data h).filled p.world
        (.error e w₁)) (he : isLost S e = true) (hlost : World.onStrategy lost w₁ = .ok () w') :
      Polled S lost p event (noteRead ⟨event.channel,
        ((p.buffer event.channel).receive data h).filled, .interrupted⟩
        (p.put event.channel ((p.buffer event.channel).receive data h) w'))

/-- Receiving does not change the size of a buffer. -/
theorem length_bytes_receive (data : List UInt8) {b : Buffer} (h : b.HasRoom) :
    (b.receive data h).bytes.length = b.bytes.length := by
  have hroom : b.len + (data.take MAX_UDP_PAYLOAD).length ≤ b.bytes.length := by
    unfold Buffer.HasRoom at h
    rw [List.length_take]
    omega
  show (b.filled ++ data.take MAX_UDP_PAYLOAD ++ b.bytes.drop (b.len + _)).length = _
  rw [List.length_append, List.length_append, List.length_drop, Buffer.length_filled]
  omega

/-- **What an event does if it does not end the run.** -/
theorem poll_ok {n : ℕ} {event : PollEvent} {p p' : Process σ}
    (h : poll S lost n event p = some (.ok () p')) : Polled S lost p event p' := by
  rcases hdata : event.datagram with - | data
  · obtain rfl : p = p' := by
      unfold poll read at h
      rw [hdata] at h
      split at h
      · cases h
        rfl
      · split at h <;> cases h
        rfl
    exact .nothing hdata
  unfold poll at h
  split at h
  · rename_i hdrain
    rw [hdata] at h
    cases h
    exact .drained hdata hdrain.1 hdrain.2
  rename_i hread
  have hc (hsnap : event.channel = .snap) : p.world.synchronizer.sync = false :=
    Bool.eq_false_iff.2 fun hs ↦ hread ⟨hsnap, hs⟩
  unfold read at h
  split at h
  · rename_i hroom
    rw [hdata] at h
    obtain ⟨r, hr, hsettle⟩ := Option.map_eq_some_iff.1 h
    rcases r with ⟨⟨b', resync⟩, w'⟩ | ⟨e, w₁⟩
    · cases hsettle
      obtain ⟨hends, -, hle, hsize⟩ := World.filled_of_processBuffer S hr
      exact .gone hdata hc hroom hends (hsize.trans (length_bytes_receive data hroom)) hle
    · obtain ⟨r', hends, hr'⟩ := (World.processBuffer_eq_some_iff S).1 ⟨n, hr⟩
      rcases r' with ⟨stop, w⟩ | ⟨e', w⟩
      · cases hr'
      cases hr'
      unfold settle at hsettle
      dsimp only at hsettle
      split at hsettle
      · rename_i he
        split at hsettle
        · rename_i hlost
          cases hsettle
          exact .lost hdata hc hroom hends he hlost
        · cases hsettle
      · cases hsettle
  · cases h

theorem Polled.reads_subset {p p' : Process σ} {event : PollEvent}
    (h : Polled S lost p event p') : p.reads ⊆ p'.reads := by
  cases h with
  | nothing => exact fun _ hr ↦ hr
  | drained => exact fun _ hr ↦ hr
  | gone => exact fun _ hr ↦ List.mem_append_left _ (by rwa [reads_put])
  | lost => exact fun _ hr ↦ List.mem_append_left _ (by rwa [reads_put])

/-! ### Room for the next datagram -/

/-- A packet boundary stays one if more bytes come in behind. -/
theorem boundary_append {a rest : List UInt8} (h : World.Boundary a rest) (b : List UInt8) :
    World.Boundary (a ++ b) (rest ++ b) := by
  induction h with
  | start => exact .start
  | next _ hnext ih =>
    obtain ⟨hnext', -, hdrop⟩ := World.nextPacket_append hnext b
    rw [← hdrop]
    exact ih.next hnext'

/-- A boundary in what is left from a boundary on. -/
theorem boundary_trans {a b rest : List UInt8} (h : World.Boundary a b)
    (h' : World.Boundary b rest) : World.Boundary a rest := by
  induction h' with
  | start => exact h
  | next _ hnext ih => exact ih.next hnext

/-- A call that returns leaves the buffer at a packet boundary. -/
theorem boundary_of_gone {a : List UInt8} {stop : World.Stop} {w w' : World σ}
    (h : Ends (World.turn S) a w (.ok stop w')) :
    World.Boundary a stop.rest ∧ (stop.resync = false → World.nextPacket stop.rest = .ok none) := by
  obtain ⟨a', v, hreaches, hlast⟩ := h.exists_last
  obtain ⟨stop', v', hturn, hstop⟩ := hlast.resolve_right fun ⟨_, _, _, h⟩ ↦ by cases h
  cases hstop
  have hboundary := World.boundary_of_reaches hreaches
  rcases hnext : World.nextPacket a' with e | - | header
  · rw [World.turn_of_error hnext] at hturn
    cases hturn
  · rw [World.turn_of_none hnext] at hturn
    cases hturn
    exact ⟨hboundary, fun _ ↦ hnext⟩
  rw [World.turn_of_some hnext] at hturn
  rcases hrun : World.handlePacket S header (a'.take header.length) v with
    ⟨- | -, v'⟩ | ⟨e, v'⟩ <;> rw [hrun] at hturn <;> cases hturn
  exact ⟨hboundary.next hnext, fun h ↦ by cases h⟩

/-- The headers among some bytes announce no more than a datagram holds. -/
def Small (data : List UInt8) : Prop :=
  ∀ rest header, World.Boundary data rest → MDHeader.STRUCT_SIZE ≤ rest.length →
    MDHeader.ofData (rest.take MDHeader.STRUCT_SIZE) = .ok header →
    header.length ≤ MAX_UDP_PAYLOAD

/-- The front of bytes in small packets is in small packets. -/
theorem Small.of_append {a b : List UInt8} (h : Small (a ++ b)) : Small a := by
  intro rest header hboundary hsize hheader
  refine h (rest ++ b) header (boundary_append hboundary b) ?_ ?_
  · rw [List.length_append]
    omega
  · rwa [List.take_append_of_le_length hsize]

/-- An incomplete packet is shorter than a datagram. -/
theorem Small.length_lt {data rest : List UInt8} (h : Small data)
    (hboundary : World.Boundary data rest) (hnext : World.nextPacket rest = .ok none) :
    rest.length < MAX_UDP_PAYLOAD := by
  have hpayload : MDHeader.STRUCT_SIZE ≤ MAX_UDP_PAYLOAD := by decide
  by_cases hsize : rest.length < MDHeader.STRUCT_SIZE
  · omega
  unfold World.nextPacket at hnext
  rw [if_neg hsize, MarketData.bind_eq_ok_iff] at hnext
  obtain ⟨header, hheader, hnext⟩ := hnext
  have hsmall := h rest header hboundary (not_lt.1 hsize) hheader
  split at hnext
  · omega
  · cases hnext

/-- The reads on the live channel since the last one that was finished. -/
def unfinished (p : Process σ) : ℕ :=
  ((p.reads.filter fun r ↦ r.channel = .live).rtakeWhile fun r ↦ r.ending ≠ .finished).length

/-- What the live buffer holds begins at a packet boundary, and grows only by unfinished reads. -/
structure Roomy (events : List PollEvent) (p : Process σ) : Prop where
  size : p.liveBuf.bytes.length = BUFFER_SIZE
  boundary : World.Boundary (received .live events) p.liveBuf.filled
  len_lt : p.liveBuf.len < MAX_UDP_PAYLOAD * (p.unfinished + 1)

/-- A call on the live channel counts as interrupted, or ends the count. -/
theorem unfinished_noteRead (r : Read) (p : Process σ) :
    (noteRead r p).unfinished = if r.channel = .live then
      if r.ending = .finished then 0 else p.unfinished + 1 else p.unfinished := by
  unfold unfinished noteRead
  rw [List.filter_append]
  by_cases hlive : r.channel = .live
  · by_cases hfinished : r.ending = .finished
    · simp [hlive, hfinished]
    · simp [hlive, hfinished]
  · simp [hlive]

/-- Putting a buffer back does not count. -/
theorem unfinished_put (c : Channel) (b : Buffer) (w : World σ) (p : Process σ) :
    (p.put c b w).unfinished = p.unfinished := by
  cases c <;> rfl

/-- Nothing has happened to the live buffer. -/
theorem Roomy.frame {events : List PollEvent} {event : PollEvent} {p p' : Process σ}
    (h : Roomy events p) (hreceived : received .live [event] = [])
    (hbuffer : p'.liveBuf = p.liveBuf) (hunfinished : p'.unfinished = p.unfinished) :
    Roomy (events ++ [event]) p' := by
  refine ⟨?_, ?_, ?_⟩
  · rw [hbuffer]
    exact h.size
  · rw [received_append, hreceived, List.append_nil, hbuffer]
    exact h.boundary
  · rw [hbuffer, hunfinished]
    exact h.len_lt

/-- One event. What a finished call leaves is less than a packet, and another adds a datagram at the
most. -/
theorem Roomy.step {events : List PollEvent} {event : PollEvent} {p p' : Process σ}
    (h : Roomy events p) (hpoll : Polled S lost p event p')
    (hsmall : Small (received .live (events ++ [event]))) : Roomy (events ++ [event]) p' := by
  obtain ⟨c, datagram⟩ := event
  cases c with
  | snap =>
    cases hpoll with
    | nothing => exact h.frame rfl rfl rfl
    | drained => exact h.frame rfl rfl rfl
    | gone => exact h.frame rfl rfl ((unfinished_noteRead _ _).trans (unfinished_put _ _ _ _))
    | lost => exact h.frame rfl rfl ((unfinished_noteRead _ _).trans (unfinished_put _ _ _ _))
  | live =>
    have hheld {data : List UInt8} (hdata : datagram = some data) (hroom : p.liveBuf.HasRoom) :
        World.Boundary (received .live (events ++ [⟨.live, datagram⟩]))
            (p.liveBuf.receive data hroom).filled ∧
          (p.liveBuf.receive data hroom).len ≤ p.liveBuf.len + MAX_UDP_PAYLOAD := by
      have hreceived : received .live [⟨.live, datagram⟩] = data.take MAX_UDP_PAYLOAD := by
        simp [received, hdata]
      rw [received_append, hreceived, Buffer.filled_receive]
      refine ⟨boundary_append h.boundary _, ?_⟩
      show p.liveBuf.len + (data.take MAX_UDP_PAYLOAD).length ≤ _
      rw [List.length_take]
      omega
    have hlen := h.len_lt
    cases hpoll with
    | nothing hdata => exact h.frame (by cases hdata; rfl) rfl rfl
    | drained hdata hc => cases hc
    | @gone data b' resync w' hdata hc hroom hends hsize hle =>
      obtain ⟨hboundary, hgrown⟩ := hheld hdata hroom
      obtain ⟨hrest, hnext⟩ := boundary_of_gone hends
      refine ⟨hsize.trans h.size, boundary_trans hboundary hrest, ?_⟩
      have hle' : b'.len ≤ (p.liveBuf.receive data hroom).len := hle
      rw [unfinished_noteRead, unfinished_put, if_pos rfl]
      cases resync with
      | true =>
        show b'.len < MAX_UDP_PAYLOAD * (p.unfinished + 1 + 1)
        rw [Nat.mul_succ]
        omega
      | false =>
        show b'.len < MAX_UDP_PAYLOAD * 1
        rw [mul_one, ← Buffer.length_filled]
        exact hsmall.length_lt (boundary_trans hboundary hrest) (hnext rfl)
    | @lost data e w₁ w' hdata hc hroom hends he hseen =>
      obtain ⟨hboundary, hgrown⟩ := hheld hdata hroom
      refine ⟨(length_bytes_receive data hroom).trans h.size, hboundary, ?_⟩
      rw [unfinished_noteRead, unfinished_put, if_pos rfl]
      show (p.liveBuf.receive data hroom).len < MAX_UDP_PAYLOAD * (p.unfinished + 1 + 1)
      rw [Nat.mul_succ]
      omega

/-- **The live buffer does not run full**, unless many reads in a row are left unfinished: there is
room for the next datagram as long as these are no more than 41, and no header announces more than
a datagram holds. -/
theorem room_of_runs {w : World σ} {events : List PollEvent} {p : Process σ}
    (h : Runs S lost (start w) events p) (hsmall : Small (received .live events))
    (hfew : p.unfinished ≤ 41) : p.liveBuf.HasRoom := by
  suffices Roomy events p by
    have hlen := this.len_lt
    unfold Buffer.HasRoom
    rw [this.size]
    unfold MAX_UDP_PAYLOAD BUFFER_SIZE at *
    omega
  clear hfew
  induction h with
  | nil => exact ⟨List.length_replicate, .start, Nat.mul_pos (by decide) (Nat.succ_pos _)⟩
  | @snoc p' p'' events event n _ hpoll ih =>
    have hbefore : Small (received .live events) := (received_append .live _ _ ▸ hsmall).of_append
    exact (ih hbefore).step (poll_ok hpoll) hsmall

/-! ### A run that loses a connection -/

/-- A strategy that loses its connection whenever it is told anything. -/
def alwaysLosing : StrategyMethods Unit Unit where
  suspend := id
  resume := id
  onRawMessage _ _ := pure ()
  onTradeSummary _ _ := pure ()
  onMarketDataUpdate := throw ()
  isConnectionError _ := true

/-- A feed in sync that expects number 1, with a strategy. -/
def syncedWithStrategy : World Unit := ⟨World.synced.synchronizer, some ()⟩

/-- The heartbeat with number 1. -/
def heartbeatOne : List UInt8 :=
  [0x47, 0x4F, 0x49, 0x52, 0x49, 0x53, 0x48, 0x21, 23, 0, 1, 0, 0, 0] ++ List.replicate 9 0

/-- It arrives, and then something else does that is empty. -/
def heartbeatTwice : List PollEvent := [⟨.live, some heartbeatOne⟩, ⟨.live, some []⟩]

section

variable {n : ℕ} {data : List UInt8} {p : Process σ} {w₁ w' : World σ}

/-- A datagram whose handling loses the connection. -/
theorem poll_lost {e : LoopError ε} (h : p.liveBuf.HasRoom)
    (hturns : turns (World.turn S) n (p.liveBuf.filled ++ data.take MAX_UDP_PAYLOAD) p.world =
      some (.error e w₁)) (he : isLost S e = true) (hlost : World.onStrategy lost w₁ = .ok () w') :
    poll S lost n ⟨.live, some data⟩ p = some (.ok () (noteRead
      ⟨.live, (p.liveBuf.receive data h).filled, .interrupted⟩
      (p.put .live (p.liveBuf.receive data h) w'))) := by
  have hrun : World.processBuffer S n (p.liveBuf.receive data h) p.world =
      some (.error e w₁) := by
    unfold World.processBuffer
    rw [Buffer.filled_receive, hturns]
    rfl
  unfold poll read
  rw [if_neg fun h ↦ by cases h.1]
  refine (dif_pos h).trans ?_
  show (World.processBuffer S n (p.liveBuf.receive data h) p.world).map _ = _
  rw [hrun]
  show some (settle S lost .live _ p (.error e w₁)) = _
  unfold settle
  dsimp only
  rw [if_pos he, hlost]
  rfl

theorem poll_gone (lost : Method ε (σ × OrderBookManager) Unit) {rest : List UInt8}
    (h : p.liveBuf.HasRoom)
    (hturns : turns (World.turn S) n (p.liveBuf.filled ++ data.take MAX_UDP_PAYLOAD) p.world =
      some (.ok ⟨rest, false⟩ w')) :
    ∃ b', poll S lost n ⟨.live, some data⟩ p = some (.ok () (noteRead
      ⟨.live, (p.liveBuf.receive data h).filled, .finished⟩ (p.put .live b' w'))) := by
  have hrun : World.processBuffer S n (p.liveBuf.receive data h) p.world = some (.ok
      ((p.liveBuf.receive data h).compact ((p.liveBuf.receive data h).len - rest.length), false)
      w') := by
    unfold World.processBuffer
    rw [Buffer.filled_receive, hturns]
    rfl
  refine ⟨(p.liveBuf.receive data h).compact ((p.liveBuf.receive data h).len - rest.length), ?_⟩
  unfold poll read
  rw [if_neg fun h ↦ by cases h.1]
  refine (dif_pos h).trans ?_
  show (World.processBuffer S n (p.liveBuf.receive data h) p.world).map _ = _
  rw [hrun]
  rfl

end

theorem hasRoom_start (w : World σ) : (start w).liveBuf.HasRoom := by
  show 0 + MAX_UDP_PAYLOAD ≤ (List.replicate BUFFER_SIZE (0 : UInt8)).length
  rw [List.length_replicate]
  decide

/-- Both buffers are empty, and as large as at the start. -/
structure Cleared (p : Process σ) : Prop where
  filled (c : Channel) : (p.buffer c).filled = []
  size (c : Channel) : (p.buffer c).bytes.length = BUFFER_SIZE

/-- A new process has nothing in its buffers. -/
theorem cleared_start (w : World σ) : (start w).Cleared where
  filled c := by cases c <;> exact List.take_zero
  size c := by cases c <;> exact List.length_replicate

/-- A datagram that is gone through to its end leaves nothing behind. -/
theorem Cleared.poll {p : Process σ} (h : p.Cleared)
    (lost : Method ε (σ × OrderBookManager) Unit) {c : Channel} {data : List UInt8} {n : ℕ}
    {w' : World σ} (hlength : data.length ≤ MAX_UDP_PAYLOAD)
    (hsync : c = .snap → p.world.synchronizer.sync = false)
    (hturns : turns (World.turn S) n data p.world = some (.ok ⟨[], false⟩ w')) :
    ∃ p', poll S lost n ⟨c, some data⟩ p = some (.ok () p') ∧ p'.Cleared ∧ p'.world = w' ∧
      p'.reads = p.reads ++ [⟨c, data, .finished⟩] := by
  have hroom : (p.buffer c).HasRoom := by
    unfold Buffer.HasRoom
    rw [h.size, ← Buffer.length_filled, h.filled]
    decide
  have hfilled : ((p.buffer c).receive data hroom).filled = data := by
    rw [Buffer.filled_receive, h.filled, List.nil_append, List.take_of_length_le hlength]
  obtain ⟨b', hrun, hrest⟩ : ∃ b', World.processBuffer S n ((p.buffer c).receive data hroom)
      p.world = some (.ok (b', false) w') ∧ b'.filled = [] := by
    refine ⟨((p.buffer c).receive data hroom).compact
      ((p.buffer c).receive data hroom).len, ?_, ?_⟩
    · unfold World.processBuffer
      rw [hfilled, hturns]
      rfl
    · rw [Buffer.filled_compact, ← Buffer.length_filled, List.drop_length]
  obtain ⟨-, -, -, hsize⟩ := World.filled_of_processBuffer S hrun
  refine ⟨noteRead ⟨c, ((p.buffer c).receive data hroom).filled, .finished⟩ (p.put c b' w'),
    ?_, ⟨fun c' ↦ ?_, fun c' ↦ ?_⟩, world_put c b' w' p, ?_⟩
  · unfold Process.poll read
    rw [if_neg fun hdrain ↦ by simp [hsync hdrain.1] at hdrain]
    refine (dif_pos hroom).trans ?_
    show (World.processBuffer S n ((p.buffer c).receive data hroom) p.world).map _ = _
    rw [hrun]
    rfl
  · rw [buffer_noteRead, buffer_put]
    split
    · exact hrest
    · exact h.filled c'
  · rw [buffer_noteRead, buffer_put]
    split
    · exact hsize.trans ((length_bytes_receive data hroom).trans (h.size c))
    · exact h.size c'
  · rw [hfilled]
    show (p.put c b' w').reads ++ _ = _
    rw [reads_put]

/-- A datagram that is one packet. -/
structure OnePacket (header : MDHeader) (data : List UInt8) : Prop where
  next : World.nextPacket data = .ok (some header)
  length_eq : data.length = header.length
  le : data.length ≤ MAX_UDP_PAYLOAD

/-- A read of a packet of its own channel is marked as such. -/
theorem OnePacket.marked {header : MDHeader} {data : List UInt8} (h : OnePacket header data)
    {c : Channel} (hc : header.magicNumber = MAGIC_NUMBER ↔ c = .live) (ending : Ending) :
    Read.Marked ⟨c, data, ending⟩ := by
  have hrest {rest : List UInt8} (hboundary : World.Boundary data rest) :
      rest = data ∨ rest = [] := by
    induction hboundary with
    | start => exact Or.inl rfl
    | next _ hnext ih =>
      rcases ih with rfl | rfl
      · cases h.next.symm.trans hnext
        exact Or.inr (List.drop_eq_nil_of_le h.length_eq.le)
      · cases hnext
  intro rest header' hboundary hnext
  rcases hrest hboundary with rfl | rfl
  · cases h.next.symm.trans hnext
    exact hc
  · cases hnext

/-- The first call is interrupted behind the heartbeat, and the second one skips it. -/
theorem exists_runs_heartbeatTwice :
    ∃ p, Runs alwaysLosing (pure ()) (start syncedWithStrategy) heartbeatTwice p ∧
      p.reads = [⟨.live, heartbeatOne, .interrupted⟩, ⟨.live, heartbeatOne, .finished⟩] := by
  obtain ⟨w₁, hfirst, w', hlost, hsecond⟩ : ∃ w₁,
      turns (World.turn alwaysLosing) 1 heartbeatOne syncedWithStrategy =
        some (.error (.strategy ()) w₁) ∧
      ∃ w', World.onStrategy (pure ()) w₁ = .ok () w' ∧
        turns (World.turn alwaysLosing) 2 heartbeatOne w' = some (.ok ⟨[], false⟩ w') :=
    ⟨_, rfl, _, rfl, rfl⟩
  have hsize : (start syncedWithStrategy).liveBuf.bytes.length = BUFFER_SIZE :=
    List.length_replicate
  have hroom := hasRoom_start syncedWithStrategy
  have hheld : ((start syncedWithStrategy).liveBuf.receive heartbeatOne hroom).filled =
      heartbeatOne := Buffer.filled_receive heartbeatOne hroom
  have hfirst' : turns (World.turn alwaysLosing) 1
      ((start syncedWithStrategy).liveBuf.filled ++ heartbeatOne.take MAX_UDP_PAYLOAD)
        (start syncedWithStrategy).world = some (.error (.strategy ()) w₁) := hfirst
  have hpoll := poll_lost hroom hfirst' rfl hlost
  have hsize' := (length_bytes_receive heartbeatOne hroom).trans hsize
  generalize (start syncedWithStrategy).liveBuf.receive heartbeatOne hroom = held at *
  have hroom' : held.HasRoom := by
    unfold Buffer.HasRoom
    rw [hsize', ← Buffer.length_filled, hheld]
    decide
  have hheld' : (held.receive [] hroom').filled = heartbeatOne :=
    (Buffer.filled_receive [] hroom').trans (by rw [hheld]; rfl)
  have hsecond' : turns (World.turn alwaysLosing) 2
      (held.filled ++ ([] : List UInt8).take MAX_UDP_PAYLOAD) w' =
        some (.ok ⟨[], false⟩ w') := by
    rw [hheld]
    exact hsecond
  obtain ⟨b', hpoll'⟩ := poll_gone (S := alwaysLosing) (pure ())
    (p := noteRead ⟨.live, held.filled, .interrupted⟩
      ((start syncedWithStrategy).put .live held w')) hroom' hsecond'
  refine ⟨_, .snoc (.snoc (.nil _) hpoll) hpoll', ?_⟩
  show [Read.mk .live held.filled .interrupted,
    Read.mk .live (held.receive [] hroom').filled .finished] = _
  rw [hheld, hheld']

/-- The boundaries of a heartbeat are its two ends. -/
theorem boundary_heartbeatOne {rest : List UInt8} (h : World.Boundary heartbeatOne rest) :
    rest = heartbeatOne ∨ rest = [] := by
  induction h with
  | start => exact Or.inl rfl
  | next _ hnext ih =>
    rcases ih with rfl | rfl <;> cases hnext
    exact Or.inr rfl

/-- A heartbeat is a packet of the live channel. -/
theorem marked_heartbeatOne (ending : Ending) : Read.Marked ⟨.live, heartbeatOne, ending⟩ := by
  intro rest header hboundary hnext
  refine iff_of_true ?_ rfl
  rcases boundary_heartbeatOne hboundary with rfl | rfl <;> cases hnext
  rfl

/-- A heartbeat whose handling is interrupted, and a read behind it: there is room for more. -/
theorem room_of_runs_heartbeatTwice :
    ∃ p : Process Unit, p.reads.length = 2 ∧ p.liveBuf.HasRoom := by
  obtain ⟨p, hruns, hreads⟩ := exists_runs_heartbeatTwice
  refine ⟨p, by rw [hreads]; rfl, room_of_runs hruns ?_ ?_⟩
  · intro rest header hboundary hsize hheader
    rcases boundary_heartbeatOne hboundary with rfl | rfl
    · cases hheader
      decide
    · cases hsize
  · unfold unfinished
    rw [hreads]
    decide

end Process

end HftTrading
