import HftTrading.Feed.Again
import HftTrading.Feed.Process

/-!
# Each packet is handled once

A call of `_process_buffer` that a lost connection has interrupted is followed by one that goes
through the same bytes from the front. What has been handled is handled again, which comes to
nothing, because the numbers are behind by now. So **each byte of the live channel is handled once,
in order**, however it is cut into datagrams, and whatever the strategy raises (`handled_once`).

## What is handled, and in which order

`Cuts` takes the bytes of a channel apart into packets, the bytes that a resync throws away, and
what has not been consumed. `Handles` is a run over such pieces of both channels, one after the
other, in which each packet is handled from the state that the piece before has left. The statement
is that a run of the process is one such run over the bytes it has received, with pieces that cut
these bytes exactly.

## Why an interruption does no harm

An interrupted call leaves its buffer as it was. It was in sync when it was interrupted, because
only live packets are told to the strategy and only in sync, so every packet it has gone past is
skipped from then on. For the statement, the call is therefore taken to have handled what it has
handled, and the next call to start where it was interrupted. The invariant keeps this point as a
packet boundary within the bytes that the buffer still holds.
-/

namespace HftTrading

open MarketData Method

namespace Process

variable {σ ε : Type}

section

variable (S : StrategyMethods σ ε) (lost : Method ε (σ × OrderBookManager) Unit)

/-! ### What happens to the bytes -/

/-- What becomes of some bytes: they are handled as a packet, or thrown away. -/
inductive Piece
  | packet (header : MDHeader) (bytes : List UInt8)
  | discard (bytes : List UInt8)

/-- **The bytes of a channel are cut into pieces**, and some are left: each packet is as long as its
header says. -/
inductive Cuts : List UInt8 → List Piece → List UInt8 → Prop
  | nil (rest : List UInt8) : Cuts rest [] rest
  | packet {data rest : List UInt8} {header : MDHeader} {pieces : List Piece}
      (hnext : World.nextPacket data = .ok (some header))
      (h : Cuts (data.drop header.length) pieces rest) :
      Cuts data (.packet header (data.take header.length) :: pieces) rest
  | discard {data rest : List UInt8} (bytes : List UInt8) {pieces : List Piece}
      (h : Cuts data pieces rest) : Cuts (bytes ++ data) (.discard bytes :: pieces) rest

namespace Cuts

variable {data rest : List UInt8} {pieces : List Piece}

/-- More bytes are left if more arrive. -/
theorem append (h : Cuts data pieces rest) (more : List UInt8) :
    Cuts (data ++ more) pieces (rest ++ more) := by
  induction h with
  | nil rest => exact .nil _
  | packet hnext _ ih =>
    obtain ⟨hnext', htake, hdrop⟩ := World.nextPacket_append hnext more
    rw [← htake]
    exact .packet hnext' (hdrop ▸ ih)
  | discard bytes _ ih =>
    rw [List.append_assoc]
    exact .discard bytes ih

/-- Cutting goes on where it has stopped. -/
theorem trans {rest' : List UInt8} {pieces' : List Piece} (h : Cuts data pieces rest)
    (h' : Cuts rest pieces' rest') : Cuts data (pieces ++ pieces') rest' := by
  induction h with
  | nil rest => exact h'
  | packet hnext _ ih => exact .packet hnext (ih h')
  | discard bytes _ ih => exact .discard bytes (ih h')

end Cuts

/-- The pieces of a channel. -/
def piecesOf (c : Channel) (items : List (Channel × Piece)) : List Piece :=
  (items.filter fun item ↦ item.1 = c).map Prod.snd

/-- **What is done packet by packet**: each is handled, a connection that this loses is seen to, and
some of what the snapshot channel sends is thrown away. -/
inductive Handles : World σ → List (Channel × Piece) → World σ → Prop
  | nil (w : World σ) : Handles w [] w
  | packet {w w' w'' : World σ} {items : List (Channel × Piece)} {header : MDHeader}
      {bytes : List UInt8} {goOn : Bool} (c : Channel)
      (hrun : World.handlePacket S header bytes w = .ok goOn w') (h : Handles w' items w'') :
      Handles w ((c, .packet header bytes) :: items) w''
  | lost {w w₁ w' w'' : World σ} {items : List (Channel × Piece)} {header : MDHeader}
      {bytes : List UInt8} {e : LoopError ε} (c : Channel)
      (hrun : World.handlePacket S header bytes w = .error e w₁) (he : isLost S e = true)
      (hlost : World.onStrategy lost w₁ = .ok () w') (h : Handles w' items w'') :
      Handles w ((c, .packet header bytes) :: items) w''
  | discard {w w' : World σ} {items : List (Channel × Piece)} (bytes : List UInt8)
      (h : Handles w items w') : Handles w ((.snap, .discard bytes) :: items) w'

variable {S lost} in
theorem Handles.trans {w w' w'' : World σ} {items items' : List (Channel × Piece)}
    (h : Handles S lost w items w') (h' : Handles S lost w' items' w'') :
    Handles S lost w (items ++ items') w'' := by
  induction h with
  | nil => exact h'
  | packet c hrun _ ih => exact .packet c hrun (ih h')
  | lost c hrun he hlost _ ih => exact .lost c hrun he hlost (ih h')
  | discard bytes _ ih => exact .discard bytes (ih h')

end

variable {S : StrategyMethods σ ε} {lost : Method ε (σ × OrderBookManager) Unit}

/-! ### Nothing is handled twice -/

section

variable (lost)

/-- What a run of the loop goes past, is handled. -/
theorem exists_pieces {a a' : List UInt8} {w w' : World σ}
    (h : Reaches (World.turn S) a w a' w') (c : Channel) :
    ∃ pieces, Cuts a pieces a' ∧ Handles S lost w (pieces.map fun piece ↦ (c, piece)) w' := by
  induction h with
  | refl b w => exact ⟨[], .nil b, .nil w⟩
  | again hturn _ ih =>
    obtain ⟨header, hnext, hrun, rfl⟩ := World.turn_again_iff.1 hturn
    obtain ⟨pieces, hcuts, hhandles⟩ := ih
    exact ⟨_, .packet hnext hcuts, .packet c hrun hhandles⟩

/-- A call that returns leaves packets behind only after a book error. -/
theorem exists_pieces_of_gone {a : List UInt8} {stop : World.Stop} {w w' : World σ}
    (h : Ends (World.turn S) a w (.ok stop w')) (c : Channel) :
    ∃ pieces, Cuts a pieces stop.rest ∧
      Handles S lost w (pieces.map fun piece ↦ (c, piece)) w' ∧
      (stop.resync = false → World.nextPacket stop.rest = .ok none) := by
  obtain ⟨a', v, hreaches, hlast⟩ := h.exists_last
  obtain ⟨stop', v', hturn, hstop⟩ := hlast.resolve_right fun ⟨_, _, _, h⟩ ↦ by cases h
  cases hstop
  obtain ⟨pieces, hcuts, hhandles⟩ := exists_pieces lost hreaches c
  rcases hnext : World.nextPacket a' with e | - | header
  · rw [World.turn_of_error hnext] at hturn
    cases hturn
  · rw [World.turn_of_none hnext] at hturn
    cases hturn
    exact ⟨pieces, hcuts, hhandles, fun _ ↦ hnext⟩
  rw [World.turn_of_some hnext] at hturn
  rcases hrun : World.handlePacket S header (a'.take header.length) v with
    ⟨- | -, v'⟩ | ⟨e, v'⟩ <;> rw [hrun] at hturn <;> cases hturn
  refine ⟨_, hcuts.trans (.packet hnext (.nil _)), ?_, fun h ↦ by cases h⟩
  rw [List.map_append]
  exact hhandles.trans (.packet c hrun (.nil _))

end

/-- A lost connection stops the call behind the packet that lost it, and in sync the next call comes
there again, having changed nothing. -/
theorem exists_pieces_of_lost {a : List UInt8} {e : LoopError ε} {w w₁ w' : World σ}
    (h : Ends (World.turn S) a w (.error e w₁)) (he : isLost S e = true)
    (hlost : World.onStrategy lost w₁ = .ok () w') (c : Channel) :
    ∃ pieces rest, Cuts a pieces rest ∧
      Handles S lost w (pieces.map fun piece ↦ (c, piece)) w' ∧
      (w.synchronizer.sync = true → World.FurtherOn w.synchronizer w'.synchronizer ∧
        Reaches (World.turn S) a w' rest w') := by
  obtain ⟨a', v, hreaches, hlast⟩ := h.exists_last
  obtain ⟨e', v', hturn, herror⟩ := hlast.resolve_left fun ⟨_, _, _, h⟩ ↦ by cases h
  cases herror
  obtain ⟨pieces, hcuts, hhandles⟩ := exists_pieces lost hreaches c
  rcases hnext : World.nextPacket a' with e | - | header
  · rw [World.turn_of_error hnext] at hturn
    cases hturn
    cases he
  · rw [World.turn_of_none hnext] at hturn
    cases hturn
  rw [World.turn_of_some hnext] at hturn
  rcases hrun : World.handlePacket S header (a'.take header.length) v with
    ⟨- | -, v'⟩ | ⟨e', v'⟩ <;> rw [hrun] at hturn <;> cases hturn
  refine ⟨_, _, hcuts.trans (.packet hnext (.nil _)), ?_, fun hs ↦ ?_⟩
  · rw [List.map_append]
    exact hhandles.trans (.lost c hrun he hlost (.nil _))
  obtain ⟨hfurther, hagain⟩ := World.reaches_again hreaches hs
  have hpacket :=
    World.furtherOn_handlePacket (S := S) header (a'.take header.length) hfurther.sync v rfl
  rw [hrun] at hpacket
  -- what is done about the lost connection leaves the tracker alone
  have hkept := World.tracking_onStrategy (J := fun sync tracker ↦
    sync = w₁.synchronizer.sync ∧ tracker = w₁.synchronizer.seqTracker) lost w₁ ⟨rfl, rfl⟩
  rw [after, hlost] at hkept
  have hrest : World.FurtherOn w₁.synchronizer w'.synchronizer := by
    refine ⟨hkept.1.trans hpacket.1.sync, ?_⟩
    rintro seqNum ⟨expected, hexpected, hlt⟩
    exact ⟨expected, (congrArg SequenceTracker.expectedSeq hkept.2).trans hexpected, hlt⟩
  refine ⟨hfurther.trans (hpacket.1.trans hrest), (hagain w' (hpacket.1.trans hrest)).trans ?_⟩
  have hskip := World.handlePacket_of_skipped S (hpacket.2.furtherOn hrest)
  exact .again (World.turn_again_iff.2 ⟨header, hnext, hskip _, rfl⟩) (.refl _ _)

/-- Out of sync, going through live bytes only buffers them. -/
theorem not_sync_of_marked {r : Read} (hmarked : r.Marked) (hlive : r.channel = .live)
    {a' : List UInt8} {w w' : World σ} (h : Reaches (World.turn S) r.bytes w a' w')
    (hs : w.synchronizer.sync = false) : w'.synchronizer.sync = false := by
  suffices ∀ a, World.Boundary r.bytes a → Reaches (World.turn S) a w a' w' →
      w'.synchronizer.sync = false from this r.bytes .start h
  intro a hboundary hreaches
  clear h
  induction hreaches with
  | refl => exact hs
  | @again b b' b'' w w₁ w' hturn _ ih =>
    obtain ⟨header, hnext, hrun, rfl⟩ := World.turn_again_iff.1 hturn
    have hmagic := (hmarked b header hboundary hnext).2 hlive
    exact ih (World.not_sync_handlePacket hmagic hs hrun) (hboundary.next hnext)

/-- A call is only interrupted in sync, and on the live channel. -/
theorem interrupted_of_marked {r : Read} (hmarked : r.Marked) {w w₁ : World σ} {e : LoopError ε}
    (h : Ends (World.turn S) r.bytes w (.error e w₁)) (he : isLost S e = true) :
    r.channel = .live ∧ w.synchronizer.sync = true := by
  obtain ⟨a', v, hreaches, hlast⟩ := h.exists_last
  obtain ⟨e', v', hturn, herror⟩ := hlast.resolve_left fun ⟨_, _, _, h⟩ ↦ by cases h
  cases herror
  rcases hnext : World.nextPacket a' with e | - | header
  · rw [World.turn_of_error hnext] at hturn
    cases hturn
    cases he
  · rw [World.turn_of_none hnext] at hturn
    cases hturn
  rw [World.turn_of_some hnext] at hturn
  rcases hrun : World.handlePacket S header (a'.take header.length) v with
    ⟨- | -, v'⟩ | ⟨e', v'⟩ <;> rw [hrun] at hturn <;> cases hturn
  cases e with
  | strategy e =>
    obtain ⟨hmagic, hs⟩ := World.live_of_handlePacket_strategy hrun
    have hlive := (hmarked a' header (World.boundary_of_reaches hreaches) hnext).1 hmagic
    refine ⟨hlive, ?_⟩
    by_contra hnot
    -- out of sync, the live packets before it would have left it so
    have hunsynced := not_sync_of_marked hmarked hlive hreaches (Bool.eq_false_iff.2 hnot)
    exact absurd (hs.symm.trans hunsynced) Bool.noConfusion
  | parse e => cases he
  | feed e => cases he

/-- The last read of a channel was finished, if there was any. -/
def Settled (c : Channel) (p : Process σ) : Prop :=
  ∀ r ∈ (p.reads.filter fun r ↦ r.channel = c).getLast?, r.ending = .finished

/-- **What has been handled, and what is still to come.** The buffers hold what is to come, except
that after a lost connection the live one still holds what was handled in the interrupted calls. -/
structure Progress (S : StrategyMethods σ ε) (lost : Method ε (σ × OrderBookManager) Unit)
    (w : World σ) (events : List PollEvent) (p : Process σ) (items : List (Channel × Piece))
    (pending : Channel → List UInt8) : Prop where
  handles : Handles S lost w items p.world
  cuts : ∀ c, Cuts (received c events) (piecesOf c items) (pending c)
  held : ∀ c, (p.buffer c).filled = pending c ∨ c = .live ∧ p.world.synchronizer.sync = true ∧
    Reaches (World.turn S) (p.buffer c).filled p.world (pending c) p.world
  settled : ∀ c, p.Settled c → World.nextPacket (pending c) = .ok none

/-- The pieces of a channel, of one run after another. -/
theorem piecesOf_append (c : Channel) (items items' : List (Channel × Piece)) :
    piecesOf c (items ++ items') = piecesOf c items ++ piecesOf c items' := by
  unfold piecesOf
  rw [List.filter_append, List.map_append]

/-- The pieces of one channel are of that channel. -/
theorem piecesOf_map (c c' : Channel) (pieces : List Piece) :
    piecesOf c (pieces.map fun piece ↦ (c', piece)) = if c' = c then pieces else [] := by
  unfold piecesOf
  split_ifs with h
  · simp [List.filter_map, Function.comp_def, h]
  · simp [List.filter_map, Function.comp_def, h]

section

variable {w : World σ} {events : List PollEvent} {event : PollEvent} {p p' : Process σ}
  {items : List (Channel × Piece)} {pending : Channel → List UInt8}

/-- The call that goes through what is held comes to what is still to come. -/
theorem Progress.reaches (h : Progress S lost w events p items pending) (c : Channel)
    (more : List UInt8) :
    Reaches (World.turn S) ((p.buffer c).filled ++ more) p.world (pending c ++ more) p.world := by
  rcases h.held c with heq | ⟨-, -, hreaches⟩
  · rw [heq]
    exact .refl _ _
  · exact World.reaches_append hreaches more

/-- Some bytes have been gone through behind what was to come. -/
theorem Progress.gone (h : Progress S lost w events p items pending) {data rest : List UInt8}
    (hdata : event.datagram = some data) {pieces : List Piece} {w' : World σ} {b : Buffer}
    {bytes : List UInt8} {ending : Ending}
    (hc : event.channel = .snap → p.world.synchronizer.sync = false)
    (hcuts : Cuts (pending event.channel ++ data.take MAX_UDP_PAYLOAD) pieces rest)
    (hhandles : Handles S lost p.world (pieces.map fun piece ↦ (event.channel, piece)) w')
    (hheld : b.filled = rest ∨ event.channel = .live ∧ w'.synchronizer.sync = true ∧
      Reaches (World.turn S) b.filled w' rest w')
    (hsettled : ending = .finished → World.nextPacket rest = .ok none) :
    Progress S lost w (events ++ [event])
      (noteRead ⟨event.channel, bytes, ending⟩ (p.put event.channel b w'))
      (items ++ pieces.map fun piece ↦ (event.channel, piece))
      (Function.update pending event.channel rest) := by
  have hreceived (c : Channel) : received c [event] =
      if event.channel = c then data.take MAX_UDP_PAYLOAD else [] := by
    simp [received, hdata]
  refine ⟨?_, fun c ↦ ?_, fun c ↦ ?_, fun c hlast ↦ ?_⟩
  · exact h.handles.trans (by simpa [noteRead] using hhandles)
  · rw [received_append, hreceived, piecesOf_append, piecesOf_map]
    by_cases hchannel : event.channel = c
    · subst hchannel
      rw [if_pos rfl, if_pos rfl, Function.update_self]
      exact ((h.cuts _).append _).trans hcuts
    · rw [if_neg hchannel, if_neg hchannel, Function.update_of_ne (Ne.symm hchannel),
        List.append_nil, List.append_nil]
      exact h.cuts c
  · rw [buffer_noteRead, buffer_put]
    by_cases hchannel : event.channel = c
    · subst hchannel
      rw [if_pos rfl, Function.update_self]
      simpa [noteRead] using hheld
    · rw [if_neg (Ne.symm hchannel), Function.update_of_ne (Ne.symm hchannel)]
      -- in sync, nothing is read on the snapshot channel
      refine (h.held c).imp id fun hlive ↦ ?_
      obtain ⟨hlive, hs, -⟩ := hlive
      rcases hevent : event.channel with - | -
      · exact absurd (hevent.trans hlive.symm) hchannel
      · exact absurd (hs.symm.trans (hc hevent)) Bool.noConfusion
  · by_cases hchannel : event.channel = c
    · subst hchannel
      rw [Function.update_self]
      refine hsettled (hlast ⟨event.channel, bytes, ending⟩ ?_)
      simp [noteRead, List.filter_append]
    · rw [Function.update_of_ne (Ne.symm hchannel)]
      refine h.settled c fun r hr ↦ hlast r ?_
      simpa [noteRead, List.filter_append, hchannel] using hr

/-- One event. -/
theorem Progress.step (h : Progress S lost w events p items pending)
    (hpoll : Polled S lost p event p')
    (hmarked : ∀ r ∈ p'.reads, r.Marked) :
    ∃ items' pending', Progress S lost w (events ++ [event]) p' items' pending' := by
  cases hpoll with
  | nothing hdata =>
    refine ⟨items, pending, h.handles, fun c ↦ ?_, h.held, h.settled⟩
    have hreceived : received c [event] = [] := by simp [received, hdata]
    rw [received_append, hreceived, List.append_nil]
    exact h.cuts c
  | @drained data hdata hc hs =>
    have hreceived (c : Channel) : received c [event] =
        if Channel.snap = c then data.take MAX_UDP_PAYLOAD else [] := by
      simp [received, hdata, hc]
    refine ⟨items ++ [(.snap, .discard (pending .snap ++ data.take MAX_UDP_PAYLOAD))],
      Function.update pending .snap [], ?_, fun c ↦ ?_, fun c ↦ ?_, fun c hlast ↦ ?_⟩
    · exact h.handles.trans (.discard _ (.nil _))
    · rw [received_append, hreceived, piecesOf_append]
      cases c with
      | live =>
        rw [if_neg (by decide), Function.update_of_ne (by decide), List.append_nil]
        exact (h.cuts .live).trans (.nil _)
      | snap =>
        rw [if_pos rfl, Function.update_self]
        have hdiscard := Cuts.discard (pending .snap ++ data.take MAX_UDP_PAYLOAD) (.nil [])
        rw [List.append_nil] at hdiscard
        exact ((h.cuts .snap).append _).trans hdiscard
    · cases c with
      | live => exact h.held .live
      | snap => exact Or.inl (Buffer.filled_emptied _)
    · cases c with
      | live => exact h.settled .live hlast
      | snap =>
        rw [Function.update_self]
        rfl
  | @gone data b' resync w' hdata hc hroom hends _ _ =>
    rw [Buffer.filled_receive] at hends
    obtain ⟨pieces, hcuts, hhandles, hnext⟩ :=
      exists_pieces_of_gone lost ((h.reaches _ _).ends hends) event.channel
    refine ⟨_, _, h.gone hdata hc hcuts hhandles (Or.inl rfl) fun hfinished ↦ hnext ?_⟩
    cases resync with
    | false => rfl
    | true => cases hfinished
  | @lost data e w₁ w' hdata hc hroom hends he hseen =>
    obtain ⟨hlive, hs⟩ :=
      interrupted_of_marked (hmarked _ (List.mem_append_right _ (List.mem_singleton_self _)))
        hends he
    have hfilled := Buffer.filled_receive data hroom
    rw [hfilled] at hends
    have hreaches := h.reaches event.channel (data.take MAX_UDP_PAYLOAD)
    obtain ⟨pieces, rest, hcuts, hhandles, hskips⟩ :=
      exists_pieces_of_lost (hreaches.ends hends) he hseen event.channel
    obtain ⟨hfurther, hrest⟩ := hskips hs
    refine ⟨_, _, h.gone hdata hc hcuts hhandles (Or.inr ⟨hlive, hfurther.sync, ?_⟩)
      fun hfinished ↦ by cases hfinished⟩
    rw [hfilled]
    exact ((World.reaches_again hreaches hs).2 w' hfurther).trans hrest

end

/-- A run. -/
theorem progress_of_runs {w : World σ} {events : List PollEvent} {p : Process σ}
    (h : Runs S lost (start w) events p) (hmarked : ∀ r ∈ p.reads, r.Marked) :
    ∃ items pending, Progress S lost w events p items pending := by
  induction h with
  | nil =>
    exact ⟨[], fun _ ↦ [], .nil w, fun _ ↦ .nil [], fun c ↦ Or.inl (by cases c <;> rfl),
      fun _ _ ↦ rfl⟩
  | @snoc p' p'' events event n _ hpoll ih =>
    have hpolled := poll_ok hpoll
    obtain ⟨items, pending, hprogress⟩ :=
      ih fun r hr ↦ hmarked r (hpolled.reads_subset hr)
    exact hprogress.step hpolled hmarked

/-- **Each byte of the live channel is handled once, in order**, and those of the snapshot channel
are, or are thrown away: what a run of the process comes to, is what comes of handling packet by
packet that which each channel has given. Unless the last call on a channel was interrupted or left
by a resync, all complete packets have been handled. -/
theorem handled_once {w : World σ} {events : List PollEvent} {p : Process σ}
    (h : Runs S lost (start w) events p) (hmarked : ∀ r ∈ p.reads, r.Marked) :
    ∃ (items : List (Channel × Piece)) (pending : Channel → List UInt8),
      Handles S lost w items p.world ∧
      (∀ c, Cuts (received c events) (piecesOf c items) (pending c)) ∧
      ∀ c, p.Settled c → World.nextPacket (pending c) = .ok none := by
  obtain ⟨items, pending, hprogress⟩ := progress_of_runs h hmarked
  exact ⟨items, pending, hprogress.handles, hprogress.cuts, hprogress.settled⟩

/-- A heartbeat whose handling is interrupted, and a read behind it: it is handled once. -/
theorem handled_once_heartbeatTwice :
    ∃ (p : Process Unit) (items : List (Channel × Piece)) (pending : Channel → List UInt8),
      Handles alwaysLosing (pure ()) syncedWithStrategy items p.world ∧
      (∀ c, Cuts (received c heartbeatTwice) (piecesOf c items) (pending c)) ∧
      ∀ c, p.Settled c → World.nextPacket (pending c) = .ok none := by
  obtain ⟨p, hruns, hreads⟩ := exists_runs_heartbeatTwice
  refine ⟨p, handled_once hruns fun r hr ↦ ?_⟩
  rw [hreads, List.mem_cons, List.mem_singleton] at hr
  rcases hr with rfl | rfl
  · exact marked_heartbeatOne _
  · exact marked_heartbeatOne _

end Process

end HftTrading
