import HftTrading.Feed.Unaffected
import HftTrading.Strategy.Apart
import HftTrading.Strategy.Gate

/-!
# The strategy only reads the books

Whatever the strategy does, quoting, going flat, spoofing or trading the ETF, of the manager it only
reads best prices. So the feed is what it would be without it (`runs_undisturbed`).

That the feed does not depend on a strategy which only reads is a fact about the packet loop, for
any such strategy. Here it is shown that this one is such: a read leaves books that nobody can tell
from unread ones, and every part of the strategy is made of such reads and of steps that do not
touch the manager at all. The same holds of what is done about a lost connection.
-/

namespace HftTrading.Strategy

open OrderEntry Method OrderStrategy
open MarketData (MDHeader MarketDataMessage TradeSummary)

variable {ω : Type} (O : Outside ω)

/-- **Every part of a run leaves the books unread to all appearances.** -/
theorem beside_keptByRunParts (m' : OrderBookManager) :
    KeptByRunParts O (Apart fun _ m ↦ OrderBookManager.Beside m m') :=
  apart_keptByRunParts (fun _ _ hx ↦ hx) fun _ symbol side ↦
    OrderBookManager.Beside.read symbol side

/-- So do the methods that the packet loop calls. -/
theorem readsOnly_methods : World.ReadsOnly (methods O) where
  returns _ _ _ _ := trivial
  onRawMessage _ _ _ _ hx := hx
  onTradeSummary _ _ _ _ hx := hx
  onMarketDataUpdate m' := (beside_keptByRunParts O m').onMarketDataUpdate trivial

include O in
theorem reads_connectionLost : World.Reads (connectionLost (ω := ω)) := fun m' ↦
  (beside_keptByRunParts O m').connectionLost

/-- **The feed of a process that trades** is the feed alone: whatever the strategy, from whatever
state, does with what it is told, whatever it raises and whatever connections it loses, the
synchronizer comes to what the packets of the channels make of it, each taken once and in order, but
for the heaps of the books. -/
theorem runs_undisturbed (totalSymbols : ℕ) (s : OrderStrategy ω) {events : List PollEvent}
    {p : Process (OrderStrategy ω)}
    (h : Process.Runs (methods O) connectionLost (.start ⟨.start totalSymbols, some s⟩) events p)
    (hmarked : ∀ r ∈ p.reads, r.Marked) :
    ∃ (items : List (Channel × Process.Piece)) (pending : Channel → List UInt8)
      (z : SnapShotSynchronizer),
      (∀ c, Process.Cuts (Process.received c events) (Process.piecesOf c items) (pending c)) ∧
      SnapShotSynchronizer.runEvents (Process.eventsOf items) (.start totalSymbols) = .ok () z ∧
      SnapShotSynchronizer.Beside p.world.synchronizer z :=
  Process.feed_unaffected (readsOnly_methods O) (reads_connectionLost O)
    OrderBookManager.books_init h hmarked

/-! ### A run in which the books are read -/

/-- The prices of the book, and a seller who is aggressive: the bid goes one tick behind the best
one, and no ask is wanted. -/
def behind : Outside Unit where
  monotonic w := (0, w)
  attempts _ := 1
  signals _ tick bid ask _ w := (some ⟨bid.1, ask.1, bid.1 - tick, ask.1 + tick, false, true⟩, w)
  onRawMessage _ _ _ w := w
  onTradeSummary _ _ w := w
  post _ w := (.otherException, w)

/-- The world after a call on some bytes, if two turns are enough. -/
def worldAfter (data : List UInt8) (w : World (OrderStrategy Unit)) :
    World (OrderStrategy Unit) :=
  match turns (World.turn (methods behind)) 2 data w with
  | some (.ok _ w') | some (.error _ w') => w'
  | none => w

/-- Whether the call goes through the bytes to their end. -/
def finishes (data : List UInt8) (w : World (OrderStrategy Unit)) : Bool :=
  match turns (World.turn (methods behind)) 2 data w with
  | some (.ok stop _) => stop = ⟨[], false⟩
  | _ => false

/-- A packet that is seen to be gone through is gone through. -/
theorem turns_of_finishes {data : List UInt8} {w : World (OrderStrategy Unit)}
    (h : finishes data w = true) :
    turns (World.turn (methods behind)) 2 data w = some (.ok ⟨[], false⟩ (worldAfter data w)) := by
  unfold finishes at h
  unfold worldAfter
  rcases hturns : turns (World.turn (methods behind)) 2 data w with - | ⟨stop, w'⟩ | ⟨e, w'⟩ <;>
    rw [hturns] at h
  · cases h
  · rw [of_decide_eq_true h]
  · cases h

/-- Whether a run can be read off datagrams one by one: each is one packet, on the channel of its
number and with no more than is received, and is gone through to its end. -/
def goesThrough : List (Channel × List UInt8) → World (OrderStrategy Unit) → Bool
  | [], _ => true
  | (c, data) :: rest, w =>
    (match World.nextPacket data with
      | .ok (some header) => data.length = header.length ∧
        (header.magicNumber = MarketData.MAGIC_NUMBER ↔ c = .live)
      | _ => false) &&
    data.length ≤ MAX_UDP_PAYLOAD && (c = .live || !w.synchronizer.sync) && finishes data w &&
      goesThrough rest (worldAfter data w)

/-- The event that brings a datagram. -/
def eventOf (d : Channel × List UInt8) : PollEvent := ⟨d.1, some d.2⟩

theorem exists_runs_of_goesThrough {start p : Process (OrderStrategy Unit)}
    {events : List PollEvent} (hruns : Process.Runs (methods behind) connectionLost start events p)
    (hp : p.Cleared) (hmarked : ∀ r ∈ p.reads, r.Marked)
    {datagrams : List (Channel × List UInt8)} (h : goesThrough datagrams p.world = true) :
    ∃ p', Process.Runs (methods behind) connectionLost start (events ++ datagrams.map eventOf) p' ∧
      (∀ r ∈ p'.reads, r.Marked) ∧
      p'.world = datagrams.foldl (fun w d ↦ worldAfter d.2 w) p.world := by
  induction datagrams generalizing p events with
  | nil => exact ⟨p, by rwa [List.map_nil, List.append_nil], hmarked, rfl⟩
  | cons d datagrams ih =>
    obtain ⟨c, data⟩ := d
    simp only [goesThrough, Bool.and_eq_true, decide_eq_true_eq, Bool.or_eq_true,
      Bool.not_eq_true'] at h
    obtain ⟨⟨⟨⟨hpacket, hlength⟩, hsync⟩, hfinishes⟩, hrest⟩ := h
    obtain ⟨header, hnext, heq, hchannel⟩ : ∃ header, World.nextPacket data = .ok (some header) ∧
        data.length = header.length ∧
        (header.magicNumber = MarketData.MAGIC_NUMBER ↔ c = .live) := by
      rcases hnext : World.nextPacket data with e | - | header <;> rw [hnext] at hpacket
      · cases hpacket
      · cases hpacket
      · exact ⟨header, rfl, of_decide_eq_true hpacket⟩
    have hread (hsnap : c = .snap) : p.world.synchronizer.sync = false :=
      hsync.resolve_left fun hlive ↦ by cases hlive.symm.trans hsnap
    obtain ⟨p₁, hpoll, hp₁, hworld, hreads⟩ :=
      hp.poll connectionLost hlength hread (turns_of_finishes hfinishes)
    have hmarked₁ : ∀ r ∈ p₁.reads, r.Marked := by
      intro r hr
      rw [hreads, List.mem_append, List.mem_singleton] at hr
      rcases hr with hr | rfl
      · exact hmarked r hr
      · exact Process.OnePacket.marked ⟨hnext, heq, hlength⟩ hchannel _
    rw [← hworld] at hrest
    obtain ⟨p', hruns', hmarked', hworld'⟩ := ih (hruns.snoc hpoll) hp₁ hmarked₁ hrest
    refine ⟨p', by rwa [List.append_assoc] at hruns', hmarked', ?_⟩
    rw [hworld', hworld]
    rfl

/-- A strategy that quotes symbol 1, and whose first request is going to be acknowledged. -/
def notSynced : World (OrderStrategy Unit) where
  synchronizer := .start 1
  strategy := some (.init (.init [] [] 7 (-20000) 10 (some (.connected
    (Arrival.burst [.ack ⟨⟨40, 101, 1, 1, 1, 7⟩, 100000, 901, 2, 80⟩]))) [])
    { symbols := [1], etfArbEnabled := false, spoofEnabled := false } ())

/-- A sell arrives before the snapshot, which is of two buys, and then the better of the two is
deleted. -/
def quotedFeed : List (Channel × List UInt8) :=
  [(.live, packet MarketData.MAGIC_NUMBER 2 (.newOrder ⟨8, 1, .sell, 5, 110, 0⟩)),
    (.snap, packet 0 0 (.snapshotInfo ⟨1, 2, 0, 1⟩)),
    (.snap, packet 0 0 (.newOrder ⟨7, 1, .buy, 10, 100, 0⟩)),
    (.snap, packet 0 0 (.newOrder ⟨6, 1, .buy, 10, 90, 0⟩)),
    (.live, packet MarketData.MAGIC_NUMBER 3 (.deleteOrder ⟨7⟩))]

/-- The strategy comes to read the books: in looking for the best bid it takes the deleted price off
the heap, and it quotes behind the other one. -/
theorem runs_undisturbed_quotedFeed :
    ∃ (p : Process (OrderStrategy Unit)) (items : List (Channel × Process.Piece))
      (pending : Channel → List UInt8) (z : SnapShotSynchronizer),
      p.world.strategy.map (fun s ↦ s.client.openOrders.keys) = some [100000] ∧
      (∀ c, Process.Cuts (Process.received c (quotedFeed.map eventOf)) (Process.piecesOf c items)
        (pending c)) ∧
      SnapShotSynchronizer.runEvents (Process.eventsOf items) (.start 1) = .ok () z ∧
      SnapShotSynchronizer.Beside p.world.synchronizer z := by
  obtain ⟨p, hruns, hmarked, hworld⟩ := exists_runs_of_goesThrough (.nil (.start notSynced))
    (Process.cleared_start notSynced) (fun r hr ↦ absurd hr List.not_mem_nil)
    (show goesThrough quotedFeed notSynced = true by decide +kernel)
  obtain ⟨items, pending, z, hcuts, hrun, hbeside⟩ := runs_undisturbed behind 1 _ hruns hmarked
  refine ⟨p, items, pending, z, ?_, hcuts, hrun, hbeside⟩
  rw [hworld]
  decide +kernel

end HftTrading.Strategy
