import HftTrading.Feed.Buffer
import HftTrading.Lib.Triple

/-!
# Going through bytes again

A call on `_process_buffer` that is interrupted leaves the buffer as it was, so the next one starts
with packets that have been handled. This module says why nothing is handled twice.

In sync, a live packet whose number is behind what the tracker expects is skipped, and so is all of
the snapshot channel. The number of a packet is behind as soon as it has been checked, whatever the
strategy raises after that. So **going through bytes for a second time changes nothing**, up to
where they have been gone through in sync (`reaches_again`).

## How it is shown

`FurtherOn` compares two synchronizers: both are in sync, and the second has behind it whatever the
first has. It is what a packet does to the synchronizer while no resync is triggered, and a skipped
packet stays skipped as the synchronizer gets further on. The rules about `Tracking` serve to show
that nothing but the check moves the tracker, so that they are stated for any condition on it.

The last part is about who is told: the strategy hears of live packets only, and out of sync these
are only buffered. A packet that is interrupted was therefore checked in sync.
-/

namespace HftTrading

open MarketData Method

namespace World

variable {σ ε : Type} {S : StrategyMethods σ ε}

/-- A number is behind what the tracker expects. -/
def Behind (z : SnapShotSynchronizer) (seqNum : ℕ) : Prop :=
  ∃ expected, z.seqTracker.expectedSeq = some expected ∧ seqNum < expected

/-- In sync, with all numbers behind that were. -/
structure FurtherOn (z z' : SnapShotSynchronizer) : Prop where
  sync : z'.sync = true
  behind : ∀ {seqNum}, Behind z seqNum → Behind z' seqNum

theorem FurtherOn.trans {z z' z'' : SnapShotSynchronizer} (h : FurtherOn z z')
    (h' : FurtherOn z' z'') : FurtherOn z z'' := ⟨h'.sync, fun hn ↦ h'.behind (h.behind hn)⟩

/-- **What is skipped stays skipped** as the synchronizer gets further on. -/
theorem Skipped.furtherOn {header : MDHeader} {z z' : SnapShotSynchronizer} (h : Skipped header z)
    (hz : FurtherOn z z') : Skipped header z' := ⟨hz.sync, fun hmagic ↦ hz.behind (h.2 hmagic)⟩

section

variable {J : Bool → SequenceTracker → Prop}

/-- What is said of the tracker, and whether it is in sync. -/
def Tracking (J : Bool → SequenceTracker → Prop) (w : World σ) : Prop :=
  J w.synchronizer.sync w.synchronizer.seqTracker

/-- The strategy changes the manager at the most. -/
theorem tracking_onStrategy (call : Method ε (σ × OrderBookManager) Unit) :
    Keeps (Tracking (σ := σ) J) (onStrategy call) := by
  intro w hw
  unfold after onStrategy
  rcases w.strategy with - | s
  · exact hw
  dsimp only
  rcases call (s, w.synchronizer.bookManager) with ⟨a, s', m⟩ | ⟨e, s', m⟩
  · exact hw
  · exact hw

/-- A call on the synchronizer, by what it does to the flag and the tracker. -/
theorem tracking_onSynchronizer {α : Type} {call : Method FeedError SnapShotSynchronizer α}
    (hcall : Keeps (fun z : SnapShotSynchronizer ↦ J z.sync z.seqTracker) call) :
    Keeps (Tracking (σ := σ) J) (onSynchronizer (ε := ε) call) := by
  intro w hw
  have h := hcall w.synchronizer hw
  unfold after at h ⊢
  unfold onSynchronizer
  rcases hrun : call w.synchronizer with ⟨a, z⟩ | ⟨e, z⟩
  · rw [hrun] at h
    exact h
  · rw [hrun] at h
    exact h

/-- A call on the manager leaves both alone. -/
theorem tracking_onManager {α : Type} (call : Method FeedError OrderBookManager α) :
    Keeps (Tracking (σ := σ) J)
      (onSynchronizer (ε := ε) (SnapShotSynchronizer.onManager call)) :=
  tracking_onSynchronizer (SnapShotSynchronizer.keeps_onManager (fun _ _ hz ↦ hz) call)

theorem tracking_parsed {α : Type} (x : Except ParseError α) :
    Keeps (Tracking (σ := σ) J) (parsed (ε := ε) x) := by
  cases x with
  | ok a => exact keeps_pure _
  | error e => exact keeps_throw _

/-- A book error is the end of it. -/
theorem tracking_dispatchOrResync (header : MDHeader) (body : MarketDataMessage) :
    Triple (Tracking (σ := σ) J) (dispatchOrResync S header body)
      (fun dispatchedOk w ↦ dispatchedOk = true → Tracking J w) (Tracking J) := by
  have hdispatch : Keeps (Tracking (σ := σ) J)
      (onSynchronizer (ε := ε) (SnapShotSynchronizer.dispatch header body)) :=
    tracking_onSynchronizer <| Keeps.bind (keeps_modify fun _ hz ↦ hz) fun _ ↦
      SnapShotSynchronizer.keeps_onManager (fun _ _ hz ↦ hz) _
  refine Triple.tryCatch (F := fun _ ↦ True) ?_ fun e ↦ ?_
  · exact ((keeps_iff_triple.1 hdispatch).weaken (fun _ hw ↦ hw) (fun _ _ hw ↦ hw)
      fun _ _ ↦ trivial).bind fun _ ↦ triple_pure _ fun _ hw _ ↦ hw
  · exact Triple.bind (R := fun _ _ ↦ True) (triple_modify fun _ _ ↦ trivial) fun _ ↦
      triple_pure _ fun _ _ h ↦ by cases h

/-- Telling the strategy changes the manager at the most. -/
theorem tracking_updateStrategy (header : MDHeader) (body : MarketDataMessage) :
    Keeps (Tracking (σ := σ) J) (updateStrategy S header body) := by
  refine Keeps.tryCatch ?_ fun e ↦ ?_
  · cases body with
    | tradeSummary b => exact (tracking_onStrategy _).bind fun _ ↦ tracking_onStrategy _
    | _ => exact tracking_onStrategy _
  · cases e with
    | strategy e' =>
      dsimp only
      split
      · exact keeps_throw _
      · exact keeps_pure _
    | _ => exact keeps_throw _

end

/-- What a check says: the number is behind, or it is the last that the tracker has seen. -/
theorem check_cases (t : SequenceTracker) (seqNum : ℕ) :
    ((t.check seqNum).1 = false ∧ ∃ expected, t.expectedSeq = some expected ∧ seqNum < expected) ∨
      ((t.check seqNum).1 = true ∧ (t.check seqNum).2.2 = ⟨some (seqNum + 1)⟩ ∧
        ∀ expected, t.expectedSeq = some expected → expected ≤ seqNum) := by
  unfold SequenceTracker.check
  rcases t with ⟨- | expected⟩
  · exact Or.inr ⟨rfl, rfl, fun _ h ↦ by cases h⟩
  dsimp only
  split_ifs with hlt hne
  · exact Or.inl ⟨rfl, expected, rfl, hlt⟩
  · exact Or.inr ⟨rfl, rfl, fun _ h ↦ by cases h; omega⟩
  · exact Or.inr ⟨rfl, rfl, fun _ h ↦ by cases h; omega⟩

/-- **A number is behind once it has been checked**, unless a book error triggers a resync. -/
theorem furtherOn_handleLive (header : MDHeader) (packet : List UInt8) {w : World σ}
    (hs : w.synchronizer.sync = true) :
    Triple (fun v ↦ v = w) (handleLive S header packet)
      (fun goOn v ↦ goOn = true → FurtherOn w.synchronizer v.synchronizer ∧
        Behind v.synchronizer header.seqNum)
      fun v ↦ FurtherOn w.synchronizer v.synchronizer ∧ Behind v.synchronizer header.seqNum := by
  let J (sync : Bool) (tracker : SequenceTracker) : Prop :=
    (sync = true ∧ ∀ {seqNum}, Behind w.synchronizer seqNum →
      ∃ expected, tracker.expectedSeq = some expected ∧ seqNum < expected) ∧
    ∃ expected, tracker.expectedSeq = some expected ∧ header.seqNum < expected
  have hJ {v : World σ} (hv : Tracking J v) :
      FurtherOn w.synchronizer v.synchronizer ∧ Behind v.synchronizer header.seqNum :=
    ⟨⟨hv.1.1, hv.1.2⟩, hv.2⟩
  suffices Triple (fun v ↦ v = w) (handleLive S header packet)
      (fun goOn v ↦ goOn = true → Tracking J v) (Tracking J) from
    this.weaken (fun _ hv ↦ hv) (fun _ _ hv hgoOn ↦ hJ (hv hgoOn)) fun _ hv ↦ hJ hv
  refine triple_get fun v hv ↦ ?_
  subst hv
  have hcases := check_cases v.synchronizer.seqTracker header.seqNum
  rcases hcheck : v.synchronizer.seqTracker.check header.seqNum with ⟨- | -, warning, tracker⟩
  -- the number is behind already
  · rw [hcheck] at hcases
    obtain ⟨-, hbehind⟩ := hcases.resolve_right fun h ↦ Bool.noConfusion h.1
    refine triple_pure _ ?_
    rintro _ rfl -
    exact ⟨⟨hs, id⟩, hbehind⟩
  -- the tracker is past the number, and stays so
  rw [hcheck] at hcases
  obtain ⟨-, rfl, hle⟩ := hcases.resolve_left fun h ↦ Bool.noConfusion h.1
  refine Triple.bind (R := fun _ ↦ Tracking J) (triple_modify ?_) fun _ ↦ ?_
  · rintro _ rfl
    refine ⟨⟨hs, ?_⟩, _, rfl, Nat.lt_succ_self _⟩
    rintro seqNum ⟨expected, hexpected, hlt⟩
    exact ⟨_, rfl, (hlt.trans_le (hle expected hexpected)).trans (Nat.lt_succ_self _)⟩
  refine (keeps_iff_triple.1 (tracking_parsed _)).bind fun message ↦
    (keeps_iff_triple.1 (tracking_onStrategy _)).bind fun _ ↦
      (tracking_dispatchOrResync header _).bind fun dispatchedOk ↦ ?_
  rcases dispatchedOk with - | -
  · exact triple_pure _ fun _ _ h ↦ by cases h
  · have hrest : Keeps (Tracking (σ := σ) J) (do
        updateStrategy S header message.2
        if header.seqNum % 10000 = 0 then
          onSynchronizer (SnapShotSynchronizer.onManager OrderBookManager.logBooks)
        pure true) := by
      refine (tracking_updateStrategy header _).bind fun _ ↦ ?_
      split
      · exact (tracking_onManager _).bind fun _ ↦ keeps_pure _
      · exact keeps_pure _
    exact (keeps_iff_triple.1 hrest).weaken (fun _ hv ↦ hv rfl) (fun _ _ hv _ ↦ hv) fun _ hv ↦ hv

/-- **A packet gone past in sync is skipped from then on**, and so is all that was before it. -/
theorem furtherOn_handlePacket (header : MDHeader) (packet : List UInt8) {w : World σ}
    (hs : w.synchronizer.sync = true) :
    Triple (fun v ↦ v = w) (handlePacket S header packet)
      (fun goOn v ↦ goOn = true → FurtherOn w.synchronizer v.synchronizer ∧
        Skipped header v.synchronizer)
      fun v ↦ FurtherOn w.synchronizer v.synchronizer ∧ Skipped header v.synchronizer := by
  refine triple_get fun v hv ↦ ?_
  subst hv
  by_cases hmagic : header.magicNumber = MAGIC_NUMBER
  · rw [if_pos hmagic, if_neg (by rw [hs]; exact Bool.false_ne_true.symm)]
    exact (furtherOn_handleLive header packet hs).weaken (fun _ hv ↦ hv)
      (fun _ _ hv hgoOn ↦ ⟨(hv hgoOn).1, (hv hgoOn).1.sync, fun _ ↦ (hv hgoOn).2⟩)
      fun _ hv ↦ ⟨hv.1, hv.1.sync, fun _ ↦ hv.2⟩
  · rw [if_neg hmagic, if_neg (by rw [hs]; exact Bool.false_ne_true.symm)]
    refine triple_pure _ ?_
    rintro _ rfl -
    exact ⟨⟨hs, id⟩, hs, fun h ↦ absurd h hmagic⟩

/-! ### Whom a packet is told to -/

/-- Not of the strategy. -/
def OfFeed : LoopError ε → Prop
  | .strategy _ => False
  | _ => True

/-- What parsing raises is not of the strategy. -/
theorem ofFeed_parsed {α : Type} (x : Except ParseError α) :
    RaisesOnly (OfFeed (ε := ε)) (parsed x : LoopM ε σ α) := by
  intro w e w' h
  cases x with
  | ok a => cases h
  | error e' =>
    cases h
    trivial

theorem ofFeed_onSynchronizer {α : Type} (call : Method FeedError SnapShotSynchronizer α) :
    RaisesOnly (OfFeed (ε := ε)) (onSynchronizer call : LoopM ε σ α) := by
  intro w e w' h
  unfold onSynchronizer at h
  rcases hcall : call w.synchronizer with ⟨a, z⟩ | ⟨e', z⟩ <;> rw [hcall] at h <;> cases h
  trivial

/-- The strategy is told of live packets only, and only in sync. -/
theorem live_of_handlePacket_strategy {header : MDHeader} {packet : List UInt8} {w w' : World σ}
    {e : ε} (h : handlePacket S header packet w = .error (.strategy e) w') :
    header.magicNumber = MAGIC_NUMBER ∧ w.synchronizer.sync = true := by
  by_contra hnot
  unfold handlePacket at h
  rw [bind_ok (get_apply w)] at h
  have hbuffered : RaisesOnly (OfFeed (ε := ε)) (σ := World σ) (do
      let parsed ← parsed (parseMessage packet)
      onSynchronizer (modify (SnapShotSynchronizer.bufferLiveMessage header parsed.2))
      pure true) :=
    (ofFeed_parsed _).bind fun _ ↦ (ofFeed_onSynchronizer _).bind fun _ ↦ raisesOnly_pure _
  have hsnapshot : RaisesOnly (OfFeed (ε := ε)) (handleSnapshot S header packet) := by
    refine (ofFeed_parsed _).bind fun _ ↦ (ofFeed_onSynchronizer _).bind fun _ ↦
      raisesOnly_get.bind fun _ ↦ ?_
    split
    · exact (ofFeed_onSynchronizer _).bind fun _ ↦ (ofFeed_onSynchronizer _).bind fun _ ↦
        raisesOnly_modify _
    · exact raisesOnly_pure _
  rcases hs : w.synchronizer.sync with - | - <;> rw [hs] at h <;> split at h
  · exact hbuffered _ _ _ h
  · exact (hsnapshot.bind fun _ ↦ raisesOnly_pure _) _ _ _ h
  · rename_i hmagic
    exact hnot ⟨hmagic, hs⟩
  · cases h

/-- Out of sync, live packets are only buffered. -/
theorem not_sync_handlePacket {header : MDHeader} {packet : List UInt8} {w w' : World σ}
    {goOn : Bool} (hmagic : header.magicNumber = MAGIC_NUMBER) (hs : w.synchronizer.sync = false)
    (h : handlePacket S header packet w = .ok goOn w') : w'.synchronizer.sync = false := by
  unfold handlePacket at h
  rw [bind_ok (get_apply w), if_pos hmagic, if_pos hs] at h
  have hkeeps : Keeps (Tracking (σ := σ) fun sync _ ↦ sync = false) ((do
      let parsed ← parsed (parseMessage packet)
      onSynchronizer (modify (SnapShotSynchronizer.bufferLiveMessage header parsed.2))
      pure true) : LoopM ε σ Bool) :=
    (tracking_parsed _).bind fun _ ↦
      Keeps.bind (tracking_onSynchronizer (keeps_modify fun _ hz ↦ hz)) fun _ ↦ keeps_pure _
  exact hkeeps.ok hs h

/-! ### The turns that a call comes to -/

section

variable {a a' b : List UInt8} {w w' : World σ}

/-- More bytes behind are left alone. -/
theorem reaches_append (h : Reaches (turn S) a w a' w') (b : List UInt8) :
    Reaches (turn S) (a ++ b) w (a' ++ b) w' := by
  induction h with
  | refl => exact .refl _ _
  | again hturn _ ih =>
    obtain ⟨header, hnext, hrun, rfl⟩ := turn_again_iff.1 hturn
    obtain ⟨hnext', htake, hdrop⟩ := nextPacket_append hnext b
    exact .again (turn_again_iff.2 ⟨header, hnext', htake ▸ hrun, hdrop.symm⟩) ih

/-- **Going through bytes for a second time** skips what has been gone through in sync. -/
theorem reaches_again (h : Reaches (turn S) a w a' w') (hs : w.synchronizer.sync = true) :
    FurtherOn w.synchronizer w'.synchronizer ∧
      ∀ v : World σ, FurtherOn w'.synchronizer v.synchronizer → Reaches (turn S) a v a' v := by
  induction h with
  | refl b w => exact ⟨⟨hs, id⟩, fun v _ ↦ .refl b v⟩
  | @again b b' b'' w w₁ w' hturn _ ih =>
    obtain ⟨header, hnext, hrun, rfl⟩ := turn_again_iff.1 hturn
    have hpacket := furtherOn_handlePacket (S := S) header (b.take header.length) hs w rfl
    rw [hrun] at hpacket
    obtain ⟨hfurther, hskipped⟩ := hpacket rfl
    obtain ⟨hfurther', hagain⟩ := ih hfurther.sync
    refine ⟨hfurther.trans hfurther', fun v hv ↦ .again ?_ (hagain v hv)⟩
    have hskip := handlePacket_of_skipped S (hskipped.furtherOn (hfurther'.trans hv))
    exact turn_again_iff.2 ⟨header, hnext, hskip _, rfl⟩

end

end World

end HftTrading
