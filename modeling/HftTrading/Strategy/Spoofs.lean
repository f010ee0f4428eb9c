import HftTrading.OrderEntry.Accounts
import HftTrading.OrderEntry.Replies
import HftTrading.Strategy.Steps

/-!
# Spoofs

A spoof is an order that the strategy does not want to be filled: it is placed behind the market and
is to be cancelled soon. `active_spoofs` is all that the strategy knows of those it has placed. So
what it says has to be right at every point of a run: each spoof is filed under the id of an order
that the client has placed for it, there is one per symbol, and **none is dropped before its cancel
has been answered** (`accounted_runEvents`).

A spoof is looked at when an update of the market begins. By a clock that does not go back, an
update that returns leaves none behind whose time was over when it began
(`unexpired_onMarketDataUpdate`).

## Accounting for spoofs

`SpoofsAccounted` compares the active spoofs with those at an earlier point: each of these is active
still, or a cancel that was packed for its order has been sent since and answered by a list that was
handled to its end (`AnsweredSince`). The requests carry their messages, so the cancel is seen in
what has been sent and not in what the strategy remembers. Answers are only ever added, and what has
been noted as placed stays noted, so both halves survive all that the client does.

## The time of a spoof

An update first looks at the clock and cancels what is over by then, and what it places afterwards
starts at a later look. `Unexpired` therefore carries the time of the first look along. A cancel
that raises ends the update, and no more is said then.
-/

namespace HftTrading.OrderEntry.OrderEntryClient

/-! ### What has been noted stays noted -/

section

variable {modifies connects : Prop} {c c' : OrderEntryClient}

/-- Reading adds to what has been noted. -/
theorem ReadStep.trace_grows (h : ReadStep c c') : c.record.trace <+: c'.record.trace := by
  cases h with
  | wire hsame => exact (congrArg Record.trace hsame.record).symm ▸ List.prefix_rfl
  | sent => exact List.prefix_append _ _
  | opened => exact List.prefix_rfl
  | read hbatch response => exact List.prefix_append _ _
  | abandoned hbatch => exact List.prefix_append _ _

theorem Reads.trace_grows (h : Reads c c') : c.record.trace <+: c'.record.trace := by
  induction h with
  | refl => exact List.prefix_rfl
  | tail _ hstep ih => exact ih.trans hstep.trace_grows

theorem trace_popOrder (orderId : ℤ) (c : OrderEntryClient) :
    c.record.trace <+: (c.popOrder orderId).record.trace := by
  unfold popOrder
  split
  · exact List.prefix_append _ _
  · exact List.prefix_rfl

theorem trace_rewriteEntry (orderId side quantity price : ℤ) (c : OrderEntryClient) :
    c.record.trace <+: (c.rewriteEntry orderId side quantity price).record.trace := by
  unfold rewriteEntry
  split
  · exact List.prefix_rfl
  · exact List.prefix_append _ _

theorem trace_settleModify (orderId side quantity price : ℤ) (first : OeResponse)
    (c : OrderEntryClient) :
    c.record.trace <+: (c.settleModify orderId side quantity price first).record.trace := by
  unfold settleModify
  split
  · exact trace_rewriteEntry ..
  · exact trace_popOrder orderId c
  · split
    · exact trace_popOrder orderId c
    · exact List.prefix_rfl
  · exact List.prefix_rfl

/-- The record is only ever added to. -/
theorem Step.trace_grows (h : Step modifies connects c c') :
    c.record.trace <+: c'.record.trace := by
  cases h with
  | header => exact List.prefix_rfl
  | exchanged hrun => exact (reads_of_ok hrun).trace_grows.trans (List.prefix_append _ _)
  | broken hrun => exact (reads_of_error hrun).trace_grows
  | passed => exact List.prefix_rfl
  | popped => exact trace_popOrder _ (c.onRecord Record.take)
  | booked =>
    unfold bookFill
    rw [bookTrackers_eq]
    exact List.prefix_append _ _
  | finished => exact List.prefix_rfl
  | abandoned => exact List.prefix_append _ _
  | checked => exact List.prefix_rfl
  | placed => exact List.prefix_append _ _
  | settled => exact trace_settleModify ..
  | forgotten => exact List.prefix_append _ _
  | connected _ hsame => exact (congrArg Record.trace hsame.record).symm ▸ List.prefix_rfl
  | loginExchanged _ data => exact (reads_after_exchangeLogin data c).trace_grows

/-- **Nothing that has been noted is lost.** -/
theorem Steps.trace_grows (h : Steps modifies connects c c') :
    c.record.trace <+: c'.record.trace := by
  induction h with
  | refl => exact List.prefix_rfl
  | tail _ hstep ih => exact ih.trans hstep.trace_grows

/-- Whatever is noted, the requests stay. -/
theorem requests_of_trace (h : c.record.trace <+: c'.record.trace) : c.requests <+: c'.requests :=
  h.filterMap _

end

/-- A request is a cancel of this order, packed under its own number, and all responses collected
for it could be handled. -/
structure Cancels (orderId : ℤ) (q : Request) : Prop where
  packed : ∃ header, header.seqNum = q.seqNum ∧
    DeleteOrder.pack ⟨header, orderId⟩ = some q.message
  harmless : ∀ r ∈ q.responses, r.Harmless

/-- **`delete_order`** returns behind its cancel, all responses to which have been handled. -/
theorem request_deleteOrder {c : OrderEntryClient} (hbatches : c.record.batches = [])
    (orderId : ℤ) : Method.Triple (fun t ↦ t = c) (deleteOrder orderId)
      (fun _ c' ↦ ∃ q, Sent c.requests q c' ∧ Cancels orderId q) fun _ ↦ True := by
  rw [deleteOrder_eq]
  unfold deleteOrderWith
  refine (header_of_eq hbatches .deleteOrder DeleteOrder.SIZE).bind ?_
  intro header
  have hpacked : ∀ msg ∈ DeleteOrder.pack ⟨header, orderId⟩,
      ∃ header' : OeRequestHeader, header'.seqNum = header.seqNum ∧
        DeleteOrder.pack ⟨header', orderId⟩ = some msg := fun msg hmsg ↦ ⟨header, rfl, hmsg⟩
  revert hpacked
  generalize DeleteOrder.pack ⟨header, orderId⟩ = packet
  intro hpacked
  refine Method.triple_of_imp fun hseq ↦ ?_
  let Went (responses : List OeResponse) (c' : OrderEntryClient) : Prop :=
    ∃ msg ∈ packet, Sent c.requests ⟨header.seqNum, orderId, msg, responses⟩ c'
  refine (triple_request (Q := Went) packet fun msg hmsg responses ↦
    Method.triple_pure _ fun _ hc ↦ ⟨rfl, hc, msg, hmsg, hc⟩).weaken (fun _ hc ↦ hc)
      (fun responses c' hc ↦ ?_) fun _ _ ↦ trivial
  obtain ⟨hhandled, msg, hmsg, hsent⟩ := hc
  refine ⟨_, hsent, hpacked msg hmsg, ?_⟩
  rcases hhandled with ⟨hsame, -⟩ | ⟨-, hharmless⟩
  · have hle := hsent.length_le
    rw [hsame, List.length_append, List.length_singleton] at hle
    omega
  · exact hharmless

end HftTrading.OrderEntry.OrderEntryClient

namespace HftTrading.Strategy

open OrderEntry Method OrderStrategy OrderEntryClient

variable {ω : Type} {O : Outside ω}

/-! ### Accounting for spoofs -/

/-- The client has placed the order of a spoof: with the quantity of spoofs, and at a price that is
a positive multiple of the tick. -/
def ActiveSpoof.Placed (config : OrderStrategyConfig) (c : OrderEntryClient) (spoof : ActiveSpoof) :
    Prop :=
  ∃ price, 0 < price ∧ getTick spoof.symbol ∣ price ∧ ∃ p ∈ c.record.trace,
    p.note = .placed spoof.orderId ⟨spoof.symbol, spoof.side, config.spoofQty, price, 0⟩

/-- Since these requests, a cancel of the order has gone out and been answered, and what came back
was handled. -/
def AnsweredSince (before : List Request) (c : OrderEntryClient) (orderId : ℤ) : Prop :=
  ∃ q ∈ c.requests.drop before.length, Cancels orderId q

/-- **The spoofs are accounted for**: those that are active, and those that were when these requests
had been answered. -/
structure SpoofsAccounted (config : OrderStrategyConfig) (before : List Request)
    (spoofs : Dict ℤ ActiveSpoof) (s : OrderStrategy ω) : Prop where
  config_eq : s.config = config
  waiting : s.client.record.batches = []
  since : before <+: s.client.requests
  keyed : ∀ {orderId spoof}, s.activeSpoofs.get? orderId = some spoof → spoof.orderId = orderId
  symbols : (s.activeSpoofs.values.map ActiveSpoof.symbol).Nodup
  placed : ∀ spoof ∈ s.activeSpoofs.values, spoof.Placed config s.client
  kept : ∀ orderId, spoofs.contains orderId = true →
    s.activeSpoofs.contains orderId = true ∨ AnsweredSince before s.client orderId

section

variable {config : OrderStrategyConfig} {before : List Request} {spoofs : Dict ℤ ActiveSpoof}
  {s s' : OrderStrategy ω}

theorem ActiveSpoof.Placed.mono {c c' : OrderEntryClient} {spoof : ActiveSpoof}
    (h : spoof.Placed config c) (htrace : c.record.trace <+: c'.record.trace) :
    spoof.Placed config c' := by
  obtain ⟨price, hpos, htick, p, hp, hnote⟩ := h
  exact ⟨price, hpos, htick, p, htrace.subset hp, hnote⟩

theorem AnsweredSince.mono {c c' : OrderEntryClient} {orderId : ℤ}
    (h : AnsweredSince before c orderId) (hrequests : c.requests <+: c'.requests) :
    AnsweredSince before c' orderId := by
  obtain ⟨q, hq, hid⟩ := h
  exact ⟨q, (hrequests.drop _).subset hq, hid⟩

/-- A cancel that is sent is answered since any request before. -/
theorem answeredSince_of_sent {c c' : OrderEntryClient} {orderId : ℤ}
    (hbefore : before <+: c.requests) (hsent : ∃ q, Sent c.requests q c' ∧ Cancels orderId q) :
    AnsweredSince before c' orderId := by
  obtain ⟨q, ⟨rest, hrest⟩, hcancels⟩ := hsent
  refine ⟨q, ?_, hcancels⟩
  rw [← hrest, List.append_assoc, List.drop_append_of_le_length hbefore.length_le]
  exact List.mem_append_right _ List.mem_cons_self

namespace SpoofsAccounted

variable (h : SpoofsAccounted config before spoofs s)

include h

/-- The client goes on, and the spoofs stay as they are. -/
theorem goOn (hconfig : s'.config = s.config) (hspoofs : s'.activeSpoofs = s.activeSpoofs)
    (htrace : s.client.record.trace <+: s'.client.record.trace)
    (hwaiting : s'.client.record.batches = []) : SpoofsAccounted config before spoofs s' where
  config_eq := hconfig.trans h.config_eq
  waiting := hwaiting
  since := h.since.trans (requests_of_trace htrace)
  keyed hget := h.keyed (hspoofs ▸ hget)
  symbols := hspoofs ▸ h.symbols
  placed spoof hspoof := (h.placed spoof (hspoofs ▸ hspoof)).mono htrace
  kept orderId hmem := hspoofs ▸ (h.kept orderId hmem).imp_right fun hanswered ↦
    hanswered.mono (requests_of_trace htrace)

/-- The spoofs and what the client has noted are all it is about. -/
theorem congr (hconfig : s'.config = s.config) (hspoofs : s'.activeSpoofs = s.activeSpoofs)
    (hclient : s'.client.record = s.client.record) : SpoofsAccounted config before spoofs s' :=
  h.goOn hconfig hspoofs (hclient ▸ List.prefix_rfl) (hclient ▸ h.waiting)

/-- **A spoof is dropped** once its cancel has been answered. -/
theorem drop {orderId : ℤ} (hanswered : AnsweredSince before s.client orderId) :
    SpoofsAccounted config before spoofs (dropSpoof orderId s) where
  config_eq := h.config_eq
  waiting := h.waiting
  since := h.since
  keyed {orderId' spoof} hget := by
    replace hget : (s.activeSpoofs.erase orderId).get? orderId' = some spoof := hget
    rw [Dict.get?_erase] at hget
    split at hget
    · cases hget
    · exact h.keyed hget
  symbols := h.symbols.sublist ((List.filter_sublist.map _).map _)
  placed spoof hspoof := h.placed spoof ((List.filter_sublist.map _).subset hspoof)
  kept orderId' hmem := by
    by_cases heq : orderId' = orderId
    · exact Or.inr (heq ▸ hanswered)
    · refine (h.kept orderId' hmem).imp_left fun hcontains ↦ ?_
      rw [Dict.contains_eq_true_iff] at hcontains ⊢
      exact (Dict.get?_erase_of_ne _ heq).symm ▸ hcontains

/-- **All are dropped** once all their cancels have been answered. -/
theorem clear (hanswered : ∀ spoof ∈ s.activeSpoofs.values,
      AnsweredSince before s.client spoof.orderId) :
    SpoofsAccounted config before spoofs { s with activeSpoofs := .empty } where
  config_eq := h.config_eq
  waiting := h.waiting
  since := h.since
  keyed hget := by cases hget
  symbols := List.nodup_nil
  placed _ hspoof := by cases hspoof
  kept orderId hmem := by
    refine Or.inr ?_
    rcases h.kept orderId hmem with hcontains | hdone
    · obtain ⟨spoof, hget⟩ := Dict.contains_eq_true_iff.1 hcontains
      exact h.keyed hget ▸ hanswered spoof (Dict.mem_values_iff.2 ⟨orderId, hget⟩)
    · exact hdone

/-- **A spoof is added** for a symbol that has none. -/
theorem add {spoof : ActiveSpoof} (hplaced : spoof.Placed config s.client)
    (hfree : ∀ spoof' ∈ s.activeSpoofs.values, spoof'.symbol ≠ spoof.symbol) :
    SpoofsAccounted config before spoofs (addSpoof spoof s) := by
  have hperm : (addSpoof spoof s).activeSpoofs.values.Perm
      (spoof :: (s.activeSpoofs.erase spoof.orderId).values) := Dict.values_insert_perm _ _ _
  have hsub : (s.activeSpoofs.erase spoof.orderId).values.Sublist s.activeSpoofs.values :=
    List.filter_sublist.map _
  refine ⟨h.config_eq, h.waiting, h.since, fun {orderId spoof'} hget ↦ ?_, ?_,
    fun spoof' hspoof ↦ ?_, fun orderId hmem ↦ ?_⟩
  · replace hget : (s.activeSpoofs.insert spoof.orderId spoof).get? orderId = some spoof' := hget
    rw [Dict.get?_insert] at hget
    split at hget
    · rename_i heq
      cases hget
      exact heq.symm
    · exact h.keyed hget
  · rw [(hperm.map _).nodup_iff, List.map_cons, List.nodup_cons]
    refine ⟨fun hmem ↦ ?_, h.symbols.sublist (hsub.map _)⟩
    obtain ⟨spoof', hspoof, heq⟩ := List.mem_map.1 hmem
    exact hfree spoof' (hsub.subset hspoof) heq
  · rcases List.mem_cons.1 (hperm.mem_iff.1 hspoof) with rfl | hold
    · exact hplaced
    · exact h.placed spoof' (hsub.subset hold)
  · refine (h.kept orderId hmem).imp_left fun hcontains ↦ ?_
    rw [Dict.contains_eq_true_iff] at hcontains ⊢
    show ∃ spoof', (s.activeSpoofs.insert spoof.orderId spoof).get? orderId = some spoof'
    rw [Dict.get?_insert]
    split
    · exact ⟨spoof, rfl⟩
    · exact hcontains

end SpoofsAccounted

/-- A call on the client, with nothing waiting before it. -/
theorem accounted_onClient {α : Type} {call : ClientM α} (task : OrderStrategy ω → Task)
    (hcall : ∀ c₀, Keeps (Ran True True c₀ []) call) :
    Keeps (fun x : OrderStrategy ω × OrderBookManager ↦ SpoofsAccounted config before spoofs x.1)
      (dealing task (onClient call)) := by
  refine keeps_dealing (fun _ _ _ hx ↦ hx.congr rfl rfl rfl) _ fun x hx ↦ ?_
  rw [after_onClient]
  have hran := hcall x.1.client x.1.client ⟨.refl, hx.waiting⟩
  exact hx.goOn rfl rfl hran.steps.trace_grows hran.batches_eq

/-- A call on what a symbol is quoted with. -/
theorem accounted_onQuoting {α : Type} {call : Quoting.QuotingM α}
    (hcall : ∀ c₀, Keeps (fun q : Quoting ↦ Ran True True c₀ [] q.client) call) (symbol : ℤ) :
    Keeps (fun x : OrderStrategy ω × OrderBookManager ↦ SpoofsAccounted config before spoofs x.1)
      (onQuoting symbol call) := by
  intro x hx
  rcases after_onQuoting symbol call x with ⟨-, heq⟩ | ⟨state, -, heq⟩
  · rw [heq]
    exact hx
  · rw [heq]
    have hran := hcall x.1.client (x.1.quoting state) ⟨.refl, hx.waiting⟩
    exact hx.goOn rfl rfl hran.steps.trace_grows hran.batches_eq

/-- The cancels of these orders have been answered, and the active spoofs are still these. -/
def Cancelling (config : OrderStrategyConfig) (before : List Request)
    (spoofs active : Dict ℤ ActiveSpoof) (done : List ℤ) (x : OrderStrategy ω × OrderBookManager) :
    Prop :=
  SpoofsAccounted config before spoofs x.1 ∧ x.1.activeSpoofs = active ∧
    ∀ orderId ∈ done, AnsweredSince before x.1.client orderId

/-- **The cancel of a spoof** is answered if it returns. -/
theorem cancelling_deleteOrder (active : Dict ℤ ActiveSpoof) (done : List ℤ) (orderId : ℤ) :
    Triple (Cancelling (ω := ω) config before spoofs active done)
      (OrderStrategy.deleteOrder orderId)
      (fun _ ↦ Cancelling config before spoofs active (orderId :: done))
      fun x ↦ SpoofsAccounted config before spoofs x.1 := by
  refine triple_dealing_onClient _ fun x ⟨hx, hactive, hdone⟩ c hc ↦ ?_
  subst hc
  have hsent := request_deleteOrder hx.waiting orderId x.1.client rfl
  have hstart : Ran True True x.1.client [] x.1.client := ⟨.refl, hx.waiting⟩
  have hran := ran_deleteOrder [] orderId x.1.client hstart
  rcases hrun : deleteOrder orderId x.1.client with ⟨responses, c⟩ | ⟨e, c⟩
  · rw [hrun] at hsent
    rw [after_ok hrun] at hran
    refine ⟨hx.goOn rfl rfl hran.steps.trace_grows hran.batches_eq, hactive, fun id hid ↦ ?_⟩
    rcases List.mem_cons.1 hid with rfl | hid
    · exact answeredSince_of_sent hx.since hsent
    · exact (hdone id hid).mono (requests_of_trace hran.steps.trace_grows)
  · rw [after_error hrun] at hran
    exact hx.goOn rfl rfl hran.steps.trace_grows hran.batches_eq

/-- **`_cancel_active_spoofs`** forgets the spoofs once all their cancels have been answered. -/
theorem accounted_cancelActiveSpoofs :
    Keeps (fun x : OrderStrategy ω × OrderBookManager ↦ SpoofsAccounted config before spoofs x.1)
      cancelActiveSpoofs := by
  rintro ⟨s, m⟩ hs
  -- all have been cancelled but those that are left
  let R (left : List ActiveSpoof) (x : OrderStrategy ω × OrderBookManager) : Prop := ∃ done,
    Cancelling config before spoofs s.activeSpoofs done x ∧
      ∀ spoof ∈ s.activeSpoofs.values, spoof ∈ left ∨ spoof.orderId ∈ done
  have hstep (spoof : ActiveSpoof) (left : List ActiveSpoof) :
      Triple (R (spoof :: left)) (do let _ ← OrderStrategy.deleteOrder spoof.orderId)
        (fun _ ↦ R left) fun x ↦ SpoofsAccounted config before spoofs x.1 := by
    rintro x ⟨done, hx, hdone⟩
    refine ((cancelling_deleteOrder s.activeSpoofs done spoof.orderId).bind fun _ ↦
      triple_pure _ fun y hy ↦ ⟨spoof.orderId :: done, hy, fun spoof' hspoof ↦ ?_⟩) x hx
    rcases hdone spoof' hspoof with hleft | hin
    · rcases List.mem_cons.1 hleft with rfl | hleft
      · exact Or.inr List.mem_cons_self
      · exact Or.inl hleft
    · exact Or.inr (List.mem_cons_of_mem _ hin)
  have hloop := triple_all hstep s.activeSpoofs.values
  refine triple_iff_after.1 (hloop.bind fun _ ↦ ?_) (s, m)
    ⟨[], ⟨hs, rfl, fun _ hid ↦ by cases hid⟩, fun _ ↦ Or.inl⟩
  rintro x ⟨done, ⟨hx, hactive, hdone⟩, hall⟩
  exact hx.clear fun spoof hspoof ↦ hdone _ <|
    (hall spoof (hactive ▸ hspoof)).resolve_left List.not_mem_nil

/-- `_check_active_spoofs`. -/
theorem accounted_checkActiveSpoofs :
    Keeps (fun x : OrderStrategy ω × OrderBookManager ↦ SpoofsAccounted config before spoofs x.1)
      (checkActiveSpoofs O) := by
  refine keeps_getStrategy.bind fun s ↦ ?_
  split
  · exact keeps_pure _
  refine Keeps.bind (m := monotonic O) (fun _ hx ↦ hx.congr rfl rfl rfl) fun now ↦
    keeps_all fun m hm ↦ ?_
  obtain ⟨spoof, -, rfl⟩ := List.mem_map.1 hm
  intro x hx
  refine triple_iff_after.1 ((cancelling_deleteOrder x.1.activeSpoofs [] spoof.orderId).bind
    fun _ y hy ↦ ?_) x ⟨hx, rfl, fun _ hid ↦ by cases hid⟩
  exact hy.1.drop (hy.2.2 _ List.mem_cons_self)

/-- An accepted spoof has been placed. -/
theorem placed_of_accepted {c : OrderEntryClient} (hwaiting : c.record.batches = []) (now : ℚ)
    (orderId symbol side quantity price flags : ℤ) :
    Triple (fun t ↦ t = c) (OrderEntryClient.newOrder now orderId symbol side quantity price flags)
      (fun responses c' ↦ Quoting.accepted responses = true → ∃ p ∈ c'.record.trace,
        p.note = .placed orderId ⟨symbol, side, quantity, price, 0⟩) fun _ ↦ True := by
  have hplaced : Triple (With (Accounts symbol c []) []) _ _ _ :=
    triple_newOrder (P := fun _ ↦ True) flags (fun hc ↦ hc.congr rfl rfl)
      (fun _ hc ↦ hc.congr rfl rfl)
      (fun {c'} _ hc ↦ hc.placeEntry orderId ⟨symbol, side, quantity, price, 0⟩) accounts_kept
      (fun _ _ ↦ trivial) (fun _ _ _ ↦ trivial) now
  refine hplaced.weaken (by rintro _ rfl; exact ⟨.refl symbol _, hwaiting⟩)
    (fun responses c' hc haccepted ↦ ?_) fun _ _ ↦ trivial
  rcases hc.1 with ⟨-, r, rfl, hreject⟩ | hown
  · rw [Quoting.accepted, hreject] at haccepted
    cases haccepted
  · have hmem : (orderId, (⟨symbol, side, quantity, price, 0⟩ : OeConfig)) ∈
        placedSince symbol c c' := by
      rw [hown.placed_eq]
      exact List.mem_append_right _ (by rw [Note.placed?, if_pos rfl]; exact List.mem_cons_self)
    obtain ⟨n, hn, hsome⟩ := List.mem_filterMap.1 hmem
    obtain ⟨p, hp, rfl⟩ := List.mem_map.1 hn
    exact ⟨p, (List.drop_sublist _ _).subset hp, Note.eq_placed_of_placed? hsome⟩

/-- **A spoof's price** is a multiple of the tick. -/
theorem dvd_spoofPrice (cfg : OrderStrategyConfig) (tick side bb ba : ℤ) :
    tick ∣ spoofPrice cfg tick side bb ba := by
  have hround (price : ℚ) (side : ℤ) : tick ∣ roundTick price tick side := by
    unfold roundTick
    split
    · exact Dvd.intro_left _ rfl
    · exact Dvd.intro_left _ rfl
  unfold spoofPrice
  split
  · exact hround _ _
  · exact hround _ _

/-- An order is placed by a strategy whose active spoofs are these. -/
theorem accounted_newOrder (active : Dict ℤ ActiveSpoof)
    (orderId symbol side quantity price : ℤ) (flags : OrderFlags) :
    Triple (Cancelling config before spoofs active [])
      (OrderStrategy.newOrder O orderId symbol side quantity price flags)
      (fun responses x ↦ Cancelling config before spoofs active [] x ∧
        (Quoting.accepted responses = true → ∃ p ∈ x.1.client.record.trace,
          p.note = .placed orderId ⟨symbol, side, quantity, price, 0⟩))
      fun x ↦ SpoofsAccounted config before spoofs x.1 := by
  refine Triple.bind (m := monotonic O) (R := fun _ ↦ Cancelling config before spoofs active [])
    (fun _ hx ↦ ⟨hx.1.congr rfl rfl rfl, hx.2.1, fun _ hid ↦ by cases hid⟩) fun now ↦ ?_
  refine triple_dealing_onClient _ fun x ⟨hx, hactive, _⟩ c hc ↦ ?_
  subst hc
  have hplaced := placed_of_accepted hx.waiting now orderId symbol side quantity price flags.value
    x.1.client rfl
  have hstart : Ran True True x.1.client [] x.1.client := ⟨.refl, hx.waiting⟩
  have hran := ran_newOrder now orderId symbol side quantity price flags.value x.1.client hstart
  rcases hrun : OrderEntryClient.newOrder now orderId symbol side quantity price flags.value
    x.1.client with ⟨responses, c⟩ | ⟨e, c⟩
  · rw [hrun] at hplaced
    rw [after_ok hrun] at hran
    exact ⟨⟨hx.goOn rfl rfl hran.steps.trace_grows hran.batches_eq, hactive,
      fun _ hid ↦ by cases hid⟩, hplaced⟩
  · rw [after_error hrun] at hran
    exact hx.goOn rfl rfl hran.steps.trace_grows hran.batches_eq

/-- **`_maybe_send_spoof`** sends a spoof for a symbol that has none. -/
theorem accounted_maybeSendSpoof (symbol side bb ba : ℤ) :
    Keeps (fun x : OrderStrategy ω × OrderBookManager ↦ SpoofsAccounted config before spoofs x.1)
      (maybeSendSpoof O symbol side bb ba) := by
  rintro ⟨s, m⟩ hs
  unfold maybeSendSpoof
  rw [after_bind_of_ok (show getStrategy (s, m) = .ok s (s, m) from rfl)]
  split
  · exact hs
  rename_i hnone
  dsimp only
  split
  · exact hs
  rename_i hprice
  have hfree : ∀ spoof ∈ s.activeSpoofs.values, spoof.symbol ≠ symbol := fun spoof hspoof heq ↦
    hnone (List.any_eq_true.2 ⟨spoof, hspoof, decide_eq_true heq⟩)
  have hallocated : Triple (Cancelling (ω := ω) config before spoofs s.activeSpoofs [])
      (allocOrderId symbol) (fun _ ↦ Cancelling config before spoofs s.activeSpoofs [])
      fun x ↦ SpoofsAccounted config before spoofs x.1 := by
    refine (keeps_iff_triple.1 fun x hx ↦ ?_).weaken (fun _ hx ↦ hx) (fun _ _ hx ↦ hx)
      fun _ hx ↦ hx.1
    show Cancelling config before spoofs s.activeSpoofs []
      ((onQuoting symbol Quoting.allocOrderId).after x)
    rcases after_onQuoting symbol Quoting.allocOrderId x with ⟨-, heq⟩ | ⟨state, -, heq⟩
    · rw [heq]
      exact hx
    · rw [heq]
      exact ⟨hx.1.congr rfl rfl rfl, hx.2.1, fun _ hid ↦ by cases hid⟩
  refine triple_iff_after.1 (hallocated.bind fun orderId ↦ (accounted_newOrder s.activeSpoofs
    orderId symbol side _ _ .none).bind fun responses ↦ ?_) (s, m)
      ⟨hs, rfl, fun _ hid ↦ by cases hid⟩
  split
  · rename_i haccepted
    rintro x ⟨⟨hx, hactive, -⟩, hplaced⟩
    have hclock : SpoofsAccounted config before spoofs
        { x.1 with outside := (O.monotonic x.1.outside).2 } := hx.congr rfl rfl rfl
    refine hclock.add ⟨_, not_le.1 hprice, dvd_spoofPrice s.config _ side bb ba, ?_⟩
      (hactive ▸ hfree)
    obtain ⟨p, hp, hnote⟩ := hplaced haccepted
    exact ⟨p, hp, hs.config_eq ▸ hnote⟩
  · exact triple_pure _ fun _ hx ↦ hx.1.1

/-- **Everything the strategy does** accounts for the spoofs. -/
theorem accounted_keptByRunParts :
    KeptByRunParts O fun x ↦ SpoofsAccounted config before spoofs x.1 where
  outside _ hx := hx.congr rfl rfl rfl
  read _ _ _ hx := by
    unfold onManager
    rw [after_zoom]
    exact hx
  cancelActiveSpoofs := accounted_cancelActiveSpoofs
  cancelQuote symbol side := keeps_dealing (fun _ _ _ hx ↦ hx.congr rfl rfl rfl) _ <|
    accounted_onQuoting (fun c₀ ↦ keeps_client_cancelQuote (ran_deleteOrder []) side.value) symbol
  attempt := keeps_dealing (fun _ _ _ hx ↦ hx.congr rfl rfl rfl) _ (keeps_pure _)
  submitClosing symbol side quantity price := Keeps.bind (m := nextFlattenOid)
    (fun _ hx ↦ hx.congr rfl rfl rfl) fun orderId ↦
      ((Keeps.bind (m := monotonic O) (fun _ hx ↦ hx.congr rfl rfl rfl) fun now ↦
        accounted_onClient _ fun _ ↦ ran_newOrder now orderId symbol side quantity price _).bind
          fun _ ↦ keeps_pure _).tryCatch fun _ ↦ keeps_pure _
  finished hx := hx.congr rfl rfl rfl
  checkActiveSpoofs _ := accounted_checkActiveSpoofs
  killed _ _ _ hx := hx.congr rfl rfl rfl
  stopped _ _ _ hx := hx.congr rfl rfl rfl
  maybeSendSpoof _ symbol side bb ba := accounted_maybeSendSpoof symbol side.value bb ba
  manageQuote _ symbol side targetPrice shouldQuote := Keeps.bind (m := monotonic O)
    (fun _ hx ↦ hx.congr rfl rfl rfl) fun now ↦
      keeps_dealing (fun _ _ _ hx ↦ hx.congr rfl rfl rfl) _ <| accounted_onQuoting
        (fun c₀ ↦ keeps_client_manageQuote (ran_newOrder now) (ran_modifyOrder trivial)
          (ran_deleteOrder []) side.value targetPrice shouldQuote) symbol
  cooldown _ _ _ _ hx := hx.congr rfl rfl rfl
  offer _ symbol side price := Keeps.bind (m := ETFArbEngine.allocOid)
    (fun _ hx ↦ hx.congr rfl rfl rfl) fun orderId ↦
      Keeps.bind (m := monotonic O) (fun _ hx ↦ hx.congr rfl rfl rfl) fun now ↦
        accounted_onClient _ fun _ ↦ ran_newOrder now orderId symbol side.value 1 price _
  updatePosition _ _ _ _ _ _ hx := hx.congr rfl rfl rfl
  suspend hx := hx.congr rfl rfl rfl
  enabled hx := hx.congr rfl rfl rfl
  reconnect := accounted_onClient _ fun _ ↦ ran_reconnect trivial

theorem accounted_init {client : OrderEntryClient} (hwaiting : client.record.batches = [])
    (outside : ω) :
    SpoofsAccounted config client.requests .empty (.init client config outside) where
  config_eq := rfl
  waiting := hwaiting
  since := List.prefix_rfl
  keyed hget := by cases hget
  symbols := List.nodup_nil
  placed _ hspoof := by cases hspoof
  kept _ hmem := by cases hmem

end

/-- The clock does not go back. -/
structure Forward (O : Outside ω) (time : ω → ℚ) : Prop where
  reading : ∀ w, time w ≤ (O.monotonic w).1 ∧ (O.monotonic w).1 ≤ time (O.monotonic w).2
  moves : ∀ {w w'}, O.Moves w w' → time w ≤ time w'

/-- No active spoof had its time over at `t`, which is past. -/
structure Unexpired (config : OrderStrategyConfig) (time : ω → ℚ) (t : ℚ) (s : OrderStrategy ω) :
    Prop where
  config_eq : s.config = config
  past : t ≤ time s.outside
  unexpired : ∀ spoof ∈ s.activeSpoofs.values, t < spoof.cancelAt

section

variable {config : OrderStrategyConfig} {time : ω → ℚ} {t : ℚ} {s s' : OrderStrategy ω}

namespace Unexpired

variable (h : Unexpired config time t s)

include h

/-- Time goes on, and spoofs are dropped if anything. -/
theorem goOn (hconfig : s'.config = s.config) (htime : time s.outside ≤ time s'.outside)
    (hspoofs : s'.activeSpoofs.values ⊆ s.activeSpoofs.values) : Unexpired config time t s' :=
  ⟨hconfig.trans h.config_eq, h.past.trans htime,
    fun spoof hspoof ↦ h.unexpired spoof (hspoofs hspoof)⟩

/-- The spoofs and what is outside are all it is about. -/
theorem congr (hconfig : s'.config = s.config) (houtside : s'.outside = s.outside)
    (hspoofs : s'.activeSpoofs = s.activeSpoofs) : Unexpired config time t s' :=
  h.goOn hconfig (houtside ▸ le_rfl) (hspoofs ▸ List.Subset.refl _)

theorem drop (orderId : ℤ) : Unexpired config time t (dropSpoof orderId s) :=
  h.goOn rfl le_rfl (List.filter_sublist.map _).subset

end Unexpired

/-- The quoting of a symbol touches no spoof. -/
theorem unexpired_onQuoting {α : Type} (symbol : ℤ) (call : Quoting.QuotingM α) :
    Keeps (fun x : OrderStrategy ω × OrderBookManager ↦ Unexpired config time t x.1)
      (onQuoting symbol call) := by
  intro x hx
  rcases after_onQuoting symbol call x with ⟨-, heq⟩ | ⟨state, -, heq⟩
  · rw [heq]
    exact hx
  · rw [heq]
    exact hx.congr rfl rfl rfl

theorem unexpired_onClient {α : Type} (task : OrderStrategy ω → Task) (call : ClientM α) :
    Keeps (fun x : OrderStrategy ω × OrderBookManager ↦ Unexpired config time t x.1)
      (dealing task (onClient call)) := by
  refine keeps_dealing (fun _ _ _ hx ↦ hx.congr rfl rfl rfl) _ fun x hx ↦ ?_
  rw [after_onClient]
  exact hx.congr rfl rfl rfl

/-- `_cancel_active_spoofs` leaves none behind if it returns. -/
theorem unexpired_cancelActiveSpoofs :
    Triple (fun x : OrderStrategy ω × OrderBookManager ↦
        x.1.config = config ∧ t ≤ time x.1.outside) cancelActiveSpoofs
      (fun _ x ↦ Unexpired config time t x.1) fun _ ↦ True := by
  rintro ⟨s, m⟩ hs
  have hloop : Keeps (fun x : OrderStrategy ω × OrderBookManager ↦
      x.1.config = config ∧ t ≤ time x.1.outside)
      (Method.all (s.activeSpoofs.values.map fun spoof ↦ do
        let _ ← OrderStrategy.deleteOrder spoof.orderId)) := by
    refine keeps_all fun m hm ↦ ?_
    obtain ⟨spoof, -, rfl⟩ := List.mem_map.1 hm
    refine Keeps.bind (keeps_dealing (fun _ _ _ hx ↦ hx) _ fun x hx ↦ ?_) fun _ ↦ keeps_pure _
    rw [after_onClient]
    exact hx
  refine ((keeps_iff_triple.1 hloop).weaken (fun _ hx ↦ hx) (fun _ _ hx ↦ hx)
    fun _ _ ↦ trivial).bind (fun _ x hx ↦ ?_) (s, m) hs
  exact ⟨hx.1, hx.2, fun _ hspoof ↦ by cases hspoof⟩

variable (hO : Forward O time)

include hO

theorem unexpired_monotonic :
    Keeps (fun x : OrderStrategy ω × OrderBookManager ↦ Unexpired config time t x.1)
      (monotonic O) :=
  fun _ hx ↦ hx.goOn rfl (hO.moves (.monotonic _)) (List.Subset.refl _)

theorem unexpired_newOrder (orderId symbol side quantity price : ℤ) (flags : OrderFlags) :
    Keeps (fun x : OrderStrategy ω × OrderBookManager ↦ Unexpired config time t x.1)
      (OrderStrategy.newOrder O orderId symbol side quantity price flags) :=
  (unexpired_monotonic hO).bind fun _ ↦ unexpired_onClient _ _

/-- **`_check_active_spoofs`** leaves none behind whose time was over, if it returns. -/
theorem unexpired_checkActiveSpoofs
    (hkeyed : ∀ {orderId spoof}, s.activeSpoofs.get? orderId = some spoof →
      spoof.orderId = orderId) (hconfig : s.config = config) (m : OrderBookManager) :
    Triple (fun x ↦ x = (s, m)) (checkActiveSpoofs O)
      (fun _ x ↦ Unexpired config time (time s.outside) x.1) fun _ ↦ True := by
  rintro _ rfl
  unfold checkActiveSpoofs
  rw [bind_ok (show getStrategy (s, m) = .ok s (s, m) from rfl)]
  by_cases hnone : s.activeSpoofs.entries = []
  · rw [if_pos hnone]
    refine ⟨hconfig, le_rfl, fun spoof hspoof ↦ ?_⟩
    rw [Dict.values, hnone] at hspoof
    cases hspoof
  rw [if_neg hnone, bind_ok (show monotonic O (s, m) = .ok _ _ from rfl)]
  -- the spoofs whose time is over are among those that are left
  let R (left : List ActiveSpoof) (x : OrderStrategy ω × OrderBookManager) : Prop :=
    (x.1.config = config ∧ time s.outside ≤ time x.1.outside) ∧
      (∀ {orderId spoof}, x.1.activeSpoofs.get? orderId = some spoof → spoof.orderId = orderId) ∧
      ∀ spoof ∈ x.1.activeSpoofs.values, spoof ∉ left → (O.monotonic s.outside).1 < spoof.cancelAt
  have hstep (spoof : ActiveSpoof) (left : List ActiveSpoof) : Triple (R (spoof :: left)) (do
      let _ ← OrderStrategy.deleteOrder spoof.orderId
      update (dropSpoof spoof.orderId)) (fun _ ↦ R left) fun _ ↦ True := by
    refine Triple.bind (m := OrderStrategy.deleteOrder spoof.orderId)
      (R := fun _ ↦ R (spoof :: left)) ?_ fun _ x hx ↦ ?_
    · refine (keeps_iff_triple.1 (keeps_dealing (fun _ _ _ hx ↦ hx) _ fun x hx ↦ ?_)).weaken
        (fun _ hx ↦ hx) (fun _ _ hx ↦ hx) fun _ _ ↦ trivial
      rw [after_onClient]
      exact hx
    · refine ⟨hx.1, fun {orderId spoof'} hget ↦ ?_, fun spoof' hspoof hleft ↦ ?_⟩
      · replace hget : (x.1.activeSpoofs.erase spoof.orderId).get? orderId = some spoof' := hget
        rw [Dict.get?_erase] at hget
        split at hget
        · cases hget
        · exact hx.2.1 hget
      · obtain ⟨orderId, hget⟩ := Dict.mem_values_iff.1 hspoof
        replace hget : (x.1.activeSpoofs.erase spoof.orderId).get? orderId = some spoof' := hget
        rw [Dict.get?_erase] at hget
        split at hget
        · cases hget
        rename_i hne
        refine hx.2.2 spoof' (Dict.mem_values_iff.2 ⟨orderId, hget⟩) fun hmem ↦ ?_
        rcases List.mem_cons.1 hmem with rfl | hin
        · exact hne (hx.2.1 hget).symm
        · exact hleft hin
  have hloop := triple_all hstep
    (s.activeSpoofs.values.filter fun spoof ↦ spoof.cancelAt ≤ (O.monotonic s.outside).1)
  refine (hloop.weaken (fun _ hx ↦ hx) (fun _ x hx ↦ ?_) fun _ _ ↦ trivial) _ ⟨⟨hconfig,
    hO.moves (.monotonic _)⟩, hkeyed, fun spoof hspoof hleft ↦ not_le.1 fun hle ↦
      hleft (List.mem_filter.2 ⟨hspoof, decide_eq_true hle⟩)⟩
  exact ⟨hx.1.1, hx.1.2, fun spoof hspoof ↦
    (hO.reading _).1.trans_lt (hx.2.2 spoof hspoof List.not_mem_nil)⟩

variable (hlifetime : 0 < config.spoofLifetime)

include hlifetime

/-- **A new spoof** has its time before it. -/
theorem unexpired_maybeSendSpoof (symbol side bb ba : ℤ) :
    Keeps (fun x : OrderStrategy ω × OrderBookManager ↦ Unexpired config time t x.1)
      (maybeSendSpoof O symbol side bb ba) := by
  rintro ⟨s, m⟩ hs
  unfold maybeSendSpoof
  rw [after_bind_of_ok (show getStrategy (s, m) = .ok s (s, m) from rfl)]
  split
  · exact hs
  dsimp only
  split
  · exact hs
  refine ((unexpired_onQuoting symbol _).bind fun orderId ↦
    (unexpired_newOrder hO orderId symbol side _ _ .none).bind fun responses ↦ ?_) (s, m) hs
  split
  · intro x hx
    have hclock := unexpired_monotonic hO x hx
    have hnow : t < (O.monotonic x.1.outside).1 + s.config.spoofLifetime := by
      have hreading := hx.past.trans (hO.reading x.1.outside).1
      rw [hs.config_eq]
      linarith
    refine ⟨hclock.config_eq, hclock.past, fun spoof hspoof ↦ ?_⟩
    rcases List.mem_cons.1 ((Dict.values_insert_perm _ _ _).mem_iff.1 hspoof) with rfl | hold
    · exact hnow
    · exact hx.unexpired spoof ((List.filter_sublist.map _).subset hold)
  · exact keeps_pure _

/-- **Every part of the strategy leaves no spoof that is over.** -/
theorem unexpired_keptByParts :
    KeptByParts O True fun x ↦ Unexpired config time t x.1 where
  outside hmoves hx := hx.goOn rfl (hO.moves hmoves) (List.Subset.refl _)
  read _ _ _ hx := by
    unfold onManager
    rw [after_zoom]
    exact hx
  cancelActiveSpoofs := by
    refine keeps_getStrategy.bind fun s ↦ (keeps_all fun m hm ↦ ?_).bind fun _ x hx ↦ ?_
    · obtain ⟨spoof, -, rfl⟩ := List.mem_map.1 hm
      exact (unexpired_onClient _ _).bind fun _ ↦ keeps_pure _
    · exact ⟨hx.config_eq, hx.past, fun _ hspoof ↦ by cases hspoof⟩
  cancelQuote symbol side := keeps_dealing (fun _ _ _ hx ↦ hx.congr rfl rfl rfl) _
    (unexpired_onQuoting symbol _)
  attempt := keeps_dealing (fun _ _ _ hx ↦ hx.congr rfl rfl rfl) _ (keeps_pure _)
  submitClosing symbol side quantity price := Keeps.bind (m := nextFlattenOid)
    (fun _ hx ↦ hx.congr rfl rfl rfl) fun orderId ↦
      ((unexpired_newOrder hO orderId symbol side quantity price .ioc).bind fun _ ↦
        keeps_pure _).tryCatch fun _ ↦ keeps_pure _
  finished hx := hx.congr rfl rfl rfl
  checkActiveSpoofs _ := by
    refine keeps_getStrategy.bind fun s ↦ ?_
    split
    · exact keeps_pure _
    refine (unexpired_monotonic hO).bind fun now ↦ keeps_all fun m hm ↦ ?_
    obtain ⟨spoof, -, rfl⟩ := List.mem_map.1 hm
    exact (unexpired_onClient _ _).bind fun _ _ hx ↦ hx.drop _
  killed _ _ _ hx := hx.congr rfl rfl rfl
  stopped _ _ _ hx := hx.congr rfl rfl rfl
  maybeSendSpoof _ symbol side bb ba :=
    unexpired_maybeSendSpoof hO hlifetime symbol side.value bb ba
  manageQuote _ symbol side targetPrice shouldQuote := (unexpired_monotonic hO).bind fun now ↦
    keeps_dealing (fun _ _ _ hx ↦ hx.congr rfl rfl rfl) _ (unexpired_onQuoting symbol _)
  cooldown _ _ _ _ hx := hx.congr rfl rfl rfl
  offer _ symbol side price := Keeps.bind (m := ETFArbEngine.allocOid)
    (fun _ hx ↦ hx.congr rfl rfl rfl) fun orderId ↦
      unexpired_newOrder hO orderId symbol side.value 1 price .ioc
  updatePosition _ _ _ _ _ _ hx := hx.congr rfl rfl rfl

/-- An update that does something leaves none behind whose time was over. -/
theorem unexpired_update
    (hkeyed : ∀ {orderId spoof}, s.activeSpoofs.get? orderId = some spoof →
      spoof.orderId = orderId) (hconfig : s.config = config) (henabled : s.enabled = true)
    (hkilled : s.killed = false) (m : OrderBookManager) :
    Triple (fun x ↦ x = (s, m)) (onMarketDataUpdate O)
      (fun _ x ↦ Unexpired config time (time s.outside) x.1) fun _ ↦ True := by
  have hparts := unexpired_keptByParts (t := time s.outside) hO hlifetime
  have hrest {α : Type} {rest : StrategyM ω α}
      (h : Keeps (fun x ↦ Unexpired config time (time s.outside) x.1) rest) :
      Triple (fun x ↦ Unexpired config time (time s.outside) x.1) rest
        (fun _ x ↦ Unexpired config time (time s.outside) x.1) fun _ ↦ True :=
    (keeps_iff_triple.1 h).weaken (fun _ hx ↦ hx) (fun _ _ hx ↦ hx) fun _ _ ↦ trivial
  rintro _ rfl
  unfold onMarketDataUpdate
  rw [bind_ok (show getStrategy (s, m) = .ok s (s, m) from rfl), henabled, hkilled]
  by_cases hpending : s.pendingFlatten = true
  · rw [if_neg (by decide), if_pos hpending]
    exact unexpired_cancelActiveSpoofs.bind (fun _ ↦ hrest hparts.goFlat_rest) (s, m)
      ⟨hconfig, le_rfl⟩
  · rw [if_neg (by decide), if_neg hpending]
    exact (unexpired_checkActiveSpoofs hO hkeyed hconfig m).bind
      (fun _ ↦ hrest (hparts.onMarketDataUpdate_rest trivial)) (s, m) rfl

end

/-- **Spoofs are cancelled in time**: in every run, by a clock that does not go back, an update of
the market that returns, of a strategy that is enabled and not killed, leaves no spoof active whose
time was over when the update began. -/
theorem unexpired_onMarketDataUpdate (username password : List UInt8)
    (clientId pnlFloor positionCap : ℤ) (socket : Option Socket)
    (network : List (Option (List Arrival))) (calls : List Call) (config : OrderStrategyConfig)
    (outside : ω) (m : OrderBookManager) {time : ω → ℚ} (hO : Forward O time)
    (hlifetime : 0 < config.spoofLifetime) (events : List Event) :
    let x := runEvents O events (.init
      (runCalls calls (init username password clientId pnlFloor positionCap socket network))
        config outside, m)
    ∀ y, x.1.enabled = true → x.1.killed = false → onMarketDataUpdate O x = .ok () y →
      ∀ spoof ∈ y.1.activeSpoofs.values, time x.1.outside < spoof.cancelAt := by
  intro x y henabled hkilled hrun
  have hran : Ran True True _ []
      (runCalls calls (init username password clientId pnlFloor positionCap socket network)) :=
    ran_runCalls (fun _ _ _ ↦ trivial) (fun _ _ _ ↦ trivial) rfl
  have hx : SpoofsAccounted config _ _ x.1 :=
    accounted_keptByRunParts.run (fun _ hx ↦ hx) events (accounted_init hran.batches_eq outside)
  have hupdate := unexpired_update hO hlifetime hx.keyed hx.config_eq henabled hkilled x.2 x rfl
  rw [hrun] at hupdate
  exact hupdate.unexpired

/-- A clock that moves on by a second at each look, and signals of a buyer. -/
def ticking : Outside ℚ where
  monotonic w := (w, w + 1)
  attempts _ := 1
  signals _ _ _ _ _ w := (some ⟨100, 110, 100, 110, true, false⟩, w)
  onRawMessage _ _ _ w := w
  onTradeSummary _ _ w := w
  post _ w := (.failed, w)

/-- A strategy that quotes nothing, and spoofs symbol 5. -/
def spoofing : OrderStrategy ℚ × OrderBookManager :=
  (.init (runCalls [] (init [] [] 7 (-20000) 10 (some (.connected
    (Arrival.burst [.ack ⟨⟨40, 101, 1, 1, 1, 7⟩, 500000, 901, 5, 120⟩] ++ [.pause] ++
      Arrival.burst [.closed ⟨⟨24, 104, 1, 2, 2, 7⟩, 500000⟩] ++ [.pause] ++
      Arrival.burst [.ack ⟨⟨40, 101, 1, 3, 3, 7⟩, 500001, 902, 5, 120⟩]))) []))
      { symbols := [5], softPosition := 1, etfArbEnabled := false } 0,
    (OrderBookManager.processNewOrder 2 2 2 5 .sell 10 110 0).after
      ((OrderBookManager.processNewOrder 1 1 1 5 .buy 10 100 0).after .init))

/-- This clock goes on by one with each look. -/
theorem forward_ticking : Forward ticking id where
  reading w := ⟨le_rfl, (lt_add_one w).le⟩
  moves h := by
    cases h with
    | monotonic => exact (lt_add_one _).le
    | _ => exact le_rfl

/-- The first spoof is replaced by a second one. -/
theorem unexpired_onMarketDataUpdate_ticking :
    let x := runEvents ticking [.marketDataUpdate] spoofing
    ∃ y, onMarketDataUpdate ticking x = .ok () y ∧
      x.1.activeSpoofs.keys = [500000] ∧ y.1.activeSpoofs.keys = [500001] ∧
      ∀ spoof ∈ y.1.activeSpoofs.values, id x.1.outside < spoof.cancelAt := by
  intro x
  have hkeys : ((onMarketDataUpdate ticking).state? x).map
      (fun y ↦ (x.1.activeSpoofs.keys, y.1.activeSpoofs.keys)) = some ([500000], [500001]) := by
    decide +kernel
  obtain ⟨y, hy, heq⟩ := Option.map_eq_some_iff.1 hkeys
  obtain ⟨⟨⟩, hrun⟩ := state?_eq_some_iff.1 hy
  obtain ⟨hbefore, hafter⟩ := Prod.ext_iff.1 heq
  have hran : x.1.enabled = true ∧ x.1.killed = false := by decide +kernel
  refine ⟨y, hrun, hbefore, hafter, ?_⟩
  exact unexpired_onMarketDataUpdate [] [] 7 (-20000) 10 _ [] [] _ 0 _ forward_ticking
    (by decide +kernel) [.marketDataUpdate] y hran.1 hran.2 hrun

end HftTrading.Strategy
