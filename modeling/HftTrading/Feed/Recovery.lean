import HftTrading.Feed.Coverage
import HftTrading.Feed.Log
import HftTrading.Feed.SnapshotStep

/-!
# Snapshot and replay against the whole log

A log of live messages is dispatched by an empty manager; a second feed starts in the middle, loads
every book from a snapshot taken at `L`, and replays what its buffer holds above `L`. Both end with
the same market.

The loading side is followed by `Loading`: which states the snapshot messages of a faithful exchange
reach, in any interleaving of the symbols and the live channel, over any number of cycles, with what
is still to come of each symbol's snapshot. Its invariant `Loaded` says that each book holds exactly
the part of its snapshot that has arrived. Once the feed takes the snapshots for complete they are
(`Loaded.view_eq`), and from there on the two managers are two healthy managers with one view.

## What is said of the exchange

The snapshots are of the market that the first `L` messages of the log lead to, each order once
(`Snapshot`). A symbol's snapshot starts with its info, and its orders follow one by one. Nothing is
said of when the live messages of the log arrive between them, how often, or in which order; only of
what the buffer holds in the end (`Buffered`).

## From the invariant to the market

Completion goes by counting: as many symbols are complete as there are, and a complete symbol has
nothing pending. So every symbol of the log is complete, and its book is its snapshot. From there,
replay dispatches the log from `L + 1` on, each message once and in order, because it sorts and
drops repeats. What an exchange's log does to a healthy manager depends on its view only, so the two
managers end with one view, and with the best prices that it determines.
-/

namespace HftTrading

open MarketData OrderBookManager SnapShotSynchronizer

/-! ### The orders of a snapshot -/

/-- What a snapshot's order is to the market. -/
def restingOf (o : NewOrder) : Resting Side := ⟨o.side, o.quantity, o.price⟩

/-- The book that a list of orders amounts to. -/
def listed (os : List NewOrder) (k : ℤ) : Option (Resting Side) :=
  (os.find? fun o ↦ (o.orderId : ℤ) = k).map restingOf

/-- The orders of a book, each once, as a snapshot lists them. -/
structure Snapshot (book : ℤ → Option (Resting Side)) (symbol : ℤ) (os : List NewOrder) : Prop where
  symbol_eq : ∀ o ∈ os, (o.symbol : ℤ) = symbol
  nodup : (os.map NewOrder.orderId).Nodup
  listed_eq : ∀ k, listed os k = book k

/-- An id that is listed once does not come up before. -/
theorem Snapshot.ne_of_mem {book : ℤ → Option (Resting Side)} {symbol : ℤ} {os rest : List NewOrder}
    {b : NewOrder} (h : Snapshot book symbol (os ++ b :: rest)) :
    ∀ o ∈ os, o.orderId ≠ b.orderId := by
  intro o ho
  have hnodup := h.nodup
  rw [List.map_append, List.map_cons] at hnodup
  exact (List.nodup_append.1 hnodup).2.2 o.orderId (List.mem_map.2 ⟨o, ho, rfl⟩) b.orderId
    List.mem_cons_self

/-- What is listed under an id is one of the orders, under that id. -/
theorem listed_eq_some {os : List NewOrder} {k : ℤ} {r : Resting Side} (h : listed os k = some r) :
    ∃ o ∈ os, (o.orderId : ℤ) = k ∧ restingOf o = r := by
  obtain ⟨o, ho, hr⟩ := Option.map_eq_some_iff.1 h
  exact ⟨o, List.mem_of_find?_eq_some ho, by simpa using List.find?_some ho, hr⟩

/-- An id is free if no order comes with it. -/
theorem listed_eq_none_iff {os : List NewOrder} {k : ℤ} :
    listed os k = none ↔ ∀ o ∈ os, (o.orderId : ℤ) ≠ k := by
  rw [listed, Option.map_eq_none_iff, List.find?_eq_none]
  simp

/-- More orders behind do not change what is listed. -/
theorem listed_append_of_some {os os' : List NewOrder} {k : ℤ} {r : Resting Side}
    (h : listed os k = some r) : listed (os ++ os') k = some r := by
  rw [listed, Option.map_eq_some_iff] at h ⊢
  obtain ⟨o, ho, hr⟩ := h
  exact ⟨o, by rw [List.find?_append, ho]; rfl, hr⟩

/-- One more order, under a new id. -/
theorem listed_concat {os : List NewOrder} {o : NewOrder}
    (hnew : ∀ o' ∈ os, o'.orderId ≠ o.orderId) (k : ℤ) :
    listed (os ++ [o]) k = if k = o.orderId then some (restingOf o) else listed os k := by
  unfold listed
  rw [Dict.find?_concat (fun o' : NewOrder ↦ (o'.orderId : ℤ))
    fun o' ho' ↦ Nat.cast_injective.ne (hnew o' ho')]
  split <;> rfl

/-! ### Loading -/

/-- Nothing has been received since the start or the last reset. -/
structure Fresh (z : SnapShotSynchronizer) : Prop where
  sync : z.sync = false
  liveBuffer : z.liveBuffer = []
  snapState : z.snapState = .empty
  snapComplete : z.snapComplete = false
  completedSymbols : z.completedSymbols = ∅
  lastSnapSeqNum : z.lastSnapSeqNum = 0
  books : z.bookManager.Books
  orders : ∀ s k, z.bookManager.order? s k = none
  index : z.bookManager.orderIdToSymbol = .empty

theorem fresh_start (totalSymbols : ℕ) : Fresh (start totalSymbols) :=
  ⟨rfl, rfl, rfl, rfl, rfl, rfl, books_init, fun _ _ ↦ rfl, rfl⟩

theorem fresh_reset (z : SnapShotSynchronizer) : Fresh z.resetForResnap := by
  have hbooks : ∀ s, z.resetForResnap.bookManager.books.get? s =
      (z.bookManager.books.get? s).map OrderBook.clear :=
    Dict.get?_mapValues z.bookManager.books OrderBook.clear
  refine ⟨rfl, rfl, rfl, rfl, rfl, rfl, fun s book hb ↦ ?_, fun s k ↦ ?_, rfl⟩
  · rw [hbooks, Option.map_eq_some_iff] at hb
    obtain ⟨book', -, rfl⟩ := hb
    exact OrderBook.consistent_clear book'
  · rw [order?, hbooks]
    rcases z.bookManager.books.get? s with - | book <;> rfl

/-- **The feed while it loads a snapshot taken at `L`** of the log `E`: from a fresh state, live
messages are buffered, snapshot messages handled and books read, in any interleaving. `pending` is
what is still to come of each symbol's snapshot. A `SnapshotInfo` carries `L` and announces the
orders of the symbol's book at `L`, which then come one by one, unless it itself completes the
snapshots. Once they are complete the feed replays, so the loading ends there. -/
inductive Loading (symbols : Finset ℤ) (E : List Message) (L : ℕ) :
    SnapShotSynchronizer → (ℤ → List NewOrder) → Prop
  | fresh {z : SnapShotSynchronizer} (hz : Fresh z) (htotal : z.totalSymbols = symbols.card) :
      Loading symbols E L z fun _ ↦ []
  | live {z : SnapShotSynchronizer} {pending : ℤ → List NewOrder}
      (h : Loading symbols E L z pending)
      (hc : z.snapComplete = false) (header : MDHeader) (body : MarketDataMessage) :
      Loading symbols E L (bufferLiveMessage header body z) pending
  | read {z : SnapShotSynchronizer} {pending : ℤ → List NewOrder}
      (h : Loading symbols E L z pending)
      (hc : z.snapComplete = false) {symbol : ℤ} {m : OrderBookManager}
      (hread : readBook symbol z.bookManager = .ok () m) :
      Loading symbols E L (setManager m z) pending
  | info {z z' : SnapShotSynchronizer} {pending : ℤ → List NewOrder}
      (h : Loading symbols E L z pending)
      (hc : z.snapComplete = false) {header : MDHeader} {b : SnapshotInfo} {os : List NewOrder}
      (htype : header.msgType = .snapshotInfo) (hL : b.lastMdSeqNum = L)
      (hos : Snapshot (marketAt E L b.symbol) b.symbol os)
      (hcount : b.askCount + b.bidCount = os.length)
      (hrun : handleSnapshotMessage header (.snapshotInfo b) z = .ok () z')
      (hc' : z'.snapComplete = false) :
      Loading symbols E L z' (Function.update pending b.symbol os)
  | lastInfo {z z' : SnapShotSynchronizer} {pending : ℤ → List NewOrder}
      (h : Loading symbols E L z pending) (hc : z.snapComplete = false) {header : MDHeader}
      {b : SnapshotInfo} (htype : header.msgType = .snapshotInfo) (hL : b.lastMdSeqNum = L)
      (hrun : handleSnapshotMessage header (.snapshotInfo b) z = .ok () z')
      (hc' : z'.snapComplete = true) : Loading symbols E L z' pending
  | order {z z' : SnapShotSynchronizer} {pending : ℤ → List NewOrder}
      (h : Loading symbols E L z pending)
      (hc : z.snapComplete = false) {header : MDHeader} {b : NewOrder} {rest : List NewOrder}
      (htype : header.msgType = .newOrder) (hpending : pending b.symbol = b :: rest)
      (hrun : handleSnapshotMessage header (.newOrder b) z = .ok () z') :
      Loading symbols E L z' (Function.update pending b.symbol rest)

/-- **The invariant**: each book holds the part of its snapshot that has arrived. -/
structure Loaded (symbols : Finset ℤ) (E : List Message) (L : ℕ) (z : SnapShotSynchronizer)
    (pending : ℤ → List NewOrder) : Prop where
  sync : z.sync = false
  healthy : z.bookManager.Healthy
  total : z.totalSymbols = symbols.card
  lastSnap_le : z.lastSnapSeqNum ≤ L
  /-- A symbol without a `SnapshotInfo` so far. -/
  unseen : ∀ s, z.snapState.get? s = none →
    (∀ k, z.bookManager.view s k = none) ∧ s ∉ z.completedSymbols ∧ pending s = []
  /-- A symbol with one: what has been loaded, followed by what is pending, is its snapshot. -/
  seen : ∀ s state, z.snapState.get? s = some state → z.lastSnapSeqNum = L ∧ ∃ loaded,
    Snapshot (marketAt E L s) s (loaded ++ pending s) ∧
    (∀ k, z.bookManager.view s k = listed loaded k) ∧
    state.ordersReceived = loaded.length ∧
    state.expectedTotal = (loaded ++ pending s).length ∧
    (s ∈ z.completedSymbols → pending s = [] ∧ loaded ≠ [])
  complete : z.snapComplete = true →
    z.completedSymbols.card = z.totalSymbols ∧ z.completedSymbols.Nonempty

/-- **Whatever rests in the books rests in the market at `L`.** -/
theorem Loaded.view_subset {symbols : Finset ℤ} {E : List Message} {L : ℕ}
    {z : SnapShotSynchronizer} {pending : ℤ → List NewOrder} (h : Loaded symbols E L z pending)
    {s k : ℤ} {r : Resting Side} (hr : z.bookManager.view s k = some r) :
    marketAt E L s k = some r := by
  rcases hstate : z.snapState.get? s with - | state
  · rw [(h.unseen s hstate).1 k] at hr
    cases hr
  · obtain ⟨-, loaded, hsnap, hview, -⟩ := h.seen s state hstate
    rw [hview] at hr
    rw [← hsnap.listed_eq k]
    exact listed_append_of_some hr

/-! ### Opening a book, loading an order, closing a book -/

/-- Reading a book leaves the market as it is. -/
theorem OrderBookManager.Healthy.kept {m m' : OrderBookManager} (h : m.Healthy) (hk : Kept m m') :
    m'.Healthy ∧ m'.view = m.view := by
  refine ⟨⟨hk.books, ?_, fun k s' hs' ↦ ?_, ?_⟩, ?_⟩
  · rintro k s' ⟨o, ho⟩
    rw [hk.orders] at ho
    rw [hk.index]
    exact h.indexed k s' ⟨o, ho⟩
  · rw [hk.index] at hs'
    have hbook := hk.backed s' (Dict.contains_eq_true_iff.2 (h.backed k s' hs'))
    exact Dict.contains_eq_true_iff.1 hbook
  · rw [hk.orders]
    exact h.positive
  · unfold view
    rw [hk.orders]

/-- Opening the snapshot of a symbol empties its book and leaves the others. -/
theorem openBook_spec {m m' : OrderBookManager} (h : m.Healthy) {s : ℤ}
    (hrun : openBook s m = .ok () m') :
    m'.Healthy ∧ ∀ s' k, m'.view s' k = if s' = s then none else m.view s' k := by
  obtain ⟨m₁, hrun₁, hb, hindex, horder, hbacked⟩ := openBook_returns h.books s
  cases hrun₁.symm.trans hrun
  refine ⟨⟨hb, ?_, fun k s' hk ↦ ?_, fun s' k o ho ↦ ?_⟩, fun s' k ↦ ?_⟩
  · rintro k s' ⟨o, ho⟩
    rw [horder] at ho
    split at ho
    · cases ho
    · rw [hindex]
      exact h.indexed k s' ⟨o, ho⟩
  · rw [hindex] at hk
    exact Dict.contains_eq_true_iff.1
      (hbacked s' (Or.inr (Dict.contains_eq_true_iff.2 (h.backed k s' hk))))
  · rw [horder] at ho
    split at ho
    · cases ho
    · exact h.positive s' k o ho
  · rw [view, horder]
    split <;> rfl

/-! ### One step of the loading -/

/-- From a fresh feed, nothing has arrived and nothing is pending. -/
theorem Loaded.fresh {symbols : Finset ℤ} {z : SnapShotSynchronizer} (hz : Fresh z)
    (htotal : z.totalSymbols = symbols.card) (E : List Message) (L : ℕ) :
    Loaded symbols E L z fun _ ↦ [] where
  sync := hz.sync
  healthy := by
    refine ⟨hz.books, ?_, fun k s hk ↦ ?_, fun s k o ho ↦ ?_⟩
    · rintro k s ⟨o, ho⟩
      rw [hz.orders] at ho
      cases ho
    · rw [hz.index] at hk
      cases hk
    · rw [hz.orders] at ho
      cases ho
  total := htotal
  lastSnap_le := by rw [hz.lastSnapSeqNum]; exact Nat.zero_le L
  unseen s _ := by
    refine ⟨fun k ↦ ?_, ?_, rfl⟩
    · rw [view_eq_none_iff, hz.orders]
    · rw [hz.completedSymbols]
      exact Finset.notMem_empty s
  seen s state hstate := by
    rw [hz.snapState] at hstate
    cases hstate
  complete hc := by
    rw [hz.snapComplete] at hc
    cases hc

section Steps

variable {symbols : Finset ℤ} {E : List Message} {L : ℕ} {z z' : SnapShotSynchronizer}
  {pending : ℤ → List NewOrder}

/-- A live message goes into the buffer and no further. -/
theorem Loaded.live (h : Loaded symbols E L z pending) (header : MDHeader)
    (body : MarketDataMessage) : Loaded symbols E L (bufferLiveMessage header body z) pending :=
  ⟨h.sync, h.healthy, h.total, h.lastSnap_le, h.unseen, h.seen, h.complete⟩

/-- What leaves the market as it is leaves the invariant as it is. -/
theorem Loaded.setManager (h : Loaded symbols E L z pending) {m : OrderBookManager}
    (hm : m.Healthy) (hview : m.view = z.bookManager.view) :
    Loaded symbols E L (SnapShotSynchronizer.setManager m z) pending := by
  refine ⟨h.sync, hm, h.total, h.lastSnap_le, fun s hs ↦ ?_, fun s state hs ↦ ?_, h.complete⟩
  · show (∀ k, m.view s k = none) ∧ _
    rw [hview]
    exact h.unseen s hs
  · show _ ∧ ∃ loaded, _ ∧ (∀ k, m.view s k = _) ∧ _
    rw [hview]
    exact h.seen s state hs

/-- A `SnapshotInfo` that finds all symbols complete opens nothing. -/
theorem Loaded.lastInfo (h : Loaded symbols E L z pending) (hc : z.snapComplete = false)
    {b : SnapshotInfo} (hrun : handleSnapshotInfo b z = .ok () z') (hc' : z'.snapComplete = true) :
    Loaded symbols E L z' pending := by
  rcases handleSnapshotInfo_ok hrun with ⟨-, hmem, hcard, rfl⟩ | ⟨-, m, -, rfl⟩
  · exact ⟨h.sync, h.healthy, h.total, h.lastSnap_le, h.unseen, h.seen,
      fun _ ↦ ⟨hcard, ⟨_, hmem⟩⟩⟩
  · exact absurd (hc.symm.trans hc') Bool.false_ne_true

/-- **A `SnapshotInfo`** opens its symbol's book, with all of its snapshot pending. -/
theorem Loaded.info (h : Loaded symbols E L z pending) (hc : z.snapComplete = false)
    {b : SnapshotInfo} {os : List NewOrder} (hL : b.lastMdSeqNum = L)
    (hos : Snapshot (marketAt E L b.symbol) b.symbol os)
    (hcount : b.askCount + b.bidCount = os.length) (hrun : handleSnapshotInfo b z = .ok () z')
    (hc' : z'.snapComplete = false) :
    Loaded symbols E L z' (Function.update pending b.symbol os) := by
  rcases handleSnapshotInfo_ok hrun with ⟨-, -, -, rfl⟩ | ⟨-, m, hopen, rfl⟩
  · exact absurd (show true = false from hc') (by simp)
  obtain ⟨hm, hview⟩ := openBook_spec h.healthy hopen
  have hlast : max z.lastSnapSeqNum b.lastMdSeqNum = L := by
    have hle := h.lastSnap_le
    omega
  have hstate : ∀ s, (SnapShotSynchronizer.setManager m (startSnapshot b z)).snapState.get? s =
      if s = b.symbol then some ⟨b.askCount, b.bidCount, b.lastMdSeqNum, 0, b.askCount + b.bidCount⟩
      else z.snapState.get? s := fun s ↦ Dict.get?_insert _ _ _ _
  refine ⟨h.sync, hm, h.total, hlast.le, fun s hs ↦ ?_, fun s state hs ↦ ⟨hlast, ?_⟩,
    fun hc' ↦ absurd (hc.symm.trans hc') Bool.false_ne_true⟩
  · rw [hstate] at hs
    split at hs
    · cases hs
    · rename_i hne
      obtain ⟨hnone, hnot, hpending⟩ := h.unseen s hs
      refine ⟨fun k ↦ ?_, fun hmem ↦ hnot (Finset.mem_of_mem_erase hmem), ?_⟩
      · show m.view s k = none
        rw [hview, if_neg hne, hnone]
      · rw [Function.update_of_ne hne, hpending]
  · rw [hstate] at hs
    by_cases hne : s = b.symbol
    -- the symbol's snapshot starts over
    · rw [if_pos hne] at hs
      cases hs
      subst hne
      refine ⟨[], ?_, fun k ↦ ?_, rfl, ?_, fun hmem ↦ ?_⟩
      · rw [Function.update_self]
        exact hos
      · show m.view _ k = _
        rw [hview, if_pos rfl]
        rfl
      · rw [Function.update_self]
        exact hcount
      · exact absurd rfl (Finset.ne_of_mem_erase hmem)
    · rw [if_neg hne] at hs
      obtain ⟨-, loaded, hsnap, hloaded, hreceived, htotal, hdone⟩ := h.seen s state hs
      rw [Function.update_of_ne hne]
      refine ⟨loaded, hsnap, fun k ↦ ?_, hreceived, htotal, fun hmem ↦
        hdone (Finset.mem_of_mem_erase hmem)⟩
      show m.view s k = _
      rw [hview, if_neg hne, hloaded]

/-- The next order of a snapshot goes into its book, and nowhere else. -/
theorem Loaded.loadOrder (h : Loaded symbols E L z pending) (hE : ExchangeLog symbols E)
    {b : NewOrder} {rest : List NewOrder} (hpending : pending b.symbol = b :: rest)
    {state : SnapState} (hstate : z.snapState.get? b.symbol = some state) {header : MDHeader}
    {m : OrderBookManager} (hload : loadOrder header b z.bookManager = .ok () m) :
    m.Healthy ∧ ∀ s k, m.view s k =
      if (s, k) = ((b.symbol : ℤ), (b.orderId : ℤ)) then some (restingOf b)
      else z.bookManager.view s k := by
  obtain ⟨-, loaded, hsnap, hview, -⟩ := h.seen _ state hstate
  rw [hpending] at hsnap
  -- its id rests nowhere yet: not in its own book, and in no other book of the market at `L`
  have hnone : ∀ s, z.bookManager.view s b.orderId = none := by
    intro s
    by_contra hsome
    obtain ⟨r, hr⟩ := Option.ne_none_iff_exists'.1 hsome
    by_cases hs : s = b.symbol
    · subst hs
      rw [hview] at hr
      obtain ⟨o, ho, hid, -⟩ := listed_eq_some hr
      exact hsnap.ne_of_mem o ho (by exact_mod_cast hid)
    · obtain ⟨m', -, hm', hview'⟩ := hE.exists_manager L
      have hlisted : ∃ r', listed (loaded ++ b :: rest) b.orderId = some r' := by
        rw [← Option.ne_none_iff_exists', ne_eq, listed_eq_none_iff]
        exact fun hall ↦ hall b (by simp) rfl
      obtain ⟨r', hr'⟩ := hlisted
      rw [hsnap.listed_eq, ← hview', view_eq_some_iff] at hr'
      have hother := h.view_subset hr
      rw [← hview', view_eq_some_iff] at hother
      obtain ⟨o', ho', -⟩ := hr'
      obtain ⟨o, ho, -⟩ := hother
      exact hs (hm'.unique ⟨o, ho⟩ ⟨o', ho'⟩)
  obtain ⟨m', hrun, hm', hview'⟩ := refines_newOrder h.healthy header.seqNum header.timestamp
    b.orderId b.symbol b.side b.quantity b.price b.flags
    ⟨hnone, quantity_pos_of_newOrder h.healthy hload⟩
  have hsame : m' = m := by
    unfold SnapShotSynchronizer.loadOrder at hload
    rw [hload] at hrun
    cases hrun
    rfl
  subst hsame
  refine ⟨hm', fun s k ↦ ?_⟩
  rw [hview']
  rfl

/-- **One more order in**: what has been loaded grows by the head of what was pending. -/
theorem Loaded.advance (h : Loaded symbols E L z pending) (hc : z.snapComplete = false)
    {b : NewOrder} {rest : List NewOrder} (hpending : pending b.symbol = b :: rest)
    {state : SnapState} (hstate : z.snapState.get? b.symbol = some state) {m : OrderBookManager}
    (hm : m.Healthy) (hview : ∀ s k, m.view s k =
      if (s, k) = ((b.symbol : ℤ), (b.orderId : ℤ)) then some (restingOf b)
      else z.bookManager.view s k)
    (completed : Finset ℤ) (hcompleted : ∀ s ∈ completed, s ∈ z.completedSymbols ∨
      s = b.symbol ∧ state.ordersReceived + 1 = state.expectedTotal) :
    Loaded symbols E L
      { SnapShotSynchronizer.setManager m (countOrder b.symbol state z) with
        completedSymbols := completed } (Function.update pending b.symbol rest) := by
  have hget : ∀ s, (countOrder b.symbol state z).snapState.get? s =
      if s = b.symbol then some { state with ordersReceived := state.ordersReceived + 1 }
      else z.snapState.get? s := fun s ↦ Dict.get?_insert _ _ _ _
  have hothers : ∀ s k : ℤ, s ≠ b.symbol → m.view s k = z.bookManager.view s k := by
    intro s k hs
    rw [hview, if_neg fun heq ↦ hs (Prod.mk.inj heq).1]
  refine ⟨h.sync, hm, h.total, h.lastSnap_le, fun s hs ↦ ?_, fun s st hs ↦ ?_,
    fun hc' ↦ absurd (hc.symm.trans hc') Bool.false_ne_true⟩
  · have hs' := (hget s).symm.trans hs
    split at hs'
    · cases hs'
    · rename_i hne
      obtain ⟨hnone, hnot, hempty⟩ := h.unseen s hs'
      refine ⟨fun k ↦ (hothers s k hne).trans (hnone k), fun hmem ↦ ?_, ?_⟩
      · rcases hcompleted s hmem with hold | ⟨heq, -⟩
        · exact hnot hold
        · exact hne heq
      · rw [Function.update_of_ne hne, hempty]
  · have hs' := (hget s).symm.trans hs
    by_cases hne : s = b.symbol
    -- the order goes from what is pending to what is loaded
    · rw [if_pos hne] at hs'
      cases hs'
      subst hne
      obtain ⟨hlast, loaded, hsnap, hloaded, hreceived, htotal, hdone⟩ := h.seen _ state hstate
      rw [hpending] at hsnap htotal hdone
      have hsplit : loaded ++ [b] ++ rest = loaded ++ b :: rest := by simp
      refine ⟨hlast, loaded ++ [b], ?_, fun k ↦ ?_, ?_, ?_, fun hmem ↦ ?_⟩
      · rw [Function.update_self, hsplit]
        exact hsnap
      · rw [listed_concat hsnap.ne_of_mem, ← hloaded]
        exact (hview _ k).trans (if_congr (by simp) rfl rfl)
      · simp [hreceived]
      · rw [Function.update_self, hsplit]
        exact htotal
      · rw [Function.update_self]
        rcases hcompleted _ hmem with hold | ⟨-, hlast⟩
        · exact absurd (hdone hold).1 (by simp)
        -- the count is reached, so nothing is pending
        · rw [htotal, hreceived, List.length_append, List.length_cons] at hlast
          exact ⟨List.length_eq_zero_iff.1 (by omega), by simp⟩
    · rw [if_neg hne] at hs'
      obtain ⟨hlast, loaded, hsnap, hloaded, hreceived, htotal, hdone⟩ := h.seen s st hs'
      rw [Function.update_of_ne hne]
      refine ⟨hlast, loaded, hsnap, fun k ↦ (hothers s k hne).trans (hloaded k), hreceived, htotal,
        fun hmem ↦ ?_⟩
      rcases hcompleted s hmem with hold | ⟨heq, -⟩
      · exact hdone hold
      · exact absurd heq hne

/-- Completion is decided by the count of complete symbols. -/
theorem Loaded.decideComplete (h : Loaded symbols E L z pending)
    (hne : z.completedSymbols.Nonempty) : Loaded symbols E L (decideComplete z) pending := by
  unfold SnapShotSynchronizer.decideComplete
  split
  · rename_i hcovers
    exact ⟨h.sync, h.healthy, h.total, h.lastSnap_le, h.unseen, h.seen, fun _ ↦ ⟨hcovers.2, hne⟩⟩
  · exact h

/-- **A snapshot order**, taken into its book; the last one of its symbol completes it. -/
theorem Loaded.order (h : Loaded symbols E L z pending) (hE : ExchangeLog symbols E)
    (hc : z.snapComplete = false) {header : MDHeader} {b : NewOrder} {rest : List NewOrder}
    (hpending : pending b.symbol = b :: rest)
    (hrun : handleSnapshotOrder header b z = .ok () z') :
    Loaded symbols E L z' (Function.update pending b.symbol rest) := by
  rcases handleSnapshotOrder_ok hrun with ⟨hnone, -⟩ | ⟨state, m, hstate, -, hload, hcases⟩
  · rw [(h.unseen _ hnone).2.2] at hpending
    cases hpending
  obtain ⟨hm, hview⟩ := h.loadOrder hE hpending hstate hload
  rcases hcases with ⟨-, rfl⟩ | ⟨htotal, m', hvalidate, rfl⟩
  · exact h.advance hc hpending hstate hm hview z.completedSymbols fun s hs ↦ Or.inl hs
  · obtain ⟨hm', hview'⟩ := hm.kept (kept_validate hm.books hvalidate)
    have hadvanced := h.advance hc hpending hstate hm' (fun s k ↦ by rw [hview', hview])
      (insert (b.symbol : ℤ) z.completedSymbols) fun s hs ↦
        (Finset.mem_insert.1 hs).symm.imp_right fun heq ↦ ⟨heq, htotal⟩
    exact hadvanced.decideComplete ⟨_, Finset.mem_insert_self _ _⟩

/-- **Along the loading** the invariant holds. -/
theorem Loading.loaded (hE : ExchangeLog symbols E) (h : Loading symbols E L z pending) :
    Loaded symbols E L z pending := by
  induction h with
  | fresh hz htotal => exact Loaded.fresh hz htotal E L
  | live _ _ header body ih => exact ih.live header body
  | read _ _ hread ih =>
    obtain ⟨hm, hview⟩ := ih.healthy.kept (kept_readBook ih.healthy.books hread)
    exact ih.setManager hm hview
  | info _ hc htype hL hos hcount hrun hc' ih =>
    unfold handleSnapshotMessage at hrun
    rw [htype] at hrun
    exact ih.info hc hL hos hcount hrun hc'
  | lastInfo _ hc htype _ hrun hc' ih =>
    unfold handleSnapshotMessage at hrun
    rw [htype] at hrun
    exact ih.lastInfo hc hrun hc'
  | order _ hc htype hpending hrun ih =>
    unfold handleSnapshotMessage at hrun
    rw [htype] at hrun
    exact ih.order hE hc hpending hrun

/-- **Complete means complete**: the books hold the market at `L`. -/
theorem Loaded.view_eq (h : Loaded symbols E L z pending) (hE : ExchangeLog symbols E)
    (hc : z.snapComplete = true) :
    z.lastSnapSeqNum = L ∧ z.bookManager.view = marketAt E L := by
  obtain ⟨hcard, hne⟩ := h.complete hc
  have hseen : ∀ s ∈ z.completedSymbols, ∃ state, z.snapState.get? s = some state := by
    intro s hs
    rw [← Option.ne_none_iff_exists']
    exact fun hnone ↦ (h.unseen s hnone).2.1 hs
  -- a completed symbol has an order at `L`, so it is one of the log's
  have hsubset : z.completedSymbols ⊆ symbols := by
    intro s hs
    obtain ⟨state, hstate⟩ := hseen s hs
    obtain ⟨-, loaded, hsnap, -, -, -, hdone⟩ := h.seen s state hstate
    obtain ⟨o, ho⟩ := List.exists_mem_of_ne_nil loaded (hdone hs).2
    have hlisted : listed (loaded ++ pending s) o.orderId ≠ none := by
      rw [ne_eq, listed_eq_none_iff]
      exact fun hall ↦ hall o (List.mem_append_left _ ho) rfl
    rw [hsnap.listed_eq] at hlisted
    obtain ⟨r, hr⟩ := Option.ne_none_iff_exists'.1 hlisted
    exact hE.mem_of_marketAt hr
  have hall : z.completedSymbols = symbols :=
    Finset.eq_of_subset_of_card_le hsubset (by rw [hcard, h.total])
  constructor
  · obtain ⟨s, hs⟩ := hne
    obtain ⟨state, hstate⟩ := hseen s hs
    exact (h.seen s state hstate).1
  · funext s k
    by_cases hs : s ∈ symbols
    · rw [← hall] at hs
      obtain ⟨state, hstate⟩ := hseen s hs
      obtain ⟨-, loaded, hsnap, hview, -, -, hdone⟩ := h.seen s state hstate
      rw [(hdone hs).1, List.append_nil] at hsnap
      rw [hview, hsnap.listed_eq]
    · have hnone : marketAt E L s k = none := by
        rw [Option.eq_none_iff_forall_ne_some]
        exact fun r hr ↦ hs (hE.mem_of_marketAt hr)
      rw [hnone, Option.eq_none_iff_forall_ne_some]
      exact fun r hr ↦ hs (hE.mem_of_marketAt (h.view_subset hr))

end Steps

/-! ### The buffer -/

/-- A buffer of exactly the messages numbered from `first` to `last`, in any order and any number of
times each. -/
structure Buffered (E : List Message) (first last : ℕ) (buffer : List Message) : Prop where
  first_le : first ≤ last
  last_le : last ≤ E.length
  first_pos : 0 < first
  mem_iff : ∀ item, item ∈ buffer ↔ item ∈ E ∧ first ≤ seqOf item ∧ seqOf item ≤ last

section Replay

variable {symbols : Finset ℤ} {E : List Message} {L first last : ℕ} {z : SnapShotSynchronizer}

/-- A buffer that reaches back to the snapshot is one that replay accepts. -/
theorem Buffered.replayCovers (h : Buffered E first last z.liveBuffer)
    (hE : ExchangeLog symbols E) (hfirst : first ≤ z.lastSnapSeqNum + 1) : z.ReplayCovers := by
  have hpos := h.first_pos
  have hle := h.first_le
  have hlast := h.last_le
  have hseq : seqOf E[first - 1] = first := by
    rw [hE.numbered (first - 1) (by omega)]
    omega
  refine ⟨E[first - 1], (h.mem_iff _).2 ⟨List.getElem_mem _, by omega, by omega⟩, by omega⟩

/-- **What replay dispatches** is the log from `L + 1` up to the end of the buffer, each message
once and in order. -/
theorem Buffered.toReplay_eq (h : Buffered E first last z.liveBuffer) (hE : ExchangeLog symbols E)
    (hL : z.lastSnapSeqNum = L) (hfirst : first ≤ L + 1) :
    z.toReplay = (E.take (max last L)).drop L := by
  have hmem : ∀ item, item ∈ z.toReplay ↔ item ∈ (E.take (max last L)).drop L := by
    intro item
    rw [hE.mem_drop_take_iff, toReplay, hL, List.mem_filter, decide_eq_true_eq]
    constructor
    · rintro ⟨hitem, habove⟩
      obtain ⟨hinE, -, hle⟩ := (h.mem_iff item).1 (mem_of_mem_deduped hitem)
      exact ⟨hinE, habove, by omega⟩
    · rintro ⟨hinE, habove, hle⟩
      refine ⟨?_, habove⟩
      obtain ⟨item', hmem', hseq⟩ :=
        exists_mem_deduped ((h.mem_iff item).2 ⟨hinE, by omega, by omega⟩)
      have hinE' := ((h.mem_iff item').1 (mem_of_mem_deduped hmem')).1
      rwa [← hE.eq_of_seqOf_eq hinE' hinE hseq]
  have hsorted : z.toReplay.Pairwise fun x y ↦ seqOf x < seqOf y :=
    (pairwise_deduped z.liveBuffer).sublist List.filter_sublist
  have hsorted' := hE.pairwise_drop_take L (max last L)
  have hnodup : ∀ {l : List Message}, (l.Pairwise fun x y ↦ seqOf x < seqOf y) → l.Nodup :=
    fun hl ↦ hl.imp fun hlt heq ↦ by rw [heq] at hlt; exact lt_irrefl _ hlt
  have hperm := (List.perm_ext_iff_of_nodup (hnodup hsorted) (hnodup hsorted')).2 hmem
  exact hperm.eq_of_pairwise (fun x y _ _ hxy hyx ↦ absurd hxy (not_lt.2 hyx.le)) hsorted hsorted'

/-- **Snapshot plus replay is replay from the beginning**: once the snapshots at `L` are complete,
the replay returns, and the feed's books hold the same orders, and quote the same best prices, as
those of a manager that dispatched the log from its first message. -/
theorem replay_eq_dispatch {pending : ℤ → List NewOrder} (hE : ExchangeLog symbols E)
    (hload : Loading symbols E L z pending) (hc : z.snapComplete = true)
    (hbuffer : Buffered E first last z.liveBuffer) (hfirst : first ≤ L + 1) :
    ∃ z' m, replayBufferedMessages z = .ok () z' ∧
      dispatchAll (E.take (max last L)) OrderBookManager.init = .ok () m ∧ z'.sync = true ∧
      ∀ symbol,
        (∀ id, (z'.bookManager.order? symbol id).map resting = (m.order? symbol id).map resting) ∧
        ∀ side, ∃ r m₁ m₂, readBest side symbol z'.bookManager = .ok r m₁ ∧
          readBest side symbol m = .ok r m₂ := by
  have hloaded := hload.loaded hE
  obtain ⟨hL, hview⟩ := hloaded.view_eq hE hc
  obtain ⟨m, hrun, hm, hviewm⟩ := hE.exists_manager (max last L)
  obtain ⟨hacc, happly⟩ := hE.accepts_from L (max last L) (le_max_right _ _)
  rw [← hbuffer.toReplay_eq hE hL hfirst, ← hview] at hacc happly
  obtain ⟨m', hreplay, hm', hview'⟩ := refines_dispatchAll hloaded.healthy hacc
  have hsame : m'.view = m.view := by rw [hview', hviewm, happly]
  refine ⟨goLive m' z, m, ?_, hrun, rfl, fun symbol ↦ ⟨fun id ↦ ?_, fun side ↦ ?_⟩⟩
  · exact replayBufferedMessages_eq_ok_iff.2
      (Or.inr ⟨hbuffer.replayCovers hE (by omega), m', hreplay, rfl⟩)
  · exact congrFun (congrFun hsame symbol) id
  · exact readBest_eq_of_view hm'.books hm.books hsame side symbol

end Replay

/-! ### A feed that joins after the first message

Order 7 rests when the snapshot is taken. Order 8 comes and is filled while the snapshot loads; its
two messages wait in the buffer, one of them twice. -/

/-- The log. -/
def shortLog : List Message :=
  [(⟨MAGIC_NUMBER, 45, 1, 0, .newOrder⟩, .newOrder ⟨7, 0, .buy, 5, 100, 0⟩),
    (⟨MAGIC_NUMBER, 45, 2, 0, .newOrder⟩, .newOrder ⟨8, 0, .sell, 3, 105, 0⟩),
    (⟨MAGIC_NUMBER, 39, 3, 0, .trade⟩, .trade ⟨8, 3, 105⟩)]

/-- Nothing rests in a book that has not been opened. -/
theorem view_of_keys {m : OrderBookManager} {s₀ s : ℤ} (hkeys : m.books.keys = [s₀]) (hs : s ≠ s₀)
    (k : ℤ) : m.view s k = none := by
  rw [view_eq_none_iff]
  refine order?_of_no_book (Dict.get?_eq_none_iff.2 ?_) k
  rw [hkeys]
  simpa using hs

/-- The log is one that a fair exchange sends. -/
theorem exchangeLog_shortLog : ExchangeLog {0} shortLog where
  numbered := by decide
  dispatches := ⟨_, rfl⟩
  fair := by
    intro pre item hpre m hrun
    rcases pre with - | ⟨x, - | ⟨y, - | ⟨w, pre⟩⟩⟩ <;>
      simp only [shortLog, List.nil_append, List.cons_append, List.cons_prefix_cons,
        List.prefix_nil, List.append_eq_nil_iff, List.cons_ne_nil, and_false] at hpre
    · obtain ⟨rfl, -⟩ := hpre
      cases hrun
      exact fun s ↦ rfl
    · obtain ⟨rfl, rfl, -⟩ := hpre
      intro s
      by_cases hs : s = 0
      · subst hs
        cases hrun
        rfl
      · exact view_of_keys (by cases hrun; rfl) hs 8
    · obtain ⟨rfl, rfl, rfl, -⟩ := hpre
      intro s r hr
      by_cases hs : s = 0
      · subst hs
        cases hrun
        cases hr
        decide
      · have hnone : m.view s 8 = none := view_of_keys (by cases hrun; rfl) hs 8
        exact absurd (hnone.symm.trans hr) (by simp)
  about := by
    intro item hitem s id r hnew
    simp only [shortLog, List.mem_cons, List.not_mem_nil, or_false] at hitem
    rcases hitem with rfl | rfl | rfl <;> cases hnew
    · decide
    · decide

/-- What the feed has buffered by the time the snapshot starts. -/
def bufferedShort : SnapShotSynchronizer :=
  bufferLiveMessage ⟨MAGIC_NUMBER, 45, 2, 0, .newOrder⟩ (.newOrder ⟨8, 0, .sell, 3, 105, 0⟩)
    (bufferLiveMessage ⟨MAGIC_NUMBER, 39, 3, 0, .trade⟩ (.trade ⟨8, 3, 105⟩)
      (bufferLiveMessage ⟨MAGIC_NUMBER, 45, 2, 0, .newOrder⟩
        (.newOrder ⟨8, 0, .sell, 3, 105, 0⟩) (start 1)))

/-- The feed comes to complete snapshots, with this buffer. -/
theorem loading_shortLog : ∃ z pending, Loading {0} shortLog 1 z pending ∧
    z.snapComplete = true ∧ z.liveBuffer = bufferedShort.liveBuffer := by
  have hbuffered : Loading {0} shortLog 1 bufferedShort fun _ ↦ [] :=
    ((Loading.fresh (fresh_start 1) rfl).live rfl _ _ |>.live rfl _ _).live rfl _ _
  set info : SnapshotInfo := ⟨0, 1, 0, 1⟩
  set o : NewOrder := ⟨7, 0, .buy, 5, 100, 0⟩
  have hsnap : Snapshot (marketAt shortLog 1 0) 0 [o] := by
    refine ⟨by simp [o], by simp, fun k ↦ ?_⟩
    have hmarket : marketAt shortLog 1 0 k =
        if ((0 : ℤ), k) = (0, 7) then some (restingOf o) else none :=
      rfl
    rw [hmarket, ← List.nil_append [o], listed_concat fun _ h ↦ absurd h List.not_mem_nil]
    exact if_congr (by simp [o]) rfl rfl
  have hinfo := hbuffered.info rfl
    (show (⟨0, 39, 0, 0, .snapshotInfo⟩ : MDHeader).msgType = .snapshotInfo from rfl)
    (show info.lastMdSeqNum = 1 from rfl) hsnap rfl rfl rfl
  have horder := hinfo.order rfl
    (show (⟨0, 45, 0, 0, .newOrder⟩ : MDHeader).msgType = .newOrder from rfl)
    (show Function.update (fun _ ↦ []) (info.symbol : ℤ) [o] o.symbol = o :: [] from rfl) rfl
  exact ⟨_, _, horder, rfl, rfl⟩

theorem buffered_shortLog : Buffered shortLog 2 3 bufferedShort.liveBuffer where
  first_le := by decide
  last_le := by decide
  first_pos := by decide
  mem_iff item := by
    simp only [bufferedShort, bufferLiveMessage, start, SnapShotSynchronizer.init, shortLog,
      List.nil_append, List.cons_append, List.mem_cons, List.not_mem_nil, or_false]
    constructor
    · rintro (rfl | rfl | rfl) <;> decide
    · rintro ⟨rfl | rfl | rfl, hfirst, -⟩
      · exact absurd hfirst (by decide)
      · exact Or.inl rfl
      · exact Or.inr (Or.inl rfl)

/-- The feed ends with order 7 alone, as the log has it. -/
theorem replay_eq_dispatch_shortLog :
    ∃ z z' m, replayBufferedMessages z = .ok () z' ∧
      dispatchAll shortLog OrderBookManager.init = .ok () m ∧ z'.sync = true ∧
      ∀ symbol,
        (∀ id, (z'.bookManager.order? symbol id).map resting = (m.order? symbol id).map resting) ∧
        ∀ side, ∃ r m₁ m₂, readBest side symbol z'.bookManager = .ok r m₁ ∧
          readBest side symbol m = .ok r m₂ := by
  obtain ⟨z, pending, hload, hc, hbuffer⟩ := loading_shortLog
  have hbuffered := buffered_shortLog
  rw [← hbuffer] at hbuffered
  exact ⟨z, replay_eq_dispatch exchangeLog_shortLog hload hc hbuffered (by decide)⟩

end HftTrading
