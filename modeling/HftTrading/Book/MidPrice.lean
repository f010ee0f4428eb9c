import HftTrading.Book.Atomic
import HftTrading.Book.Fills
import Mathlib.Data.Rat.Floor

/-!
# The mid price

`get_mid_price` reads the best prices and asks of each whether it is there. What it asks is the
truth value of a pair, and a pair is true whatever it holds: a side without orders is not left out,
it counts as a price of zero (`getMidPrice_spec`). So of a book with orders on one side the client
gets half the best price (`midPrice_iff`).

`MidPrice` says over the resting orders what the call is for: half of the two best prices together,
the lone best price, or zero. The two agree in every state that a run reaches but for one kind:
orders on one side only, at a best price of which the half, rounded down, is not the price itself.
The branches of the source that are never taken are kept, with the truth value that decides them as
a definition of its own.
-/

namespace HftTrading

open MarketData

namespace OrderBook

/-- Of the buy side, the best price is the highest. -/
theorem Best.isGreatest {os : List Order} {r : ℤ × ℤ} (h : Best os .buy r) :
    (prices os .buy = ∅ ∧ r.1 = 0) ∨ IsGreatest (prices os .buy) r.1 := by
  rcases h with ⟨rfl, hnone⟩ | ⟨hrests, -, hbest⟩
  · refine .inl ⟨Set.eq_empty_iff_forall_notMem.2 ?_, rfl⟩
    rintro p ⟨o, ho, hside, -⟩
    exact hnone o ho hside
  · refine .inr ⟨hrests, ?_⟩
    rintro p ⟨o, ho, hside, rfl⟩
    exact Int.neg_le_neg_iff.1 (hbest o ho hside)

/-- Of the sell side, the lowest. -/
theorem Best.isLeast {os : List Order} {r : ℤ × ℤ} (h : Best os .sell r) :
    (prices os .sell = ∅ ∧ r.1 = 0) ∨ IsLeast (prices os .sell) r.1 := by
  rcases h with ⟨rfl, hnone⟩ | ⟨hrests, -, hbest⟩
  · refine .inl ⟨Set.eq_empty_iff_forall_notMem.2 ?_, rfl⟩
    rintro p ⟨o, ho, hside, -⟩
    exact hnone o ho hside
  · refine .inr ⟨hrests, ?_⟩
    rintro p ⟨o, ho, hside, rfl⟩
    exact hbest o ho hside

/-- The price that stands for resting orders: between the two best prices, rounded down; the best
price of the only side that has orders; zero if there are none. -/
structure MidPrice (os : List Order) (r : ℤ) : Prop where
  both : ∀ bid ask, IsGreatest (prices os .buy) bid → IsLeast (prices os .sell) ask →
    r = ⌊((bid + ask : ℤ) : ℚ) / 2⌋
  bidOnly : ∀ bid, IsGreatest (prices os .buy) bid → prices os .sell = ∅ → r = bid
  askOnly : ∀ ask, prices os .buy = ∅ → IsLeast (prices os .sell) ask → r = ask
  neither : prices os .buy = ∅ → prices os .sell = ∅ → r = 0

/-- Orders rest on one side only, and this is their best price. -/
def OnlyPrice (os : List Order) (p : ℤ) : Prop :=
  (IsGreatest (prices os .buy) p ∧ prices os .sell = ∅) ∨
    (prices os .buy = ∅ ∧ IsLeast (prices os .sell) p)

/-! ### The three shapes of a book -/

section

variable {os : List Order} {r bid ask p : ℤ}

/-- Orders on both sides. -/
theorem midPrice_of_both (hbid : IsGreatest (prices os .buy) bid)
    (hask : IsLeast (prices os .sell) ask) :
    MidPrice os r ↔ r = ⌊((bid + ask : ℤ) : ℚ) / 2⌋ := by
  refine ⟨fun h ↦ h.both bid ask hbid hask, ?_⟩
  rintro rfl
  refine ⟨fun p q hp hq ↦ ?_, fun _ _ hnone ↦ ?_, fun _ hnone _ ↦ ?_, fun hnone _ ↦ ?_⟩
  · rw [hp.unique hbid, hq.unique hask]
  · exact absurd hnone hask.nonempty.ne_empty
  · exact absurd hnone hbid.nonempty.ne_empty
  · exact absurd hnone hbid.nonempty.ne_empty

/-- Buy orders only. -/
theorem midPrice_of_bidOnly (hbid : IsGreatest (prices os .buy) bid)
    (hnoAsks : prices os .sell = ∅) : MidPrice os r ↔ r = bid := by
  refine ⟨fun h ↦ h.bidOnly bid hbid hnoAsks, ?_⟩
  rintro rfl
  refine ⟨fun _ _ _ hask ↦ ?_, fun _ hbid' _ ↦ hbid.unique hbid', fun _ hnone _ ↦ ?_,
    fun hnone _ ↦ ?_⟩
  · exact absurd hnoAsks hask.nonempty.ne_empty
  · exact absurd hnone hbid.nonempty.ne_empty
  · exact absurd hnone hbid.nonempty.ne_empty

/-- Sell orders only. -/
theorem midPrice_of_askOnly (hnoBids : prices os .buy = ∅)
    (hask : IsLeast (prices os .sell) ask) : MidPrice os r ↔ r = ask := by
  refine ⟨fun h ↦ h.askOnly ask hnoBids hask, ?_⟩
  rintro rfl
  refine ⟨fun _ _ hbid _ ↦ ?_, fun _ hbid _ ↦ ?_, fun _ _ hask' ↦ hask.unique hask',
    fun _ hnone ↦ ?_⟩
  · exact absurd hnoBids hbid.nonempty.ne_empty
  · exact absurd hnoBids hbid.nonempty.ne_empty
  · exact absurd hnone hask.nonempty.ne_empty

/-- No orders. -/
theorem midPrice_of_neither (hnoBids : prices os .buy = ∅) (hnoAsks : prices os .sell = ∅) :
    MidPrice os r ↔ r = 0 := by
  refine ⟨fun h ↦ h.neither hnoBids hnoAsks, ?_⟩
  rintro rfl
  refine ⟨fun _ _ hbid _ ↦ ?_, fun _ hbid _ ↦ ?_, fun _ _ hask ↦ ?_, fun _ _ ↦ rfl⟩
  · exact absurd hnoBids hbid.nonempty.ne_empty
  · exact absurd hnoBids hbid.nonempty.ne_empty
  · exact absurd hnoAsks hask.nonempty.ne_empty

/-- The only price of a book with buys is its best bid. -/
theorem onlyPrice_of_bidOnly (hbid : IsGreatest (prices os .buy) bid)
    (hnoAsks : prices os .sell = ∅) : OnlyPrice os p ↔ p = bid := by
  constructor
  · rintro (⟨hp, -⟩ | ⟨hnone, -⟩)
    · exact hp.unique hbid
    · exact absurd hnone hbid.nonempty.ne_empty
  · rintro rfl
    exact .inl ⟨hbid, hnoAsks⟩

/-- Of a book with sells, its best ask. -/
theorem onlyPrice_of_askOnly (hnoBids : prices os .buy = ∅)
    (hask : IsLeast (prices os .sell) ask) : OnlyPrice os p ↔ p = ask := by
  constructor
  · rintro (⟨-, hnone⟩ | ⟨-, hp⟩)
    · exact absurd hnone hask.nonempty.ne_empty
    · exact hp.unique hask
  · rintro rfl
    exact .inr ⟨hnoBids, hask⟩

/-- There is no only price where both sides have orders, or none has. -/
theorem not_onlyPrice (h : prices os .buy = ∅ ↔ prices os .sell = ∅) : ¬OnlyPrice os p := by
  rintro (⟨hp, hnone⟩ | ⟨hnone, hp⟩)
  · exact hp.nonempty.ne_empty (h.2 hnone)
  · exact hp.nonempty.ne_empty (h.1 hnone)

end

/-- Half a price, rounded down, is the price for 0 and for −1. -/
theorem fdiv_two_eq_self_iff (p : ℤ) : p.fdiv 2 = p ↔ p = 0 ∨ p = -1 := by
  rw [Int.fdiv_eq_ediv_of_nonneg p (by decide)]
  omega

/-- Halving what the two best prices come to, zero for a side without orders. -/
theorem midPrice_halved_iff {os : List Order} {bid ask : ℤ × ℤ} (hbid : Best os .buy bid)
    (hask : Best os .sell ask) :
    MidPrice os ((bid.1 + ask.1).fdiv 2) ↔ ∀ p, OnlyPrice os p → p = 0 ∨ p = -1 := by
  rcases hbid.isGreatest with ⟨hnoBids, hb⟩ | hbids <;>
    rcases hask.isLeast with ⟨hnoAsks, ha⟩ | hasks
  · rw [hb, ha, midPrice_of_neither hnoBids hnoAsks]
    exact iff_of_true rfl fun p hp ↦ absurd hp (not_onlyPrice (iff_of_true hnoBids hnoAsks))
  · rw [hb, zero_add, midPrice_of_askOnly hnoBids hasks, fdiv_two_eq_self_iff]
    simp only [onlyPrice_of_askOnly hnoBids hasks, forall_eq]
  · rw [ha, add_zero, midPrice_of_bidOnly hbids hnoAsks, fdiv_two_eq_self_iff]
    simp only [onlyPrice_of_bidOnly hbids hnoAsks, forall_eq]
  · rw [midPrice_of_both hbids hasks, Int.fdiv_eq_ediv_of_nonneg _ (by decide)]
    refine iff_of_true (Rat.floor_intCast_div_natCast (bid.1 + ask.1) 2).symm fun p hp ↦ ?_
    exact absurd hp
      (not_onlyPrice (iff_of_false hbids.nonempty.ne_empty hasks.nonempty.ne_empty))

end OrderBook

namespace OrderBookManager

/-- The truth value of a pair: it is not the empty tuple. -/
def truth (_pair : ℤ × ℤ) : Bool := true

/-- `OrderEntryClient.get_mid_price`, on the client's `order_manager`. -/
def getMidPrice (symbol : ℤ) : Method FeedError OrderBookManager ℤ := fun m ↦
  match m.books.get? symbol with
  | none => .ok 0 m
  | some _ =>
    (do
      let bestBid ← onBook symbol OrderBook.getBestBid
      let bestAsk ← onBook symbol OrderBook.getBestAsk
      if truth bestBid && truth bestAsk then pure ((bestBid.1 + bestAsk.1).fdiv 2)
      else if truth bestBid then pure bestBid.1
      else if truth bestAsk then pure bestAsk.1
      else pure 0 : Method FeedError OrderBookManager ℤ) m

/-- Reading a best price on a manager's book. -/
theorem onBook_getBest {m : OrderBookManager} (h : m.Books) {symbol : ℤ} {book : OrderBook}
    (hb : m.books.get? symbol = some book) (side : Side) :
    ∃ r book', onBook symbol (OrderBook.getBest side) m = .ok r (m.setBook symbol book') ∧
      OrderBook.Best book.orders.values side r ∧ book'.Consistent ∧
      book'.orders = book.orders := by
  obtain ⟨r, book', hget, hbest, hl, -⟩ := OrderBook.getBest_spec (h symbol book hb) side
  refine ⟨r, book', ?_, hbest, hl.consistent, hl.orders_eq⟩
  rw [onBook_of_book hb]
  exact Method.focus_ok hget _ _

/-- **What `get_mid_price` returns**: half of what the two best prices come to, with zero for a side
without orders. It disturbs no order and no index entry. -/
theorem getMidPrice_spec {m : OrderBookManager} (h : m.Books) (symbol : ℤ) :
    ∃ bid ask m', getMidPrice symbol m = .ok ((bid.1 + ask.1).fdiv 2) m' ∧
      OrderBook.Best (m.ordersOf symbol).values .buy bid ∧
      OrderBook.Best (m.ordersOf symbol).values .sell ask ∧
      m'.Books ∧ m'.order? = m.order? ∧ m'.orderIdToSymbol = m.orderIdToSymbol := by
  unfold getMidPrice
  rcases hb : m.books.get? symbol with - | book
  · have hnone (side : Side) : OrderBook.Best (m.ordersOf symbol).values side (0, 0) := by
      rw [ordersOf, hb]
      exact .inl ⟨rfl, fun o ho ↦ absurd ho List.not_mem_nil⟩
    exact ⟨(0, 0), (0, 0), m, rfl, hnone .buy, hnone .sell, h, rfl, rfl⟩
  · obtain ⟨bid, book₁, hbid, hbestBid, hcons₁, horders₁⟩ := onBook_getBest h hb .buy
    have hb₁ : (m.setBook symbol book₁).books.get? symbol = some book₁ := by
      rw [get?_books_setBook, if_pos rfl]
    obtain ⟨ask, book₂, hask, hbestAsk, hcons₂, horders₂⟩ :=
      onBook_getBest (h.setBook symbol hcons₁) hb₁ .sell
    have hos : m.ordersOf symbol = book.orders := by rw [ordersOf, hb]
    rw [hos]
    refine ⟨bid, ask, (m.setBook symbol book₁).setBook symbol book₂, ?_, hbestBid,
      horders₁ ▸ hbestAsk, (h.setBook symbol hcons₁).setBook symbol hcons₂, ?_, rfl⟩
    -- both pairs are true, so that the first branch is the one taken
    · exact (Method.bind_ok hbid).trans (Method.bind_ok hask)
    · funext s k
      rw [order?_setBook, order?_setBook]
      split
      · rename_i hs
        rw [hs, horders₂, horders₁, order?_of_book hb]
      · rfl

/-- **When `get_mid_price` is the mid price**: in every reachable state, unless the book has orders
on one side only, at a best price that is not its own half. -/
theorem midPrice_iff {m : OrderBookManager} (h : m.Operated) (symbol : ℤ) :
    (∃ r, (getMidPrice symbol).value? m = some r ∧
      OrderBook.MidPrice (m.ordersOf symbol).values r) ↔
      ∀ p, OrderBook.OnlyPrice (m.ordersOf symbol).values p → p = 0 ∨ p = -1 := by
  obtain ⟨bid, ask, m', hget, hbid, hask, -⟩ := getMidPrice_spec h.invariant.1 symbol
  rw [← OrderBook.midPrice_halved_iff hbid hask, Method.value?_eq_some_iff.2 ⟨m', hget⟩]
  constructor
  · rintro ⟨r, hr, hmid⟩
    exact Option.some.inj hr ▸ hmid
  · exact fun hmid ↦ ⟨_, rfl, hmid⟩

/-- A manager with orders on both sides: the best buy is gone again, and of the best sell, at 103, a
part has traded. -/
def twoSided : OrderBookManager :=
  Method.run ([.newOrder 1 0 1 1 .buy 5 100 0, .newOrder 2 0 2 1 .sell 3 103 0,
    .newOrder 3 0 3 1 .buy 5 102 0, .newOrder 4 0 4 1 .sell 2 110 0, .trade 5 2 1 103,
    .deleteOrder 6 3].map Call.method) init

theorem operated_twoSided : twoSided.Operated :=
  .call (.call (.call (.call (.call (.call .init (.newOrder 1 0 1 1 .buy 5 100 0))
    (.newOrder 2 0 2 1 .sell 3 103 0)) (.newOrder 3 0 3 1 .buy 5 102 0))
    (.newOrder 4 0 4 1 .sell 2 110 0)) (.trade 5 2 1 103)) (.deleteOrder 6 3)

/-- Between 100 and 103, rounded down; the price 102, which the heap of the buys still holds, does
not count. -/
theorem midPrice_iff_twoSided :
    (getMidPrice 1).value? twoSided = some 101 ∧
      OrderBook.MidPrice (twoSided.ordersOf 1).values 101 := by
  have hbuy : (OrderBook.prices (twoSided.ordersOf 1).values .buy).Nonempty :=
    ⟨100, ⟨1, 1, .buy, 5, 100, 0⟩, by decide +kernel, rfl, rfl⟩
  have hsell : (OrderBook.prices (twoSided.ordersOf 1).values .sell).Nonempty :=
    ⟨110, ⟨4, 1, .sell, 2, 110, 0⟩, by decide +kernel, rfl, rfl⟩
  have hmid : (getMidPrice 1).value? twoSided = some 101 := by decide +kernel
  obtain ⟨r, hr, h⟩ := (midPrice_iff operated_twoSided 1).2 fun p hp ↦
    absurd hp (OrderBook.not_onlyPrice (iff_of_false hbuy.ne_empty hsell.ne_empty))
  obtain rfl : r = 101 := Option.some.inj (hr.symm.trans hmid)
  exact ⟨hmid, h⟩

/-- A manager with one order, a buy at 100. -/
def oneBid : OrderBookManager := (processNewOrder 1 0 1 1 .buy 5 100 0).after init

theorem operated_oneBid : oneBid.Operated := .call .init (.newOrder 1 0 1 1 .buy 5 100 0)

/-- Its only order is a buy at 100, and the client is told 50. -/
theorem midPrice_of_oneBid :
    ¬ ∀ (m : OrderBookManager), m.Operated → ∀ symbol, ∃ r,
      (getMidPrice symbol).value? m = some r ∧
        OrderBook.MidPrice (m.ordersOf symbol).values r := by
  intro h
  obtain ⟨r, hr, hmid⟩ := h oneBid operated_oneBid 1
  have hfifty : (getMidPrice 1).value? oneBid = some 50 := by decide +kernel
  have hbid : IsGreatest (OrderBook.prices (oneBid.ordersOf 1).values .buy) 100 := by
    refine ⟨⟨⟨1, 1, .buy, 5, 100, 0⟩, by decide +kernel, rfl, rfl⟩, ?_⟩
    rintro p ⟨o, ho, -, rfl⟩
    have hall : ∀ o ∈ (oneBid.ordersOf 1).values, o.price ≤ 100 := by decide +kernel
    exact hall o ho
  have hnoAsk : OrderBook.prices (oneBid.ordersOf 1).values .sell = ∅ := by
    refine Set.eq_empty_iff_forall_notMem.2 ?_
    rintro p ⟨o, ho, hside, -⟩
    have hall : ∀ o ∈ (oneBid.ordersOf 1).values, o.side ≠ .sell := by decide +kernel
    exact hall o ho hside
  have hr' := hmid.bidOnly 100 hbid hnoAsk
  rw [hfifty, hr'] at hr
  exact absurd hr (by decide)

end OrderBookManager

end HftTrading
