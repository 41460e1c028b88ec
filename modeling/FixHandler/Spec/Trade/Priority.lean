import Mathlib
import FixHandler.ForStd.Greedy
import FixHandler.Spec.Trade.AlgorithmCorrect

/-!
# Price and time priority

Whatever book the algorithm is given, it fills the incoming order greedily from the resting orders
that match, in the order of the book: the loops over prices and queues, with their two ways out,
are `Greedy.fill` over the list of these orders. A level is taken to be at the price that it has in
the map.

## Key results

- `matchLevels_eq_allocate`: the loops are the greedy filling
- `matches_priceTime`: what is matched, at which prices, and what becomes of the rest
-/

namespace FixHandler.Trade

open Cxx (Exception Heap Ptr)
open Ems (Order)
open ComparablePrice (Crosses)

namespace TradeAlgorithmSimple

/-- An order of the book with the price it rests at. -/
structure Resting where
  pointer : Ptr
  order : Order
  price : ComparablePrice

/-- What rests in a queue, in its order -/
def restingAt (heap : Heap Order) (price : ComparablePrice) (queue : List Ptr) : List Resting :=
  queue.filterMap fun p => (heap.cells p).map fun w => ⟨p, w, price⟩

/-- The orders of a book, price after price and in each queue one after the other -/
def restingOrders {isBuy : Bool} (heap : Heap Order) (levels : List (SidePrice isBuy × List Ptr)) :
    List Resting :=
  levels.flatMap fun (p, queue) => restingAt heap p.toComparable queue

/-- The orders among them that match a price -/
def matching (orderPrice : ComparablePrice) (l : List Resting) : List Resting :=
  l.filter fun r => decide (orderPrice.isMatch r.price = .ok true)

/-- A resting order of which a quantity is taken. -/
def taken (orderPrice : ComparablePrice) (r : Resting) (q : Nat) : MatchedOrder :=
  ⟨r.pointer, tradePrice orderPrice r.price, UInt64.ofNat q⟩

/-- The greedy filling of a quantity from resting orders -/
def allocate (orderPrice : ComparablePrice) (n : OrderSize) (l : List Resting) :
    List MatchedOrder × OrderSize :=
  let filled := Greedy.fill n.toNat (l.map (·.order.quantity.toNat))
  (l.zipWith (taken orderPrice) filled.1, UInt64.ofNat filled.2)

/-! ## Filling one order after the other -/

/-- What is taken of an order that is not enough is the whole of it. -/
private theorem min_of_lt {n q : OrderSize} (h : q < n) : min n q = q := by
  show (if n ≤ q then n else q) = q
  rw [if_neg (UInt64.not_le.mpr h)]

/-- The whole rest is matched with an order that has as much. -/
private theorem min_of_le {n q : OrderSize} (h : n ≤ q) : min n q = n := by
  show (if n ≤ q then n else q) = n
  rw [if_pos h]

/-- Something is left after a smaller order. -/
private theorem sub_ne_zero_of_lt {n q : OrderSize} (h : q < n) : n - q ≠ 0 := fun hzero => by
  have hsub := UInt64.toNat_sub_of_le _ _ (UInt64.le_of_lt h)
  rw [hzero, UInt64.toNat_zero] at hsub
  have := UInt64.lt_iff_toNat_lt.mp h
  omega

section Allocate

variable {op : ComparablePrice}

/-- Without orders nothing is allocated. -/
@[simp] theorem allocate_nil (n : OrderSize) : allocate op n [] = ([], n) := by
  simp [allocate, Greedy.fill]

/-- An order that is enough ends the allocation. -/
theorem allocate_cons_of_le {n : OrderSize} {r : Resting} (h : n ≤ r.order.quantity)
    (l : List Resting) :
    allocate op n (r :: l) = ([⟨r.pointer, tradePrice op r.price, n⟩], 0) := by
  unfold allocate
  rw [List.map_cons, Greedy.fill_cons_of_le (UInt64.le_iff_toNat_le.mp h)]
  simp [taken]

/-- A smaller order is taken whole. -/
theorem allocate_cons_of_lt {n : OrderSize} {r : Resting} (h : r.order.quantity < n)
    (l : List Resting) :
    allocate op n (r :: l) =
      (⟨r.pointer, tradePrice op r.price, r.order.quantity⟩ ::
        (allocate op (n - r.order.quantity) l).1, (allocate op (n - r.order.quantity) l).2) := by
  have hlt := UInt64.lt_iff_toNat_lt.mp h
  unfold allocate
  rw [List.map_cons, Greedy.fill_cons_of_lt hlt,
    ← UInt64.toNat_sub_of_le _ _ (UInt64.le_of_lt h)]
  simp [taken]

/-- The rest of the first orders goes to those behind them. -/
theorem allocate_append {n : OrderSize} (hn : n ≠ 0) (l l' : List Resting) :
    allocate op n (l ++ l') =
      if (allocate op n l).2 = 0 then ((allocate op n l).1, 0)
      else ((allocate op n l).1 ++ (allocate op (allocate op n l).2 l').1,
        (allocate op (allocate op n l).2 l').2) := by
  induction l generalizing n with
  | nil =>
    rw [allocate_nil, List.nil_append, if_neg hn]
    rfl
  | cons r l ih =>
    by_cases h : r.order.quantity < n
    · -- the first order is not enough, and the rest is still positive
      have hrest := sub_ne_zero_of_lt h
      rw [List.cons_append, allocate_cons_of_lt h, allocate_cons_of_lt h, ih hrest]
      dsimp only
      split <;> rfl
    · rw [UInt64.not_lt] at h
      rw [List.cons_append, allocate_cons_of_le h, allocate_cons_of_le h, if_pos rfl]

end Allocate

/-! ## The loops -/

/-- The pointers of a queue lead to orders. -/
def Valid (heap : Heap Order) (queue : List Ptr) : Prop := ∀ p ∈ queue, ∃ w, heap.cells p = some w

/-- The inner loop allocates along the queue. -/
theorem matchQueue_eq_allocate (heap : Heap Order) (op wp : ComparablePrice) {queue : List Ptr}
    (hqueue : Valid heap queue) {n : OrderSize} (hn : n ≠ 0) (acc : List MatchedOrder) :
    matchQueue heap op wp queue n acc =
      .ok ((allocate op n (restingAt heap wp queue)).2,
        acc ++ (allocate op n (restingAt heap wp queue)).1,
        (allocate op n (restingAt heap wp queue)).2 == 0) := by
  induction queue generalizing n acc with
  | nil =>
    have hnil : restingAt heap wp [] = [] := rfl
    have hleft : (n == 0) = false := beq_false_of_ne hn
    rw [hnil, allocate_nil, List.append_nil, hleft]
    rfl
  | cons p queue ih =>
    obtain ⟨w, hw⟩ := hqueue p List.mem_cons_self
    have hrest : Valid heap queue := fun p' hp' => hqueue p' (List.mem_cons_of_mem p hp')
    have hcons : restingAt heap wp (p :: queue) = ⟨p, w, wp⟩ :: restingAt heap wp queue := by
      simp [restingAt, hw]
    unfold matchQueue
    rw [Heap.deref_of_live hw, hcons]
    by_cases h : w.quantity < n
    · -- the whole order is taken, and the loop goes on
      have hleft := sub_ne_zero_of_lt h
      have hq := ih hrest hleft (acc ++ [⟨p, tradePrice op wp, w.quantity⟩])
      rw [allocate_cons_of_lt h]
      simp only [bind, Except.bind, min_of_lt h, beq_iff_eq, hleft, if_false]
      rw [List.append_assoc] at hq
      exact hq
    · -- the order is enough
      rw [UInt64.not_lt] at h
      rw [allocate_cons_of_le h]
      simp only [bind, Except.bind, min_of_le h, UInt64.sub_self, beq_self_eq_true, if_true]
      rfl

/-- The orders of a level match all or not at all. -/
theorem matching_restingAt (heap : Heap Order) {op wp : ComparablePrice} (queue : List Ptr)
    (hside : op.isBuy ≠ wp.isBuy) :
    matching op (restingAt heap wp queue) =
      if Crosses op wp then restingAt heap wp queue else [] := by
  have hall : ∀ r ∈ restingAt heap wp queue,
      decide (op.isMatch r.price = .ok true) = decide (Crosses op wp) := by
    intro r hr
    simp only [restingAt, List.mem_filterMap, Option.map_eq_some_iff] at hr
    obtain ⟨p, -, w, -, rfl⟩ := hr
    rw [ComparablePrice.isMatch_eq hside]
    simp
  unfold matching
  rw [List.filter_congr hall]
  by_cases hc : Crosses op wp <;> simp [hc]

/-- Beyond a level that does not match nothing matches, unless both prices are the market's. -/
private theorem matching_eq_nil {isBuy : Bool} (heap : Heap Order) {op : ComparablePrice}
    (hside : op.isBuy ≠ isBuy) {p : SidePrice isBuy}
    {levels : List (SidePrice isBuy × List Ptr)} (hsorted : ∀ l ∈ levels, p < l.1)
    (hno : ¬ Crosses op p.toComparable) (hm : ¬ (op.price = 0 ∧ p.price = 0)) :
    matching op (restingOrders heap levels) = [] := by
  unfold matching restingOrders
  rw [List.filter_flatMap, List.flatMap_eq_nil_iff]
  intro l hl
  have : matching op (restingAt heap l.1.toComparable l.2) = _ := matching_restingAt heap l.2 hside
  rw [if_neg fun hc => hno (hc.of_le (hsorted l hl).le hm)] at this
  exact this

/-- The outer loop allocates along the levels that cross. -/
theorem matchLevels_eq_allocate {isBuy : Bool} (heap : Heap Order) (op : ComparablePrice)
    (hside : op.isBuy ≠ isBuy) {levels : List (SidePrice isBuy × List Ptr)}
    (hsorted : levels.Pairwise (fun a b => a.1 < b.1)) (hqueue : ∀ l ∈ levels, Valid heap l.2)
    {n : OrderSize} (hn : n ≠ 0) (acc : List MatchedOrder) :
    matchLevels heap op levels n acc =
      .ok ((allocate op n (matching op (restingOrders heap levels))).2,
        acc ++ (allocate op n (matching op (restingOrders heap levels))).1) := by
  induction levels generalizing n acc with
  | nil =>
    have hnil : matching op (restingOrders heap ([] : List (SidePrice isBuy × List Ptr))) = [] := rfl
    rw [hnil, allocate_nil, List.append_nil]
    rfl
  | cons l levels ih =>
    obtain ⟨p, queue⟩ := l
    rw [List.pairwise_cons] at hsorted
    have hrest : ∀ l ∈ levels, Valid heap l.2 := fun l hl => hqueue l (List.mem_cons_of_mem _ hl)
    have hq : Valid heap queue := hqueue (p, queue) List.mem_cons_self
    -- the queue of the level comes first, if the level crosses
    have hcons : matching op (restingOrders heap ((p, queue) :: levels)) =
        (if Crosses op p.toComparable then restingAt heap p.toComparable queue else []) ++
          matching op (restingOrders heap levels) := by
      rw [← matching_restingAt heap queue hside]
      exact List.filter_append _ _
    have hmatch : op.isMatch p.toComparable = .ok (decide (Crosses op p.toComparable)) :=
      ComparablePrice.isMatch_eq hside
    unfold matchLevels
    simp only [ComparablePrice.isMarket, Bool.and_eq_true, beq_iff_eq, hmatch, bind, Except.bind]
    by_cases hm : op.price = 0 ∧ p.toComparable.price = 0
    · -- market against market: the level is skipped
      have hno := ComparablePrice.not_crosses_market hm.1 hm.2
      rw [if_pos hm, hcons, if_neg hno, List.nil_append]
      exact ih hsorted.2 hrest hn acc
    · rw [if_neg hm]
      by_cases hc : Crosses op p.toComparable
      · rw [hcons, if_pos hc, allocate_append hn]
        simp only [hc, decide_true, Bool.not_true, Bool.false_eq_true, if_false,
          matchQueue_eq_allocate heap op p.toComparable hq hn, beq_iff_eq]
        -- nothing is left after this level, or the loop goes on
        by_cases hz : (allocate op n (restingAt heap p.toComparable queue)).2 = 0
        · rw [if_pos hz, if_pos hz, hz]
          rfl
        · rw [if_neg hz, if_neg hz, ih hsorted.2 hrest hz, List.append_assoc]
      · -- the first level that does not match ends the loop
        have hnil := matching_eq_nil heap hside hsorted.1 hc hm
        rw [hcons, if_neg hc, hnil, List.nil_append, allocate_nil, List.append_nil]
        simp only [hc, decide_false, Bool.not_false, if_true]
        rfl

/-! ## What the greedy filling is -/

/-- A price that the owner of a limit accepts. A market order accepts all prices. -/
def Within (limit : ComparablePrice) (p : OrderPrice) : Prop :=
  limit.price ≠ 0 → if limit.isBuy then p ≤ limit.price else limit.price ≤ p

/-- The price of a trade is a price that both accept. -/
theorem tradePrice_within {q p : ComparablePrice} (h : Crosses q p) :
    tradePrice q p ≠ 0 ∧ Within q (tradePrice q p) ∧ Within p (tradePrice q p) := by
  obtain ⟨b, q⟩ := q
  obtain ⟨c, p⟩ := p
  obtain ⟨hne, h⟩ := h
  unfold Within tradePrice
  simp only [ComparablePrice.isMarket, beq_iff_eq] at h hne ⊢
  rcases h with ⟨hq, hp⟩ | ⟨hq, hp⟩ | ⟨hq, hp, hle⟩
  · rw [if_neg hp]
    exact ⟨hp, fun hq' => absurd hq hq', fun _ => by cases c <;> simp⟩
  · rw [if_pos hp]
    exact ⟨hq, fun _ => by cases b <;> simp, fun hp' => absurd hp hp'⟩
  · rw [if_neg hp]
    exact ⟨hp, fun _ => hle, fun _ => by cases c <;> simp⟩

/-- The orders `l` are matched in their order to fill `n` for an order at `op`, and `remainder` is
    left. -/
structure PriceTime (op : ComparablePrice) (n : OrderSize) (l : List Resting)
    (ms : List MatchedOrder) (remainder : OrderSize) : Prop where
  /-- No order is passed over. -/
  first : ms.map (·.matchOrder) <+: l.map (·.pointer)
  /-- Each is matched as far as it is needed, and whole if it is not the last. -/
  filled : ∀ (i : Nat) (m : MatchedOrder), ms[i]? = some m → ∃ r : Resting, l[i]? = some r ∧
    m.matchQuantity.toNat =
      min (n.toNat - ((ms.take i).map (·.matchQuantity.toNat)).sum) r.order.quantity.toNat ∧
    (i + 1 < ms.length → m.matchQuantity = r.order.quantity)
  /-- Each is matched at its price, or at the price of the incoming order if it has none. -/
  priced : ∀ (i : Nat) (m : MatchedOrder), ms[i]? = some m → ∃ r : Resting, l[i]? = some r ∧
    m.matchPrice = (if r.price.price = 0 then op.price else r.price.price) ∧
    m.matchPrice ≠ 0 ∧ Within op m.matchPrice ∧ Within r.price m.matchPrice
  positive : ∀ m ∈ ms, m.matchQuantity ≠ 0
  total : (ms.map (·.matchQuantity.toNat)).sum + remainder.toNat = n.toNat
  /-- Something is left only if all orders are matched. -/
  exhausted : remainder ≠ 0 → ms.length = l.length

section PriceTime

variable (op : ComparablePrice) (n : OrderSize) (l : List Resting)

/-- The quantities are those of the greedy filling. -/
theorem quantity_allocate :
    (allocate op n l).1.map (·.matchQuantity.toNat) =
      (Greedy.fill n.toNat (l.map (·.order.quantity.toNat))).1 := by
  induction l generalizing n with
  | nil => rw [allocate_nil]; rfl
  | cons r l ih =>
    by_cases h : r.order.quantity < n
    · rw [allocate_cons_of_lt h, List.map_cons, List.map_cons,
        Greedy.fill_cons_of_lt (UInt64.lt_iff_toNat_lt.mp h),
        ← UInt64.toNat_sub_of_le _ _ (UInt64.le_of_lt h), ih]
    · rw [UInt64.not_lt] at h
      rw [allocate_cons_of_le h, List.map_cons, List.map_cons,
        Greedy.fill_cons_of_le (UInt64.le_iff_toNat_le.mp h)]
      rfl

/-- So is what is left. -/
theorem rest_allocate :
    (allocate op n l).2.toNat = (Greedy.fill n.toNat (l.map (·.order.quantity.toNat))).2 := by
  have htotal := Greedy.fill_total n.toNat (l.map (·.order.quantity.toNat))
  have hn := n.toNat_lt
  have hlt : (Greedy.fill n.toNat (l.map (·.order.quantity.toNat))).2 < UInt64.size := by
    show _ < 2 ^ 64
    omega
  exact UInt64.toNat_ofNat_of_lt' hlt

variable {op n l}

/-- The order that is matched is the one that has its place in the list. -/
theorem getElem?_allocate {i : Nat} {m : MatchedOrder} (h : (allocate op n l).1[i]? = some m) :
    ∃ r, l[i]? = some r ∧ m.matchOrder = r.pointer ∧ m.matchPrice = tradePrice op r.price := by
  unfold allocate at h
  obtain ⟨r, x, hr, -, rfl⟩ := List.getElem?_zipWith_eq_some.mp h
  exact ⟨r, hr, rfl, rfl⟩

theorem allocate_priceTime (hn : n ≠ 0) (hquantity : ∀ r ∈ l, r.order.quantity ≠ 0)
    (hcrosses : ∀ r ∈ l, Crosses op r.price) :
    PriceTime op n l (allocate op n l).1 (allocate op n l).2 := by
  have hnat : ∀ q : OrderSize, q ≠ 0 ↔ 0 < q.toNat := fun q => by
    rw [Nat.pos_iff_ne_zero, ne_eq, ne_eq, ← UInt64.toNat_inj, UInt64.toNat_zero]
  have hquantities := quantity_allocate op n l
  have hlength : (allocate op n l).1.length =
      (Greedy.fill n.toNat (l.map (·.order.quantity.toNat))).1.length := by
    rw [← hquantities, List.length_map]
  constructor
  · -- the pointers are those of the front of the list
    rw [List.prefix_iff_getElem?]
    intro i hi
    rw [List.length_map] at hi
    obtain ⟨r, hr, hpointer, -⟩ := getElem?_allocate (List.getElem?_eq_getElem hi)
    rw [List.getElem?_map, hr, List.getElem_map, hpointer]
    rfl
  · intro i m hm
    obtain ⟨r, hr, -, -⟩ := getElem?_allocate hm
    have hx : (Greedy.fill n.toNat (l.map (·.order.quantity.toNat))).1[i]? =
        some m.matchQuantity.toNat := by
      rw [← hquantities, List.getElem?_map, hm]
      rfl
    -- each quantity is what the orders before have left, or all there is
    obtain ⟨q, hq, hmin, hwhole⟩ := Greedy.fill_getElem? hx
    rw [List.getElem?_map, hr] at hq
    cases hq
    refine ⟨r, hr, ?_, fun hi => UInt64.toNat_inj.mp (hwhole (by rwa [hlength] at hi))⟩
    rw [hmin, ← hquantities, List.map_take]
  · intro i m hm
    obtain ⟨r, hr, -, hprice⟩ := getElem?_allocate hm
    rw [hprice]
    -- the price is that of the order that rests
    have hwithin := tradePrice_within (hcrosses r (List.mem_of_getElem? hr))
    refine ⟨r, hr, ?_, hwithin⟩
    simp only [tradePrice, ComparablePrice.isMarket, beq_iff_eq]
  · intro m hm
    -- every order has something to give
    have hoffered : ∀ q ∈ l.map (·.order.quantity.toNat), 0 < q := by
      intro q hq
      obtain ⟨r, hr, rfl⟩ := List.mem_map.mp hq
      exact (hnat _).mp (hquantity r hr)
    rw [hnat]
    apply Greedy.fill_pos ((hnat n).mp hn) hoffered
    rw [← hquantities]
    exact List.mem_map_of_mem hm
  · rw [hquantities, rest_allocate]
    exact Greedy.fill_total _ _
  · intro hrest
    -- something is left only if every order was taken
    rw [hlength, Greedy.fill_exhausted, List.length_map]
    rw [← rest_allocate op]
    exact Nat.pos_iff_ne_zero.mp ((hnat _).mp hrest)

end PriceTime

/-- What is returned when `remainder` is left: nothing has to be deleted of an order that rests, a
    fill-and-kill order keeps its matches and loses the rest, a fill-or-kill order loses all. -/
def result (order : Order) (ms : List MatchedOrder) (remainder : OrderSize) :
    List MatchedOrder × OrderSize × Bool :=
  if remainder = 0 then (ms, 0, false)
  else match order.tif with
    | .fak => (ms, remainder, true)
    | .fok => ([], order.quantity, true)
    | _ => (ms, remainder, false)

section Matches

variable {isBuy : Bool} (heap : Heap Order) (order : Order)
  (book : Std.TreeMap (SidePrice isBuy) (List Ptr)) (op : ComparablePrice)
  (hside : op.isBuy ≠ isBuy)
  (hbook : ∀ l ∈ book.toList, ∀ p ∈ l.2, ∃ w, heap.cells p = some w ∧ w.quantity ≠ 0)

include hside hbook

/-- An order that matches has a quantity, and its price crosses. -/
theorem mem_matching {r : Resting} (hr : r ∈ matching op (restingOrders heap book.toList)) :
    r.order.quantity ≠ 0 ∧ Crosses op r.price := by
  unfold matching at hr
  rw [List.mem_filter, decide_eq_true_eq] at hr
  simp only [restingOrders, restingAt, List.mem_flatMap, List.mem_filterMap,
    Option.map_eq_some_iff] at hr
  obtain ⟨⟨l, hl, p, hp, w, hw, rfl⟩, hmatch⟩ := hr
  obtain ⟨w', hw', hq⟩ := hbook l hl p hp
  have hww : w' = w := Option.some.inj (hw'.symm.trans hw)
  rw [ComparablePrice.isMatch_eq hside, Except.ok.injEq, decide_eq_true_eq] at hmatch
  exact ⟨hww ▸ hq, hmatch⟩

/-- The algorithm is the greedy filling from the orders that match. -/
theorem matches_eq_result (hprice : ComparablePrice.ofOrder order = .ok op)
    (hquantity : order.quantity ≠ 0) :
    «matches» heap order book = .ok (result order
      (allocate op order.quantity (matching op (restingOrders heap book.toList))).1
      (allocate op order.quantity (matching op (restingOrders heap book.toList))).2) := by
  have hvalid : ∀ l ∈ book.toList, Valid heap l.2 := fun l hl p hp =>
    (hbook l hl p hp).imp fun _ h => h.1
  have hsorted : book.toList.Pairwise (fun a b => a.1 < b.1) :=
    Std.TreeMap.ordered_keys_toList.imp fun h => compare_lt_iff_lt.mp h
  have hloop := matchLevels_eq_allocate heap op hside hsorted hvalid hquantity []
  unfold «matches» result
  rw [hprice]
  simp only [bind, Except.bind, hloop, List.nil_append, beq_iff_eq]
  split
  · rfl
  · cases order.tif <;> rfl

end Matches

/-- The orders that match are filled in the order of their prices and, at one price, in the order
    of their arrival. -/
theorem matches_priceTime {isBuy : Bool} (heap : Heap Order) (order : Order)
    (book : Std.TreeMap (SidePrice isBuy) (List Ptr)) (op : ComparablePrice)
    (hprice : ComparablePrice.ofOrder order = .ok op) (hside : op.isBuy ≠ isBuy)
    (hquantity : order.quantity ≠ 0)
    (hbook : ∀ l ∈ book.toList, ∀ p ∈ l.2, ∃ w, heap.cells p = some w ∧ w.quantity ≠ 0) :
    ∃ ms remainder,
      PriceTime op order.quantity (matching op (restingOrders heap book.toList)) ms remainder ∧
      «matches» heap order book = .ok (result order ms remainder) :=
  ⟨_, _, allocate_priceTime hquantity (fun _ hr => (mem_matching heap book op hside hbook hr).1)
    fun _ hr => (mem_matching heap book op hside hbook hr).2,
    matches_eq_result heap order book op hside hbook hprice hquantity⟩

/-- A sell order at a price -/
private def asked (clientOrderId price : String) (quantity : UInt64) : Order :=
  { clientOrderId, buySell := .sell, orderType := .limit, price, quantity }

/-- A market order, two orders at 100 and one at 101 -/
private def askedHeap : Heap Order :=
  [asked "1" "0" 1, asked "2" "100" 2, asked "3" "101" 5, asked "4" "100" 1].foldl
    (fun heap o => (heap.alloc o).1) Heap.empty

/-- Its levels: two orders at 100, one at 101 and a market order -/
private def askedBook : Std.TreeMap (SidePrice false) (List Ptr) :=
  ((({} : Std.TreeMap (SidePrice false) (List Ptr)).insert ⟨0⟩ [0]).insert ⟨10000⟩ [1, 3]).insert
    ⟨10100⟩ [2]

/-- A buy order at 102 over 5: the market order trades at 102, then both orders at 100, and one
    piece of the order at 101. -/
theorem buyer_priceTime :
    let buyer : Order :=
      { clientOrderId := "5", buySell := .buy, orderType := .limit, price := "102", quantity := 5 }
    (∃ ms remainder, PriceTime ⟨true, 10200⟩ 5
        (matching ⟨true, 10200⟩ (restingOrders askedHeap askedBook.toList)) ms remainder ∧
      «matches» askedHeap buyer askedBook = .ok (result buyer ms remainder)) ∧
    «matches» askedHeap buyer askedBook =
      .ok ([⟨0, 10200, 1⟩, ⟨1, 10000, 2⟩, ⟨3, 10000, 1⟩, ⟨2, 10100, 1⟩], 0, false) := by
  -- every order of the book has its cell and a quantity
  have hlive : ∀ l ∈ askedBook.toList, ∀ p ∈ l.2, ∃ w, askedHeap.cells p = some w ∧
      w.quantity ≠ 0 := by
    have hany : ∀ l ∈ askedBook.toList, ∀ p ∈ l.2,
        (askedHeap.cells p).any (·.quantity != 0) = true := by decide +kernel
    intro l hl p hp
    simpa [Option.any_eq_true] using hany l hl p hp
  intro buyer
  have hprice : ComparablePrice.ofOrder buyer = .ok ⟨true, 10200⟩ := by decide +kernel
  exact ⟨matches_priceTime askedHeap buyer askedBook ⟨true, 10200⟩ hprice (by decide) (by decide)
    hlive, by decide +kernel⟩

end TradeAlgorithmSimple

end FixHandler.Trade
