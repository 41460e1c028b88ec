import Mathlib
import FixHandler.Native.Trade.Algorithm
import FixHandler.Spec.Trade.OrderBoxCorrect

/-!
# The algorithm matches completely

`greedy` fills an order from a list of working orders, one after the other. The
walk of `TradeAlgorithmSimple` over levels and queues is `greedy` over
`candidates`, the orders of the other side that would trade with the incoming
one, in the order of the book: skipping a market level and stopping at the first
level that does not match loses none of them, because the levels are sorted.

## Key results

- `matchLevels_eq`: the walk is `greedy` over `candidates`
- `matches_spec`: on a box that is in order the algorithm returns a `Matching`
-/

namespace FixHandler.Trade

open Cxx (Exception Heap Ptr)
open Ems (Order)
open ComparablePrice (Crosses)

namespace TradeAlgorithmSimple

/-- The price of a trade: the working order's, unless it is a market order. -/
def tradePrice (orderPrice workingPrice : ComparablePrice) : OrderPrice :=
  if workingPrice.isMarket then orderPrice.price else workingPrice.price

/-- Fill a quantity from working orders, in their order. -/
def greedy (orderPrice : ComparablePrice) :
    OrderSize → List (Ptr × Order) → List MatchedOrder × OrderSize
  | n, [] => ([], n)
  | n, (p, w) :: ws =>
    let q := min n w.quantity
    let m : MatchedOrder := ⟨p, tradePrice orderPrice (priceOf w), q⟩
    if n - q = 0 then ([m], 0)
    else (m :: (greedy orderPrice (n - q) ws).1, (greedy orderPrice (n - q) ws).2)

/-- What the pointers of a queue lead to. -/
def resolve (heap : Heap Order) (queue : List Ptr) : List (Ptr × Order) :=
  queue.filterMap fun p => (heap.cells p).map (p, ·)

/-- The working orders that would trade with the incoming one. -/
def candidates {isBuy : Bool} (heap : Heap Order) (orderPrice : ComparablePrice)
    (levels : List (SidePrice isBuy × List Ptr)) : List (Ptr × Order) :=
  levels.flatMap fun (p, queue) =>
    if Crosses orderPrice p.toComparable then resolve heap queue else []

/-! ## Greedy filling -/

/-- The smaller of two sizes, as a number -/
private theorem toNat_min (n q : OrderSize) : (min n q).toNat = min n.toNat q.toNat := by
  show (if n ≤ q then n else q).toNat = _
  split
  · next h => rw [Nat.min_eq_left (UInt64.le_iff_toNat_le.mp h)]
  · next h => rw [Nat.min_eq_right (Nat.le_of_not_le fun hle => h (UInt64.le_iff_toNat_le.mpr hle))]

/-- What is matched is at most what is wanted and what is offered. -/
private theorem min_le (n q : OrderSize) : min n q ≤ n ∧ min n q ≤ q := by
  simp only [UInt64.le_iff_toNat_le, toNat_min]
  omega

/-- Something is matched, if both sides have something. -/
private theorem min_ne_zero {n q : OrderSize} (hn : n ≠ 0) (hq : q ≠ 0) : min n q ≠ 0 := by
  simp only [ne_eq, ← UInt64.toNat_inj, toNat_min, UInt64.toNat_zero] at hn hq ⊢
  omega

/-- Where the minimum leaves something of the first, it is the second. -/
private theorem min_eq_right_of_rest {n q : OrderSize} (h : n - min n q ≠ 0) : min n q = q := by
  have hsub := UInt64.toNat_sub_of_le _ _ (min_le n q).1
  rw [ne_eq, ← UInt64.toNat_inj, hsub, toNat_min, UInt64.toNat_zero] at h
  apply UInt64.toNat_inj.mp
  rw [toNat_min]
  omega

/-- Filling from two lists in turn is filling from their concatenation. -/
theorem greedy_append (op : ComparablePrice) {n : OrderSize} (hn : n ≠ 0)
    (ws ws' : List (Ptr × Order)) :
    greedy op n (ws ++ ws') =
      if (greedy op n ws).2 = 0 then ((greedy op n ws).1, 0)
      else ((greedy op n ws).1 ++ (greedy op (greedy op n ws).2 ws').1,
        (greedy op (greedy op n ws).2 ws').2) := by
  induction ws generalizing n with
  | nil => simp [greedy, hn]
  | cons pw ws ih =>
    obtain ⟨p, w⟩ := pw
    simp only [List.cons_append, greedy]
    by_cases hz : n - min n w.quantity = 0
    · simp [hz]
    · simp only [hz, if_false, ih hz]
      split <;> simp

/-- The quantities filled and the rest add up to what was asked for. -/
theorem greedy_total (op : ComparablePrice) (n : OrderSize) (ws : List (Ptr × Order)) :
    ((greedy op n ws).1.map (·.matchQuantity.toNat)).sum + (greedy op n ws).2.toNat = n.toNat := by
  induction ws generalizing n with
  | nil => simp [greedy]
  | cons pw ws ih =>
    obtain ⟨p, w⟩ := pw
    have hle := (min_le n w.quantity).1
    have hsub := UInt64.toNat_sub_of_le _ _ hle
    have hle' := UInt64.le_iff_toNat_le.mp hle
    simp only [greedy]
    -- the order is used up, or the rest goes on to the next one
    by_cases hz : n - min n w.quantity = 0
    · rw [hz, UInt64.toNat_zero] at hsub
      simp only [hz, if_true, List.map_cons, List.map_nil, List.sum_cons, List.sum_nil,
        UInt64.toNat_zero]
      omega
    · have := ih (n - min n w.quantity)
      simp only [hz, if_false, List.map_cons, List.sum_cons]
      omega

/-- The orders are taken from the front of the list. -/
theorem greedy_isPrefix (op : ComparablePrice) (n : OrderSize) (ws : List (Ptr × Order)) :
    (greedy op n ws).1.map (·.matchOrder) <+: ws.map Prod.fst := by
  induction ws generalizing n with
  | nil => simp [greedy]
  | cons pw ws ih =>
    obtain ⟨p, w⟩ := pw
    simp only [greedy]
    split
    · simp
    · simpa using ih _

/-- Every match is with an order of the list, at its price, for some of its quantity. -/
theorem mem_greedy (op : ComparablePrice) {n : OrderSize} (hn : n ≠ 0)
    {ws : List (Ptr × Order)} (hws : ∀ pw ∈ ws, pw.2.quantity ≠ 0) {m : MatchedOrder}
    (hm : m ∈ (greedy op n ws).1) :
    ∃ w, (m.matchOrder, w) ∈ ws ∧ m.matchPrice = tradePrice op (priceOf w) ∧
      m.matchQuantity ≠ 0 ∧ m.matchQuantity ≤ w.quantity := by
  induction ws generalizing n with
  | nil => simp [greedy] at hm
  | cons pw ws ih =>
    obtain ⟨p, w⟩ := pw
    have hq : min n w.quantity ≠ 0 := min_ne_zero hn (hws (p, w) List.mem_cons_self)
    -- the first candidate is matched with what there is of both
    have hhead : ∃ w', (p, w') ∈ (p, w) :: ws ∧
        tradePrice op (priceOf w) = tradePrice op (priceOf w') ∧
        min n w.quantity ≠ 0 ∧ min n w.quantity ≤ w'.quantity :=
      ⟨w, List.mem_cons_self, rfl, hq, (min_le n w.quantity).2⟩
    simp only [greedy] at hm
    split at hm
    · rw [List.mem_singleton] at hm
      subst hm
      exact hhead
    · next hz =>
      rcases List.mem_cons.mp hm with rfl | hm
      · exact hhead
      · obtain ⟨w', hw', hrest⟩ := ih hz (fun pw hpw => hws pw (List.mem_cons_of_mem _ hpw)) hm
        exact ⟨w', List.mem_cons_of_mem _ hw', hrest⟩

/-- If something is left, every order of the list is used up. -/
theorem greedy_exhausted (op : ComparablePrice) {n : OrderSize} {ws : List (Ptr × Order)}
    (hr : (greedy op n ws).2 ≠ 0) {p : Ptr} {w : Order} (hw : (p, w) ∈ ws) :
    ∃ m ∈ (greedy op n ws).1, m.matchOrder = p ∧ m.matchQuantity = w.quantity := by
  induction ws generalizing n with
  | nil => exact nomatch hw
  | cons pw ws ih =>
    obtain ⟨p', w'⟩ := pw
    simp only [greedy] at hr ⊢
    split at hr
    · exact absurd rfl hr
    · -- something is left after this candidate, so all of it was taken
      next hz =>
      rw [if_neg hz]
      rcases List.mem_cons.mp hw with heq | hw
      · cases heq
        exact ⟨_, List.mem_cons_self, rfl, min_eq_right_of_rest hz⟩
      · obtain ⟨m, hm, hrest⟩ := ih hr hw
        exact ⟨m, List.mem_cons_of_mem _ hm, hrest⟩

/-- If something is left, all orders of the list together were not enough. -/
theorem greedy_short (op : ComparablePrice) {n : OrderSize} {ws : List (Ptr × Order)}
    (hr : (greedy op n ws).2 ≠ 0) : (ws.map (·.2.quantity.toNat)).sum < n.toNat := by
  induction ws generalizing n with
  | nil =>
    simp only [greedy, ne_eq, ← UInt64.toNat_inj, UInt64.toNat_zero] at hr
    simp only [List.map_nil, List.sum_nil]
    omega
  | cons pw ws ih =>
    obtain ⟨p, w⟩ := pw
    simp only [greedy] at hr
    split at hr
    · exact absurd rfl hr
    · next hz =>
      have hrest := ih hr
      -- this candidate was taken whole
      have hmin := min_eq_right_of_rest hz
      have hle : w.quantity ≤ n := hmin ▸ (min_le n w.quantity).1
      rw [hmin, UInt64.toNat_sub_of_le _ _ hle] at hrest
      have hle' := UInt64.le_iff_toNat_le.mp hle
      simp only [List.map_cons, List.sum_cons]
      omega

/-! ## The walk is greedy -/

/-- A queue whose orders are live and have the price of their level. -/
def QueueAt (heap : Heap Order) (cp : ComparablePrice) (queue : List Ptr) : Prop :=
  ∀ p ∈ queue, ∃ w, heap.cells p = some w ∧ priceOf w = cp

/-- The loop over a queue allocates greedily. -/
theorem matchQueue_eq (heap : Heap Order) (op wp : ComparablePrice) {queue : List Ptr}
    (hqueue : QueueAt heap wp queue) {n : OrderSize} (hn : n ≠ 0) (acc : List MatchedOrder) :
    matchQueue heap op wp queue n acc =
      .ok ((greedy op n (resolve heap queue)).2, acc ++ (greedy op n (resolve heap queue)).1,
        (greedy op n (resolve heap queue)).2 == 0) := by
  induction queue generalizing n acc with
  | nil => simp [matchQueue, resolve, greedy, hn, pure, Except.pure]
  | cons p queue ih =>
    -- the pointer is live, and its order has the price of the level
    obtain ⟨w, hw, hprice⟩ := hqueue p List.mem_cons_self
    have hrest : QueueAt heap wp queue := fun p' hp' => hqueue p' (List.mem_cons_of_mem _ hp')
    have hres : resolve heap (p :: queue) = (p, w) :: resolve heap queue := by
      simp [resolve, hw]
    simp only [matchQueue, Heap.deref_of_live hw, bind, Except.bind, pure, Except.pure, hres,
      greedy, beq_iff_eq]
    by_cases hz : n - min n w.quantity = 0
    · simp [hz, tradePrice, hprice]
    · simp only [hz, if_false, ih hrest hz]
      simp [tradePrice, hprice]

/-- Beyond a level that does not trade with the incoming order no level does, unless
    both are market prices. -/
private theorem candidates_eq_nil {isBuy : Bool} (heap : Heap Order) (op : ComparablePrice)
    {p : SidePrice isBuy} {levels : List (SidePrice isBuy × List Ptr)}
    (hsorted : ∀ l ∈ levels, p < l.1) (hno : ¬ Crosses op p.toComparable)
    (hm : ¬ (op.price = 0 ∧ p.price = 0)) : candidates heap op levels = [] := by
  simp only [candidates, List.flatMap_eq_nil_iff]
  intro l hl
  rw [if_neg]
  exact fun hc => hno (hc.of_le (hsorted l hl).le hm)

/-- The loop over the levels allocates greedily to the orders that cross. -/
theorem matchLevels_eq {isBuy : Bool} (heap : Heap Order) (op : ComparablePrice)
    (hside : op.isBuy ≠ isBuy) {levels : List (SidePrice isBuy × List Ptr)}
    (hsorted : levels.Pairwise (fun a b => a.1 < b.1))
    (hqueue : ∀ l ∈ levels, QueueAt heap l.1.toComparable l.2) {n : OrderSize} (hn : n ≠ 0)
    (acc : List MatchedOrder) :
    matchLevels heap op levels n acc =
      .ok ((greedy op n (candidates heap op levels)).2,
        acc ++ (greedy op n (candidates heap op levels)).1) := by
  induction levels generalizing n acc with
  | nil => simp [matchLevels, candidates, greedy, pure, Except.pure]
  | cons l levels ih =>
    obtain ⟨p, queue⟩ := l
    rw [List.pairwise_cons] at hsorted
    have hrest : ∀ l ∈ levels, QueueAt heap l.1.toComparable l.2 :=
      fun l hl => hqueue l (List.mem_cons_of_mem _ hl)
    have hq : QueueAt heap p.toComparable queue := hqueue (p, queue) List.mem_cons_self
    have hmatch : op.isMatch p.toComparable = .ok (decide (Crosses op p.toComparable)) :=
      ComparablePrice.isMatch_eq hside
    simp only [matchLevels, ComparablePrice.isMarket, Bool.and_eq_true, beq_iff_eq, hmatch, bind,
      Except.bind]
    by_cases hm : op.price = 0 ∧ p.toComparable.price = 0
    · -- market against market: the level is skipped
      have hno := ComparablePrice.not_crosses_market hm.1 hm.2
      have hc : candidates heap op ((p, queue) :: levels) = candidates heap op levels := by
        simp [candidates, hno]
      rw [if_pos hm, hc]
      exact ih hsorted.2 hrest hn acc
    · rw [if_neg hm]
      by_cases hc : Crosses op p.toComparable
      · -- the queue of a level that crosses is offered before the later levels
        have hcand : candidates heap op ((p, queue) :: levels) =
            resolve heap queue ++ candidates heap op levels := by
          simp [candidates, hc]
        simp only [hc, decide_true, Bool.not_true, Bool.false_eq_true, if_false,
          matchQueue_eq heap op p.toComparable hq hn, hcand, greedy_append op hn, beq_iff_eq]
        by_cases hz : (greedy op n (resolve heap queue)).2 = 0
        · simp [hz, pure, Except.pure]
        · simp only [hz, if_false, ih hsorted.2 hrest hz, List.append_assoc]
      · -- the first level that does not match ends the walk
        have hnil : candidates heap op ((p, queue) :: levels) = [] := by
          have := candidates_eq_nil heap op hsorted.1 hc hm
          simp only [candidates] at this ⊢
          simp [hc, this]
        simp [hc, hnil, greedy, pure, Except.pure]

/-! ## The orders of a box -/

/-- A match with what its pointer leads to. -/
def roundOf (heap : Heap Order) (m : MatchedOrder) : Round where
  working := (heap.cells m.matchOrder).getD { clientOrderId := "" }
  quantity := m.matchQuantity
  price := m.matchPrice

/-- The round is with the order that the pointer holds. -/
theorem roundOf_working {b : TradeOrderBox} {m : MatchedOrder} {w : Order}
    (h : b.Holds m.matchOrder w) : (roundOf b.heap m).working = w := by
  simp [roundOf, h.2]

/-- The candidates of an incoming order are the working orders that would trade with it. -/
theorem mem_candidates {b : TradeOrderBox} (hb : b.WF) {isBuy : Bool} {op : ComparablePrice}
    (hside : op.isBuy ≠ isBuy) {p : Ptr} {w : Order} :
    (p, w) ∈ candidates b.heap op (b.side isBuy).toList ↔
      b.Holds p w ∧ Crosses op (priceOf w) := by
  simp only [candidates, List.mem_flatMap, Prod.exists]
  constructor
  · rintro ⟨sp, queue, hlevel, hin⟩
    split at hin
    · next hc =>
      simp only [resolve, List.mem_filterMap, Option.map_eq_some_iff, Prod.mk.injEq] at hin
      obtain ⟨p', hp', w', hw', rfl, rfl⟩ := hin
      have hq := (b.mem_toList_side isBuy sp queue).mp hlevel
      -- what is queued at the level is a working order of this price
      obtain ⟨v, hv, hprice⟩ := (hb.queue hq).2 p' hp'
      have := hv.2
      rw [hw'] at this
      cases this
      exact ⟨hv, by rw [hprice]; exact hc⟩
    · exact nomatch hin
  · rintro ⟨hold, hc⟩
    -- an order that crosses is on the other side
    have hisBuy : (priceOf w).isBuy = isBuy := by
      have := hc.1
      cases isBuy <;> cases h : (priceOf w).isBuy <;> cases h' : op.isBuy <;> simp_all
    have hcp : (⟨(priceOf w).price⟩ : SidePrice isBuy).toComparable = priceOf w := by
      rw [← hisBuy]; rfl
    -- the order is queued at its price
    have hin : w.clientOrderId ∈ b.ledger.queue (priceOf w) :=
      hb.ledger.queued.mpr ⟨w, hold.ledger, rfl⟩
    cases hq : b.get? (priceOf w) with
    | none => simp [TradeOrderBox.ledger, hq] at hin
    | some queue =>
      simp only [TradeOrderBox.ledger, hq, Option.getD_some, List.mem_map] at hin
      obtain ⟨p', hp', hid⟩ := hin
      obtain ⟨v, hv, -⟩ := (hb.queue hq).2 p' hp'
      -- an id stands for one pointer
      have hpp : p' = p := by
        have := hv.1
        rw [← hv.idOf, hid, hold.1] at this
        exact (Option.some.inj this).symm
      subst hpp
      refine ⟨⟨(priceOf w).price⟩, queue, (b.mem_toList_side isBuy _ queue).mpr (by rw [hcp, hq]), ?_⟩
      rw [hcp, if_pos hc]
      simp only [resolve, List.mem_filterMap, Option.map_eq_some_iff, Prod.mk.injEq]
      exact ⟨p', hp', w, hold.2, rfl, rfl⟩

/-- Every candidate is met once. -/
theorem nodup_candidates {b : TradeOrderBox} (hb : b.WF) {isBuy : Bool} (op : ComparablePrice) :
    ((candidates b.heap op (b.side isBuy).toList).map Prod.fst).Nodup := by
  -- all pointers of a level are live, so that none is dropped
  have hfst : ∀ queue : List Ptr, (∀ p ∈ queue, ∃ w, b.heap.cells p = some w) →
      (resolve b.heap queue).map Prod.fst = queue := by
    intro queue h
    induction queue with
    | nil => rfl
    | cons p queue ih =>
      obtain ⟨w, hw⟩ := h p List.mem_cons_self
      have := ih fun p' hp' => h p' (List.mem_cons_of_mem _ hp')
      simp only [resolve] at this ⊢
      simp [hw, this]
  have hlevel : ∀ l ∈ (b.side isBuy).toList, b.get? l.1.toComparable = some l.2 :=
    fun l hl => (b.mem_toList_side isBuy l.1 l.2).mp hl
  have hlive : ∀ l ∈ (b.side isBuy).toList, ∀ p ∈ l.2, ∃ w, b.heap.cells p = some w := by
    intro l hl p hp
    obtain ⟨w, hw, -⟩ := (hb.queue (hlevel l hl)).2 p hp
    exact ⟨w, hw.2⟩
  have hsub : ∀ l ∈ (b.side isBuy).toList, ∀ p ∈ (if Crosses op l.1.toComparable then
      resolve b.heap l.2 else []).map Prod.fst, p ∈ l.2 := by
    intro l hl p hp
    split at hp
    · rwa [hfst l.2 (hlive l hl)] at hp
    · exact nomatch hp
  simp only [candidates, List.map_flatMap]
  rw [List.nodup_flatMap]
  constructor
  · intro l hl
    split
    · rw [hfst l.2 (hlive l hl)]
      -- the ids queued at a level differ, and so do the pointers
      have hnd := hb.ledger.nodup l.1.toComparable
      simp only [TradeOrderBox.ledger, hlevel l hl, Option.getD_some] at hnd
      exact hnd.of_map
    · exact List.nodup_nil
  · -- an order has one price, so it is queued at one level only
    refine List.Pairwise.imp_of_mem ?_ Std.TreeMap.ordered_keys_toList
    intro l l' hl hl' hlt p hp hp'
    obtain ⟨w, hw, hprice⟩ := (hb.queue (hlevel l hl)).2 p (hsub l hl p hp)
    obtain ⟨w', hw', hprice'⟩ := (hb.queue (hlevel l' hl')).2 p (hsub l' hl' p hp')
    have := hw.2
    rw [hw'.2] at this
    cases this
    have hll : l'.1.price = l.1.price := congrArg ComparablePrice.price (hprice'.symm.trans hprice)
    have : l.1 < l'.1 := compare_lt_iff_lt.mp hlt
    rw [SidePrice.lt_iff_rank, show l'.1 = l.1 from by cases h : l'.1; cases h' : l.1; simp_all] at this
    exact absurd this (Nat.lt_irrefl _)

/-- What an incoming order would trade with, in the order of the book. -/
def candidatesOf (b : TradeOrderBox) (o : Order) : List (Ptr × Order) :=
  candidates b.heap (priceOf o) (b.side !(o.buySell == .buy)).toList

/-- The orders an order meets are on the other side. -/
private theorem isBuy_ne_opposite {o : Order} (ho : Sound o) :
    (priceOf o).isBuy ≠ !(o.buySell == .buy) := by
  rw [ho.isBuy]
  cases (o.buySell == .buy) <;> simp

/-- The candidates are the working orders that cross. -/
theorem mem_candidatesOf {b : TradeOrderBox} (hb : b.WF) {o : Order} (ho : Sound o) {p : Ptr}
    {w : Order} : (p, w) ∈ candidatesOf b o ↔ b.Holds p w ∧ Crosses (priceOf o) (priceOf w) :=
  mem_candidates hb (isBuy_ne_opposite ho)

section Greedy

variable {b : TradeOrderBox} (hb : b.WF) {o : Order} (ho : Sound o) (hq : o.quantity ≠ 0)
include hb ho hq

/-- The walk over the other side of a box. -/
private theorem walk_eq :
    matchLevels b.heap (priceOf o) (b.side !(o.buySell == .buy)).toList o.quantity [] =
      .ok ((greedy (priceOf o) o.quantity (candidatesOf b o)).2,
        (greedy (priceOf o) o.quantity (candidatesOf b o)).1) := by
  refine matchLevels_eq b.heap (priceOf o) (isBuy_ne_opposite ho)
    (Std.TreeMap.ordered_keys_toList.imp fun h => compare_lt_iff_lt.mp h) ?_ hq []
  intro l hl p hp
  obtain ⟨w, hw, hprice⟩ := (hb.queue ((b.mem_toList_side _ l.1 l.2).mp hl)).2 p hp
  exact ⟨w, hw.2, hprice⟩

/-- Every match is with a working order that trades with the incoming one. -/
private theorem holds_of_mem_greedy {m : MatchedOrder}
    (hm : m ∈ (greedy (priceOf o) o.quantity (candidatesOf b o)).1) :
    ∃ w, b.Holds m.matchOrder w ∧ Crosses (priceOf o) (priceOf w) ∧ m.matchQuantity ≠ 0 ∧
      m.matchQuantity ≤ w.quantity := by
  have hpos : ∀ pw ∈ candidatesOf b o, pw.2.quantity ≠ 0 :=
    fun pw hpw => (hb.ledger.working ((mem_candidatesOf hb ho).mp hpw).1.ledger).quantity
  obtain ⟨w, hw, -, hq0, hle⟩ := mem_greedy (priceOf o) hq hpos hm
  exact ⟨w, ((mem_candidatesOf hb ho).mp hw).1, ((mem_candidatesOf hb ho).mp hw).2, hq0, hle⟩

omit ho hq in
/-- No order is matched twice. -/
private theorem nodup_greedy :
    ((greedy (priceOf o) o.quantity (candidatesOf b o)).1.map (·.matchOrder)).Nodup :=
  (nodup_candidates hb (priceOf o)).sublist (greedy_isPrefix _ _ _).sublist

/-- Greedy filling is a complete matching. -/
private theorem matching_greedy (isDelete : Bool) : Matching b.ledger o
    ((greedy (priceOf o) o.quantity (candidatesOf b o)).1.map (roundOf b.heap))
    (greedy (priceOf o) o.quantity (candidatesOf b o)).2 isDelete := by
  have hround : ∀ r ∈ (greedy (priceOf o) o.quantity (candidatesOf b o)).1.map (roundOf b.heap),
      b.ledger.working r.working.clientOrderId = some r.working ∧
      Crosses (priceOf o) (priceOf r.working) ∧ r.quantity ≠ 0 ∧
      r.quantity ≤ r.working.quantity := by
    intro r hr
    obtain ⟨m, hm, rfl⟩ := List.mem_map.mp hr
    obtain ⟨w, hw, hrest⟩ := holds_of_mem_greedy hb ho hq hm
    rw [roundOf_working hw]
    exact ⟨hw.ledger, hrest⟩
  refine ⟨?_, fun r hr => (hround r hr).1, fun r hr => (hround r hr).2.1,
    fun r hr => (hround r hr).2.2, ?_, ?_, ?_⟩
  · rw [List.map_map]
    refine List.Nodup.map_on ?_ (nodup_greedy hb).of_map
    intro m hm m' hm' heq
    obtain ⟨w, hw, -⟩ := holds_of_mem_greedy hb ho hq hm
    obtain ⟨w', hw', -⟩ := holds_of_mem_greedy hb ho hq hm'
    simp only [Function.comp_apply, roundOf_working hw, roundOf_working hw'] at heq
    -- equal orders are under one pointer
    have hp : m.matchOrder = m'.matchOrder := by
      have := hw.1
      rw [heq, hw'.1] at this
      exact (Option.some.inj this).symm
    exact List.inj_on_of_nodup_map (nodup_greedy hb) hm hm' hp
  · rw [List.map_map]
    exact greedy_total (priceOf o) o.quantity (candidatesOf b o)
  · intro hrem _ id w hid hc
    obtain ⟨-, p, hp⟩ := hb.toRep.holds hid
    -- something is left, so that every candidate was taken whole
    obtain ⟨m, hm, hmp, hmq⟩ :=
      greedy_exhausted (priceOf o) hrem ((mem_candidatesOf hb ho).mpr ⟨hp, hc⟩)
    exact ⟨roundOf b.heap m, List.mem_map_of_mem hm, roundOf_working (by rw [hmp]; exact hp), hmq⟩
  · intro hrem ws hnd hws
    refine Nat.lt_of_le_of_lt ?_ (greedy_short (priceOf o) hrem)
    -- different orders that would trade are different candidates
    have hsub : ws.Subperm ((candidatesOf b o).map Prod.snd) := by
      refine List.subperm_of_subset hnd.of_map fun w hw => ?_
      obtain ⟨-, p, hp⟩ := hb.toRep.holds (hws w hw).1
      exact List.mem_map.mpr ⟨(p, w), (mem_candidatesOf hb ho).mpr ⟨hp, (hws w hw).2⟩, rfl⟩
    obtain ⟨l, hl, hsublist⟩ := hsub
    rw [← (hl.map (·.quantity.toNat)).sum_nat,
      show (candidatesOf b o).map (·.2.quantity.toNat) =
        ((candidatesOf b o).map Prod.snd).map (·.quantity.toNat) from by rw [List.map_map]; rfl]
    exact (hsublist.map _).sum_le_sum fun _ _ => Nat.zero_le _

/-- On a box that is in order the algorithm returns a complete matching of a sound
    order, with a different working order in every match. -/
theorem matches_spec :
    ∃ ms remainder isDelete,
      «matches» b.heap o (b.oppositeWorkingOrders o.buySell) = .ok (ms, remainder, isDelete) ∧
      (ms.map (·.matchOrder)).Nodup ∧ (∀ m ∈ ms, ∃ w, b.Holds m.matchOrder w) ∧
      Matching b.ledger o (ms.map (roundOf b.heap)) remainder isDelete := by
  have hnd := nodup_greedy (o := o) hb
  have hholds : ∀ m ∈ (greedy (priceOf o) o.quantity (candidatesOf b o)).1,
      ∃ w, b.Holds m.matchOrder w :=
    fun m hm => (holds_of_mem_greedy hb ho hq hm).imp fun _ h => h.1
  have hwhole := matching_greedy hb ho hq
  simp only [«matches», ho.priced, TradeOrderBox.oppositeWorkingOrders, walk_eq hb ho hq,
    bind, Except.bind, pure, Except.pure, beq_iff_eq]
  split
  · -- nothing is left, whatever the time in force
    next hrem => exact ⟨_, _, _, rfl, hnd, hholds, hrem ▸ hwhole false⟩
  · next hrem =>
    split
    · exact ⟨_, _, _, rfl, hnd, hholds, hwhole true⟩
    · -- fill or kill: nothing trades at all
      exact ⟨_, _, _, rfl, List.nodup_nil, by simp, (hwhole true).nothing hrem⟩
    · exact ⟨_, _, _, rfl, hnd, hholds, hwhole false⟩

end Greedy

end TradeAlgorithmSimple

end FixHandler.Trade
