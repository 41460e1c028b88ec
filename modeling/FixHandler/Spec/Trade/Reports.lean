import Mathlib
import FixHandler.Spec.Trade.Answers
import FixHandler.Spec.Trade.Conservation
import FixHandler.Spec.Trade.Priority

/-!
# The reports of an incoming order

Each round of the matching loop reports the incoming order with the quantity that will be left of
it after the last round. The report of the resting order shows what is left of that order now. So
the reports of an incoming order count its quantity down only if there is one round.

## Key results

- `restingOrders_deleteOrder`: the book without an order that is replaced
- `reports_rounds`: the reports of the incoming order in the loop
- `matches_offers`: when there is a round, and when there is one only
- `countsDown_iff`: when the reports count down
-/

namespace FixHandler.Trade

open Cxx (Exception Heap Ptr)
open Ems (Order)
open TradeAlgorithmSimple (Resting restingAt restingOrders matching allocate)

/-! ## The book without an order -/

namespace TradeOrderBox

/-- A level without the pointer `p`; it goes when nothing else is queued there. -/
def withoutPtr {isBuy : Bool} (p : Ptr) (level : SidePrice isBuy × List Ptr) :
    Option (SidePrice isBuy × List Ptr) :=
  let queue := level.2.filter (· != p)
  if queue.isEmpty then none else some (level.1, queue)

section Delete

variable {b : TradeOrderBox} (hb : b.WF) {p : Ptr} {w : Order} (hw : b.Holds p w)

include hb hw

/-- At other prices the pointer is not queued. -/
private theorem filter_queue_of_ne {cp : ComparablePrice} {q : List Ptr} (hq : b.get? cp = some q)
    (hne : cp ≠ priceOf w) : q.filter (· != p) = q := by
  rw [List.filter_eq_self]
  intro p' hp'
  rw [bne_iff_ne]
  rintro rfl
  obtain ⟨v, hv, hprice⟩ := (hb.queue hq).2 p' hp'
  have : v = w := Option.some.inj (hv.2.symm.trans hw.2)
  exact hne (by rw [← hprice, this])

/-- The levels of a side without an order. -/
theorem toList_side_unlinked (isBuy : Bool) :
    ((b.unlinked w p).side isBuy).toList = (b.side isBuy).toList.filterMap (withoutPtr p) := by
  have hkey : ∀ l l' : SidePrice isBuy × List Ptr, l' ∈ withoutPtr p l → l'.1 = l.1 := by
    intro l l' h
    unfold withoutPtr at h
    dsimp only at h
    split at h
    · exact nomatch h
    · cases h
      rfl
  -- the levels stay in their order, so that it is enough to look them up
  apply Std.TreeMap.toList_eq
  · rw [List.pairwise_filterMap]
    refine Std.TreeMap.ordered_keys_toList.imp fun hlt l hl l' hl' => ?_
    rw [hkey _ _ hl, hkey _ _ hl']
    exact hlt
  · intro k v
    have hget : ((b.unlinked w p).side isBuy)[k]? = (b.unlinked w p).get? k.toComparable := rfl
    rw [hget, unlinked_get?, List.mem_filterMap]
    constructor
    · rintro ⟨⟨k', q⟩, hmem, hsome⟩
      have hk : k' = k := (hkey _ _ hsome).symm
      subst hk
      have hq := (b.mem_toList_side isBuy k' q).mp hmem
      unfold withoutPtr at hsome
      by_cases hcp : k'.toComparable = priceOf w
      · rw [if_pos hcp, hq, Option.getD_some]
        dsimp only at hsome
        split at hsome
        · exact nomatch hsome
        · next hne =>
          cases hsome
          rw [if_neg hne]
      · -- a level at another price is not touched
        have hself := filter_queue_of_ne hb hw hq hcp
        dsimp only at hsome
        rw [hself] at hsome
        rw [if_neg hcp, hq]
        split at hsome
        · exact nomatch hsome
        · cases hsome
          rfl
    · intro hsome
      by_cases hcp : k.toComparable = priceOf w
      · rw [if_pos hcp] at hsome
        -- the level of the order is there, without its pointer
        cases hq : b.get? k.toComparable with
        | none =>
          rw [hq] at hsome
          exact nomatch hsome
        | some q =>
          rw [hq, Option.getD_some] at hsome
          refine ⟨(k, q), (b.mem_toList_side isBuy k q).mpr hq, ?_⟩
          unfold withoutPtr
          split at hsome
          · exact nomatch hsome
          · next hne =>
            cases hsome
            exact if_neg hne
      · rw [if_neg hcp] at hsome
        refine ⟨(k, v), (b.mem_toList_side isBuy k v).mpr hsome, ?_⟩
        have hself := filter_queue_of_ne hb hw hsome hcp
        unfold withoutPtr
        dsimp only
        rw [hself, if_neg]
        rw [List.isEmpty_iff]
        exact (hb.queue hsome).1

omit hb in
/-- What rests at a level without the pointer -/
private theorem restingAt_without {heap : Heap Order} (hheap : ∀ p' ≠ p, heap.cells p' = b.heap.cells p')
    {cp : ComparablePrice} {q : List Ptr} (hq : ∀ p' ∈ q, ∃ v, b.Holds p' v) :
    restingAt heap cp (q.filter (· != p)) =
      (restingAt b.heap cp q).filter (fun r => r.order.clientOrderId != w.clientOrderId) := by
  induction q with
  | nil => rfl
  | cons p' q ih =>
    have hrest := ih fun p'' hp'' => hq p'' (List.mem_cons_of_mem p' hp'')
    obtain ⟨v, hv⟩ := hq p' List.mem_cons_self
    have hcons : restingAt b.heap cp (p' :: q) = ⟨p', v, cp⟩ :: restingAt b.heap cp q := by
      simp [restingAt, hv.2]
    rw [hcons]
    -- the pointer goes on one side, and the order behind it on the other
    by_cases hp : p' = p
    · have hvw : v = w := Option.some.inj (hv.2.symm.trans (hp ▸ hw.2))
      rw [List.filter_cons_of_neg (by simp [hp]), List.filter_cons_of_neg (by simp [hvw]), hrest]
    · have hid : v.clientOrderId ≠ w.clientOrderId := by
        intro heq
        have := hv.1
        rw [heq, hw.1] at this
        exact hp (Option.some.inj this).symm
      have hcons' : restingAt heap cp (p' :: q.filter (· != p)) =
          ⟨p', v, cp⟩ :: restingAt heap cp (q.filter (· != p)) := by
        simp [restingAt, hheap p' hp, hv.2]
      rw [List.filter_cons_of_pos (by simpa using hp), List.filter_cons_of_pos (by simpa using hid),
        hcons', hrest]

omit hb in
/-- What rests at the levels without the pointer -/
private theorem restingOrders_without {heap : Heap Order}
    (hheap : ∀ p' ≠ p, heap.cells p' = b.heap.cells p') {isBuy : Bool}
    {levels : List (SidePrice isBuy × List Ptr)}
    (hlevels : ∀ l ∈ levels, ∀ p' ∈ l.2, ∃ v, b.Holds p' v) :
    restingOrders heap (levels.filterMap (withoutPtr p)) =
      (restingOrders b.heap levels).filter (fun r => r.order.clientOrderId != w.clientOrderId) := by
  induction levels with
  | nil => rfl
  | cons l levels ih =>
    have hrest := ih fun l' hl' => hlevels l' (List.mem_cons_of_mem l hl')
    have hlevel : restingAt heap l.1.toComparable (l.2.filter (· != p)) = _ :=
      restingAt_without hw hheap (hlevels l List.mem_cons_self)
    unfold restingOrders at hrest ⊢
    rw [List.flatMap_cons, List.filter_append, ← hlevel, ← hrest, List.filterMap_cons]
    unfold withoutPtr
    -- a level that becomes empty has nothing that rests
    by_cases hempty : (l.2.filter (· != p)).isEmpty
    · have hnil := List.isEmpty_iff.mp hempty
      simp only [hnil]
      rfl
    · simp only [hempty]
      rfl

/-- The orders that rest in a box from which an order is withdrawn are the others. -/
theorem restingOrders_deleteOrder {b' : TradeOrderBox} {o w' : Order}
    (hid : o.clientOrderId = w.clientOrderId) (h : b.deleteOrder o false = .ok (b', w'))
    (isBuy : Bool) :
    restingOrders b'.heap (b'.side isBuy).toList =
      (restingOrders b.heap (b.side isBuy).toList).filter
        (fun r => r.order.clientOrderId != w.clientOrderId) := by
  have hsound : Sound w := (hb.ledger.working hw.ledger).toSound
  -- the order is marked as cancelled before it is freed, which is after its level was looked up
  have hderef : (b.heap.modify p fun o => { o with status := .cancelled }).cells p =
      some { w with status := .cancelled } := by simp [hw.2]
  simp only [deleteOrder, hid, removeWorkingOrder_eq hw hsound, bind, Except.bind, unlinked_heap,
    Heap.deref_of_live hderef, pure, Except.pure] at h
  cases h
  have hlevels : ∀ l ∈ (b.side isBuy).toList, ∀ p' ∈ l.2, ∃ v, b.Holds p' v := by
    intro l hl p' hp'
    obtain ⟨v, hv, -⟩ := (hb.queue ((b.mem_toList_side isBuy l.1 l.2).mp hl)).2 p' hp'
    exact ⟨v, hv⟩
  show restingOrders _ ((b.unlinked w p).side isBuy).toList = _
  rw [toList_side_unlinked hb hw isBuy]
  exact restingOrders_without hw (fun p' hp' => by simp [hp']) hlevels

end Delete

end TradeOrderBox

/-! ## The reports -/

/-- The report of a fill of the order `id` -/
def Event.filled? (id : String) : Event → Option Order
  | .onOrder o => if o.status = .filled ∧ o.clientOrderId = id then some o else none
  | _ => none

/-- The reports of the fills of the order `id` -/
def filledReports (id : String) (es : List Event) : List Order := es.filterMap (Event.filled? id)

/-- Each report shows what is left of `n` after the fills up to it. -/
def CountsDown (n : OrderSize) (reports : List Order) : Prop :=
  ∀ (k : Nat) (report : Order), reports[k]? = some report →
    report.workingQuantity.toNat + ((reports.take (k + 1)).map (·.filledQuantity.toNat)).sum = n.toNat

/-- The reports of fills are collected call by call. -/
theorem filledReports_append (id : String) (es es' : List Event) :
    filledReports id (es ++ es') = filledReports id es ++ filledReports id es' :=
  List.filterMap_append

/-- Calls that report no fill leave nothing to collect. -/
theorem filledReports_eq_nil {id : String} {es : List Event} (h : ∀ e ∈ es, e.filled? id = none) :
    filledReports id es = [] :=
  List.filterMap_eq_nil_iff.mpr h

/-- A call to the market listener is no report. -/
theorem Event.IsMarket.filled? {e : Event} (h : e.IsMarket) (id : String) : e.filled? id = none := by
  cases e with
  | onOrder o => exact nomatch h.1
  | _ => rfl

/-- The incoming order of a round is reported with all that will be left of it in the end. -/
theorem filledReports_roundEvents {o w : Order} (hne : w.clientOrderId ≠ o.clientOrderId)
    (m : MatchedOrder) (fillId : String) (remainder : OrderSize) (now now' : Ems.Timestamp) :
    (filledReports o.clientOrderId (TradeSimulater.roundEvents o w m fillId remainder now now')).map
      (fun r => (r.filledQuantity, r.workingQuantity)) = [(m.matchQuantity, remainder)] := by
  simp [filledReports, TradeSimulater.roundEvents, Event.filled?, TradeSimulater.makeFilledOrder, hne,
    fillOf]

/-- The reports of all the rounds but those that an exception took count down if there is one
    round. -/
theorem countsDown_of_rounds {n remainder : OrderSize} {ms done : List MatchedOrder}
    {reports : List Order} (hdone : done <+: ms) (hnonempty : done ≠ [])
    (hpositive : ∀ m ∈ ms, m.matchQuantity ≠ 0)
    (htotal : (ms.map (·.matchQuantity.toNat)).sum + remainder.toNat = n.toNat)
    (hreports : reports.map (fun r => (r.filledQuantity, r.workingQuantity)) =
      done.map fun m => (m.matchQuantity, remainder)) :
    CountsDown n reports ↔ ms.length = 1 := by
  obtain ⟨m, done, rfl⟩ := List.exists_cons_of_ne_nil hnonempty
  obtain ⟨ms, rfl⟩ : ∃ ms', ms = m :: ms' := by
    obtain ⟨t, rfl⟩ := hdone
    exact ⟨done ++ t, rfl⟩
  obtain ⟨report, reports, rfl⟩ := List.exists_cons_of_ne_nil (l := reports) fun h => by
    rw [h] at hreports
    exact nomatch hreports
  rw [List.map_cons, List.map_cons, List.cons.injEq, Prod.mk.injEq] at hreports
  obtain ⟨⟨hfilled, hworking⟩, hrest⟩ := hreports
  rw [List.map_cons, List.sum_cons] at htotal
  constructor
  · -- the first report already shows what will be left
    intro h
    have hfirst := h 0 report rfl
    rw [List.take_succ_cons, List.take_zero, List.map_singleton, List.sum_singleton, hworking,
      hfilled] at hfirst
    cases ms with
    | nil => rfl
    | cons m' ms =>
      have hpos : m'.matchQuantity.toNat ≠ 0 := fun hzero =>
        hpositive m' (List.mem_cons_of_mem _ List.mem_cons_self) (UInt64.toNat_inj.mp hzero)
      rw [List.map_cons, List.sum_cons] at htotal
      omega
  · intro h
    have hms : ms = [] := List.length_eq_zero_iff.mp (Nat.succ.inj h)
    subst hms
    have hdone' : done = [] := List.prefix_nil.mp (List.cons_prefix_cons.mp hdone).2
    subst hdone'
    -- there is one report, and it shows what is left
    rw [List.map_nil, List.map_eq_nil_iff] at hrest
    subst hrest
    intro k r hk
    cases k with
    | zero =>
      cases hk
      rw [List.take_succ_cons, List.take_zero, List.map_singleton, List.sum_singleton, hworking,
        hfilled]
      simpa [Nat.add_comm] using htotal
    | succ k => exact nomatch hk

/-! ## What an order is matched with -/

/-- The resting orders that match an order, in the order of the book -/
def TradeOrderBox.offers (b : TradeOrderBox) (o : Order) : List Resting :=
  matching (priceOf o) (restingOrders b.heap (b.oppositeWorkingOrders o.buySell).toList)

/-- The quantities of the orders -/
def quantities (l : List Resting) : List Nat := l.map (·.order.quantity.toNat)

/-- There is something to trade with, and all that is needed if the order is fill-or-kill. -/
def Fillable (o : Order) (l : List Resting) : Prop :=
  l ≠ [] ∧ (o.tif = .fok → o.quantity.toNat ≤ (quantities l).sum)

/-- There is one order only, or the first is all that is needed. -/
def OneIsEnough (n : OrderSize) : List Resting → Prop
  | [] => True
  | first :: rest => rest = [] ∨ n ≤ first.order.quantity

namespace TradeOrderBox

variable {b : TradeOrderBox} (hb : b.WF) {o : Order} (ho : Sound o) (hq : o.quantity ≠ 0)

include hb in
/-- The orders that are queued in a box are live, and they have a quantity. -/
private theorem live_toList (isBuy : Bool) : ∀ l ∈ (b.side isBuy).toList, ∀ p ∈ l.2,
    ∃ w, b.heap.cells p = some w ∧ w.quantity ≠ 0 := by
  intro l hl p hp
  obtain ⟨w, hw, -⟩ := (hb.queue ((b.mem_toList_side isBuy l.1 l.2).mp hl)).2 p hp
  exact ⟨w, hw.2, (hb.ledger.working hw.ledger).quantity⟩

include hb in
/-- The orders that an order matches work in the box. -/
private theorem working_of_mem_offers {r : Resting} (hr : r ∈ b.offers o) :
    b.ledger.working r.order.clientOrderId = some r.order := by
  unfold offers matching restingOrders restingAt at hr
  simp only [List.mem_filter, List.mem_flatMap, List.mem_filterMap, Option.map_eq_some_iff] at hr
  obtain ⟨⟨l, hl, p, hp, w, hw, rfl⟩, -⟩ := hr
  obtain ⟨w', hw', -⟩ := (hb.queue ((b.mem_toList_side _ l.1 l.2).mp hl)).2 p hp
  have hww : w' = w := Option.some.inj (hw'.2.symm.trans hw)
  exact hww ▸ hw'.ledger

include hb in
/-- An order whose id is not working replaces none of the orders that it matches. -/
theorem filter_offers_of_unknown (hid : b.ledger.working o.clientOrderId = none) :
    (b.offers o).filter (·.order.clientOrderId != o.clientOrderId) = b.offers o := by
  rw [List.filter_eq_self]
  intro r hr
  rw [bne_iff_ne]
  intro heq
  -- what is offered works, which this id does not
  have hr := working_of_mem_offers hb hr
  rw [heq, hid] at hr
  exact nomatch hr

include hb in
/-- An order that replaces `w` matches the others. -/
theorem offers_deleteOrder {b' : TradeOrderBox} {p : Ptr} {w w' : Order} (hw : b.Holds p w)
    (hid : o.clientOrderId = w.clientOrderId) (h : b.deleteOrder o false = .ok (b', w')) :
    b'.offers o = (b.offers o).filter (·.order.clientOrderId != o.clientOrderId) := by
  unfold offers oppositeWorkingOrders matching
  rw [restingOrders_deleteOrder hb hw hid h, List.filter_filter, List.filter_filter, hid]
  exact List.filter_congr fun r _ => Bool.and_comm _ _

include hb ho hq in
/-- How an order is matched: the rounds and what is left, and when there is a round at all, and one
    only. -/
theorem matches_offers :
    ∃ ms remainder isDelete,
      TradeAlgorithmSimple.matches b.heap o (b.oppositeWorkingOrders o.buySell) =
        .ok (ms, remainder, isDelete) ∧
      (∀ m ∈ ms, m.matchQuantity ≠ 0) ∧
      (ms ≠ [] → (ms.map (·.matchQuantity.toNat)).sum + remainder.toNat = o.quantity.toNat) ∧
      (ms ≠ [] ↔ Fillable o (b.offers o)) ∧
      (ms ≠ [] → (ms.length = 1 ↔ OneIsEnough o.quantity (b.offers o))) := by
  have hside : (priceOf o).isBuy ≠ !(o.buySell == .buy) := by
    rw [ho.isBuy]
    simp
  have hlive := live_toList hb !(o.buySell == .buy)
  have hresult := TradeAlgorithmSimple.matches_eq_result b.heap o
    (b.oppositeWorkingOrders o.buySell) (priceOf o) hside hlive ho.priced hq
  have hpt := TradeAlgorithmSimple.allocate_priceTime hq
    (fun r hr => (TradeAlgorithmSimple.mem_matching _ _ _ hside hlive hr).1)
    (fun r hr => (TradeAlgorithmSimple.mem_matching b.heap _ (priceOf o) hside hlive hr).2)
  have hlength := congrArg List.length
    (TradeAlgorithmSimple.quantity_allocate (priceOf o) o.quantity (b.offers o))
  have hrest := TradeAlgorithmSimple.rest_allocate (priceOf o) o.quantity (b.offers o)
  -- the rest is that of the greedy filling, in numbers that do not wrap
  have hzero : ∀ q : OrderSize, q = 0 ↔ q.toNat = 0 := fun q => by
    rw [← UInt64.toNat_inj, UInt64.toNat_zero]
  rw [List.length_map] at hlength
  rw [Greedy.fill_rest] at hrest
  change TradeAlgorithmSimple.PriceTime (priceOf o) o.quantity (b.offers o)
    (allocate (priceOf o) o.quantity (b.offers o)).1
    (allocate (priceOf o) o.quantity (b.offers o)).2 at hpt
  change TradeAlgorithmSimple.matches b.heap o (b.oppositeWorkingOrders o.buySell) =
    .ok (TradeAlgorithmSimple.result o (allocate (priceOf o) o.quantity (b.offers o)).1
      (allocate (priceOf o) o.quantity (b.offers o)).2) at hresult
  generalize allocate (priceOf o) o.quantity (b.offers o) = filled at hresult hpt hlength hrest
  obtain ⟨ms, remainder⟩ := filled
  dsimp only at hresult hpt hlength hrest
  -- when there is a round, and when there is one
  have hempty : ms ≠ [] ↔ b.offers o ≠ [] := by
    rw [← List.length_pos_iff, hlength]
    cases b.offers o with
    | nil => simp [Greedy.fill]
    | cons r l =>
      refine iff_of_true ?_ (List.cons_ne_nil _ _)
      rw [List.map_cons, Greedy.fill]
      split <;> simp
  have hone : ms.length = 1 ↔ b.offers o ≠ [] ∧ OneIsEnough o.quantity (b.offers o) := by
    rw [hlength]
    cases b.offers o with
    | nil => simp [Greedy.fill]
    | cons r l =>
      rw [List.map_cons, Greedy.length_fill_cons_eq_one, List.map_eq_nil_iff,
        ← UInt64.le_iff_toNat_le]
      exact (and_iff_right (List.cons_ne_nil _ _)).symm
  have henough : remainder = 0 ↔ o.quantity.toNat ≤ (quantities (b.offers o)).sum := by
    rw [hzero, hrest, Nat.sub_eq_zero_iff_le]
    rfl
  by_cases hkilled : o.tif = .fok ∧ remainder ≠ 0
  · -- a fill-or-kill order that cannot be filled
    have hres : TradeAlgorithmSimple.result o ms remainder = ([], o.quantity, true) := by
      simp [TradeAlgorithmSimple.result, hkilled.1, hkilled.2]
    rw [hres] at hresult
    have hno : ¬ Fillable o (b.offers o) := fun h => hkilled.2 (henough.mpr (h.2 hkilled.1))
    exact ⟨[], _, _, hresult, by simp, by simp, iff_of_false (by simp) hno, by simp⟩
  · -- the rounds stand, whatever becomes of the rest
    obtain ⟨isDelete, hres⟩ : ∃ isDelete,
        TradeAlgorithmSimple.result o ms remainder = (ms, remainder, isDelete) := by
      unfold TradeAlgorithmSimple.result
      by_cases h : remainder = 0
      · exact ⟨false, by rw [if_pos h, h]⟩
      · rw [if_neg h]
        cases htif : o.tif with
        | fok => exact absurd ⟨htif, h⟩ hkilled
        | _ => exact ⟨_, rfl⟩
    rw [hres] at hresult
    refine ⟨ms, remainder, isDelete, hresult, hpt.positive, fun _ => hpt.total, ?_, fun hne => ?_⟩
    · rw [hempty]
      refine ⟨fun hne => ⟨hne, fun htif => henough.mp ?_⟩, And.left⟩
      by_contra h
      exact hkilled ⟨htif, h⟩
    · rw [hone]
      exact and_iff_right (hempty.mp hne)

end TradeOrderBox

namespace TradeSimulater

/-- The loop reports the incoming order once for each round that it comes to. -/
theorem reports_rounds {o : Order} (remainder : OrderSize) {ms : List MatchedOrder}
    {s : TradeSimulater} {b : TradeOrderBox} (h : Matchable o ms b s)
    (hid : ∀ r ∈ ms.map (TradeAlgorithmSimple.roundOf b.heap),
      r.working.clientOrderId ≠ o.clientOrderId) :
    ∃ done es, done <+: ms ∧ (ms ≠ [] → done ≠ []) ∧
      (ms.forM (matchOne o remainder) s).state.events = s.events ++ es ∧
      (filledReports o.clientOrderId es).map (fun r => (r.filledQuantity, r.workingQuantity)) =
        done.map fun m => (m.matchQuantity, remainder) := by
  induction ms generalizing s b with
  | nil => exact ⟨[], [], List.prefix_rfl, fun h => h, (List.append_nil _).symm, rfl⟩
  | cons m ms ih =>
    obtain ⟨w, s', b', hw, hone, -, ⟨now, now', hevents⟩, hrest⟩ := h.round remainder
    have hne : w.clientOrderId ≠ o.clientOrderId := by
      have := hid _ List.mem_cons_self
      rwa [TradeAlgorithmSimple.roundOf_working hw] at this
    -- the round, and what is published after it
    obtain ⟨es, hes, hmarket⟩ : Adds Event.IsMarket s' (matchOne o remainder m s).state := by
      rw [hone]
      exact adds_changeMarket (fun _ h => h) _ _ s'
    have hround : (filledReports o.clientOrderId
        (roundEvents o w m (fillIdText (s.fillId + 1)) remainder now now' ++ es)).map
          (fun r => (r.filledQuantity, r.workingQuantity)) = [(m.matchQuantity, remainder)] := by
      rw [filledReports_append, filledReports_eq_nil fun e he => (hmarket e he).filled? _,
        List.append_nil]
      exact filledReports_roundEvents hne m _ remainder now now'
    rw [hevents, List.append_assoc] at hes
    have hbind : (m :: ms).forM (matchOne o remainder) s =
        (matchOne o remainder m >>= fun _ => ms.forM (matchOne o remainder)) s := rfl
    rw [hbind]
    -- an exception ends the loop, after the fill was reported
    cases hx : matchOne o remainder m s with
    | error e s₁ =>
      rw [EStateM.bind_eq_of_error hx]
      rw [hx] at hes
      exact ⟨[m], _, by simp, by simp, hes, hround⟩
    | ok u s₁ =>
      rw [EStateM.bind_eq_of_ok hx]
      rw [hx] at hes
      obtain ⟨hmatchable, -, hrounds⟩ := hrest s₁ hx
      obtain ⟨done, es', hdone, -, hes', hreports⟩ := ih hmatchable fun r hr =>
        hid r (List.mem_cons_of_mem _ (hrounds ▸ hr))
      refine ⟨m :: done,
        (roundEvents o w m (fillIdText (s.fillId + 1)) remainder now now' ++ es) ++ es',
        List.cons_prefix_cons.mpr ⟨rfl, hdone⟩, by simp, ?_, ?_⟩
      · rw [hes', ← List.append_assoc]
        exact congrArg (· ++ es') hes
      · rw [filledReports_append, List.map_append, hround, hreports]
        rfl

/-- A matched order is reported for the rounds of its loop, and for nothing else. -/
theorem reports_matchOrder {s : TradeSimulater} (hs : s.WF) {o : Order} {b : TradeOrderBox}
    (hb : s.box o.contract = some b) (ho : Sound o) (hq : o.quantity ≠ 0)
    (hid : b.ledger.working o.clientOrderId = none) :
    ∃ es, (matchOrder o s).state.events = s.events ++ es ∧
      (filledReports o.clientOrderId es ≠ [] ↔ Fillable o (b.offers o)) ∧
      (Fillable o (b.offers o) →
        (CountsDown o.quantity (filledReports o.clientOrderId es) ↔
          OneIsEnough o.quantity (b.offers o))) := by
  obtain ⟨hwf, hname⟩ := hs.box hb
  obtain ⟨ms, remainder, isDelete, hmatches, hpositive, htotal, hfillable, hone⟩ :=
    TradeOrderBox.matches_offers hwf ho hq
  obtain ⟨ms', remainder', isDelete', hmatches', hnd, hh, hm⟩ :=
    TradeAlgorithmSimple.matches_spec hwf ho hq
  rw [hmatches] at hmatches'
  cases hmatches'
  -- the incoming order does not work yet, and so is none of those it meets
  have hne : ∀ r ∈ ms.map (TradeAlgorithmSimple.roundOf b.heap),
      r.working.clientOrderId ≠ o.clientOrderId := by
    intro r hr heq
    have := hm.working r hr
    rw [heq, hid] at this
    exact nomatch this
  obtain ⟨done, es, hdone, hnonempty, hes, hreports⟩ := reports_rounds remainder
    ⟨hs, hb, hnd, hh, Ledger.runs_trades ho hname.symm s.fillId hm.nodup hm.working hm.crosses
      hm.quantity⟩ hne
  -- what comes after the loop reports no fill
  obtain ⟨es', hes', hno⟩ : ∃ es', (matchOrder o s).state.events = s.events ++ (es ++ es') ∧
      ∀ e ∈ es', e.filled? o.clientOrderId = none := by
    rw [matchOrder, EStateM.get_bind, orderBox_eq hb,
      EStateM.bind_eq_of_ok (EStateM.ofExcept_ok b s), hmatches,
      EStateM.bind_eq_of_ok (EStateM.ofExcept_ok _ s)]
    dsimp only
    cases hx : ms.forM (matchOne o remainder) s with
    | error e s₁ =>
      rw [EStateM.bind_eq_of_error hx]
      rw [hx] at hes
      exact ⟨[], by rw [List.append_nil]; exact hes, by simp⟩
    | ok u s₁ =>
      rw [EStateM.bind_eq_of_ok hx]
      rw [hx] at hes
      obtain ⟨es', hes', hno⟩ := adds_leftover (P := fun e => e.filled? o.clientOrderId = none)
        (fun e he => he.filled? _) (fun o' hstatus => by
          rcases hstatus with h | h <;> simp [Event.filled?, h]) o remainder isDelete s₁
      refine ⟨es', ?_, hno⟩
      rw [hes', ← List.append_assoc]
      exact congrArg (· ++ es') hes
  -- so the reports are those of the rounds
  have hall : filledReports o.clientOrderId (es ++ es') = filledReports o.clientOrderId es := by
    rw [filledReports_append, filledReports_eq_nil hno, List.append_nil]
  refine ⟨es ++ es', hes', ?_, fun hyes => ?_⟩
  · rw [hall, ← hfillable]
    have hnil := congrArg (· = []) hreports
    simp only [List.map_eq_nil_iff, eq_iff_iff] at hnil
    rw [ne_eq, hnil]
    refine ⟨fun hne hms => hne ?_, hnonempty⟩
    rw [hms] at hdone
    exact List.prefix_nil.mp hdone
  · have hms := hfillable.mpr hyes
    rw [hall, ← hone hms]
    exact countsDown_of_rounds hdone (hnonempty hms) hpositive (htotal hms) hreports

/-- The resting orders that the order of a request matches, but for the one that it replaces -/
def offers (s : TradeSimulater) (r : Request) : List Resting :=
  ((s.box r.order.contract).elim [] (·.offers r.order)).filter
    (·.order.clientOrderId != r.order.clientOrderId)

/-- The published book takes the order out that a request replaces. -/
def Withdraws (s : TradeSimulater) : Request → Prop
  | .change o => ∀ b w m, s.box o.contract = some b → b.ledger.working o.clientOrderId = some w →
      s.market o.contract = some m → ∃ r, m.onOrderDeleted w = .ok r
  | _ => True

/-- A request that comes to a fill. -/
structure Trades (s : TradeSimulater) (r : Request) : Prop where
  entry : r.isEntry = true
  accepts : s.Accepts r
  withdraws : s.Withdraws r
  fillable : Fillable r.order (s.offers r)

/-- The reports of the fills of a request's order -/
def reports (s : TradeSimulater) (r : Request) : List Order :=
  filledReports r.order.clientOrderId ((s.step r).events.drop s.events.length)

/-- The reports of a request are among what its step adds. -/
theorem reports_eq {s : TradeSimulater} {r : Request} {es : List Event}
    (h : (s.step r).events = s.events ++ es) :
    s.reports r = filledReports r.order.clientOrderId es := by
  rw [reports, h, List.drop_left]

/-- The reports of a request are none if it does not trade, and otherwise they count down if one
    resting order is enough. -/
def Reported (s : TradeSimulater) (r : Request) : Prop :=
  (s.reports r ≠ [] ↔ s.Trades r) ∧
    (s.Trades r → (CountsDown r.order.quantity (s.reports r) ↔
      OneIsEnough r.order.quantity (s.offers r)))

/-- Without a fill there is no report of one. -/
private theorem reported_of_none {s : TradeSimulater} {r : Request} {es : List Event}
    (hes : (s.step r).events = s.events ++ es)
    (hnone : ∀ e ∈ es, e.filled? r.order.clientOrderId = none) (hno : ¬ s.Trades r) :
    s.Reported r := by
  have hnil : s.reports r = [] := (reports_eq hes).trans (filledReports_eq_nil hnone)
  exact ⟨iff_of_false (fun h => h hnil) hno, fun h => absurd h hno⟩

/-- An order that comes to be matched -/
private theorem reported_of_matched {s s' : TradeSimulater} (hs' : s'.WF) {r : Request}
    {b' : TradeOrderBox} (hentry : r.isEntry = true) (hyes : s.Accepts r)
    (hwithdraws : s.Withdraws r) (es : List Event)
    (hes : ∀ es', (matchOrder (s.pendingOf r) s').state.events = s'.events ++ es' →
      (s.step r).events = s.events ++ (es ++ es'))
    (hnone : ∀ e ∈ es, e.filled? r.order.clientOrderId = none)
    (hb' : s'.box r.order.contract = some b') (hsound : Sound r.order) (hq : r.order.quantity ≠ 0)
    (hid : b'.ledger.working r.order.clientOrderId = none)
    (hoffers : s.offers r = b'.offers r.order) : s.Reported r := by
  -- the order is matched as it was sent, apart from what the exchange adds
  have hpending : (s.pendingOf r).contract = r.order.contract ∧
      (s.pendingOf r).quantity = r.order.quantity ∧
      (s.pendingOf r).clientOrderId = r.order.clientOrderId ∧
      Sound (s.pendingOf r) ∧ b'.offers (s.pendingOf r) = b'.offers r.order ∧
      ∀ l, Fillable (s.pendingOf r) l ↔ Fillable r.order l := by
    cases r with
    | add o => exact ⟨rfl, rfl, rfl, hsound.congr rfl rfl rfl, rfl, fun _ => Iff.rfl⟩
    | change o => exact ⟨rfl, rfl, rfl, hsound.congr rfl rfl rfl, rfl, fun _ => Iff.rfl⟩
    | delete o => exact nomatch hentry
  obtain ⟨hcontract, hquantity, hclient, hsound', hoffers', hfillable⟩ := hpending
  obtain ⟨es', hes', hsome, hcount⟩ := reports_matchOrder hs' (hcontract ▸ hb') hsound'
    (hquantity ▸ hq) (hclient ▸ hid)
  rw [hclient, hoffers', hfillable] at hsome hcount
  rw [hquantity] at hcount
  -- what is reported before is no fill
  have hreports : s.reports r = filledReports r.order.clientOrderId es' := by
    rw [reports_eq (hes es' hes'), filledReports_append, filledReports_eq_nil hnone,
      List.nil_append]
  have htrades : s.Trades r ↔ Fillable r.order (b'.offers r.order) := by
    rw [← hoffers]
    exact ⟨fun h => h.fillable, fun h => ⟨hentry, hyes, hwithdraws, h⟩⟩
  refine ⟨?_, fun h => ?_⟩
  · rw [hreports, htrades]
    exact hsome
  · rw [hreports, hoffers]
    exact hcount (htrades.mp h)

/-- A report of another status is no report of a fill. -/
private theorem filled?_of_status {o : Order} (h : o.status ≠ .filled) (id : String) :
    (Event.onOrder o).filled? id = none := by
  simp [Event.filled?, h]

/-- The order of an accepted `Change` is matched once the old order is withdrawn. -/
private theorem reported_change {s : TradeSimulater} (hs : s.WF) {o : Order}
    (hyes : s.Accepts (.change o)) : s.Reported (.change o) := by
  obtain ⟨hsound, hq, -⟩ := sound_of_checkOrder hyes.1
  obtain ⟨b, w, b', hb, hw, hwc, hdel, hreach, heq⟩ := handle_change_of_accepts hs hyes
  obtain ⟨hwf, -⟩ := hs.box hb
  have hwid := (hwf.ledger.working hw).id
  obtain ⟨m, m', hm, hm', hrun⟩ := hreach.market
  cases hrun
  -- the reports before the order is matched
  let before : List Event := [.onOrder (s.pendingOf (.change o)), .onOrder (makeCancelResponse
    { w with status := .cancelled } Message.orderCancelled)]
  have hwithdrawn : (s.withdrawn o w b').events = s.events ++ before := List.append_assoc _ _ _
  obtain ⟨es, hes, hno⟩ : ∃ es, (changeMarketOnOrderDeleted { w with status := .cancelled }
      (s.withdrawn o w b')).state.events = (s.withdrawn o w b').events ++ es ∧
        ∀ e ∈ es, e.IsMarket := adds_changeMarket (fun _ h => h) _ _ _
  have hnone : ∀ e ∈ before ++ es, e.filled? o.clientOrderId = none := by
    intro e he
    rcases List.mem_append.mp he with he | he
    · rcases List.mem_pair.mp he with rfl | rfl
      · exact filled?_of_status (by simp [pendingOf]) _
      · exact filled?_of_status (by simp [makeCancelResponse]) _
    · exact (hno e he).filled? _
  -- the book looks at the price and the quantity of the order, which the cancel leaves
  have hcall : changeMarketOnOrderDeleted { w with status := .cancelled } =
      changeMarket o.contract (·.onOrderDeleted w) := by
    rw [← hwc]
    rfl
  rw [hcall, hwithdrawn, List.append_assoc] at hes
  rw [hcall] at heq
  cases hch : m.onOrderDeleted w with
  | error e =>
    -- the published book throws, and the order is not matched
    have hx : changeMarket _ (·.onOrderDeleted w) _ = _ := changeMarket_of_error hm' hch
    refine reported_of_none ?_ hnone fun ht => ?_
    · rw [step, heq, EStateM.bind_eq_of_error hx]
      rwa [hx] at hes
    · obtain ⟨r, hok⟩ := ht.withdraws b w m hb hw hm
      cases hch.symm.trans hok
  | ok r =>
    obtain ⟨m₁, n⟩ := r
    have hx := changeMarket_of_ok (hreach.frame.marketListener.trans hs.listening) hm'
      (·.onOrderDeleted w) hch
    have hreach₁ : Reaches o.contract [.withdraw w] [.withdraw w] s
        (((s.withdrawn o w b').withMarket o.contract m₁).sent (publishedBy m₁ n)) := by
      have hperforms : Performs o.contract [.withdraw w] s
          (changeMarket o.contract (·.onOrderDeleted w) (s.withdrawn o w b')) :=
        performs_changeMarket hs hreach
      rwa [hx] at hperforms
    -- the state between the two halves of the request is as well formed as any other
    have hs₁ := hreach₁.wf hs fun b₀ hb₀ => by
      rw [hb] at hb₀
      cases hb₀
      refine ⟨?_, trivial⟩
      show b.ledger.working w.clientOrderId = some w
      rw [hwid]
      exact hw
    have hb₁ : (((s.withdrawn o w b').withMarket o.contract m₁).sent (publishedBy m₁ n)).box
        o.contract = some b' := by
      rw [box_sent, box_withMarket, withdrawn, box_sent, box_withBox, if_pos rfl]
    obtain ⟨b₀, b₂, hb₀, hb₂, -, hledger⟩ := hreach₁.box
    rw [hb] at hb₀
    rw [hb₁] at hb₂
    cases hb₀
    cases hb₂
    refine reported_of_matched hs₁ rfl hyes ?_ (before ++ es) ?_ hnone hb₁ hsound hq ?_ ?_
    · intro b₀ w₀ m₀ hb₀ hw₀ hm₀
      rw [hb] at hb₀
      cases hb₀
      rw [hw] at hw₀
      cases hw₀
      rw [hm] at hm₀
      cases hm₀
      exact ⟨_, hch⟩
    · intro es' hes'
      rw [step, heq, EStateM.bind_eq_of_ok hx, hes', ← List.append_assoc]
      rw [hx] at hes
      exact congrArg (· ++ es') hes
    · rw [hledger]
      show (b.ledger.remove w).working o.clientOrderId = none
      rw [Ledger.remove_working, if_pos hwid.symm]
    · obtain ⟨-, p, hp⟩ := hwf.toRep.holds hw
      unfold offers
      rw [show (Request.change o).order = o from rfl, hb]
      exact (TradeOrderBox.offers_deleteOrder hwf hp hwid.symm hdel).symm

/-- The reports of a request, whatever becomes of it. -/
theorem reported {s : TradeSimulater} (hs : s.WF) (r : Request) : s.Reported r := by
  cases outcome hs r with
  | rejected hno reason h =>
    have hes : (s.step r).events = s.events ++ [.onOrder (makeRejectResponse r.order reason)] := by
      rw [step, h]
      rfl
    refine reported_of_none hes ?_ fun ht => hno ht.accepts
    exact List.forall_mem_singleton.mpr (filled?_of_status (by simp [makeRejectResponse]) _)
  | thrown hno e hcheck h =>
    have hes : (s.step r).events = s.events ++ [] := by
      rw [step, h, List.append_nil]
      rfl
    exact reported_of_none hes (by simp) fun ht => hno ht.accepts
  | served hyes b acts hb hplan h =>
    clear hplan h
    have hmarket : ∀ (o : Order) (s' : TradeSimulater), ∃ es,
        (changeMarketOnOrderDeleted o s').state.events = s'.events ++ es ∧ ∀ e ∈ es, e.IsMarket :=
      fun o s' => adds_changeMarket (fun _ h => h) _ _ s'
    cases r with
    | delete o =>
      obtain ⟨b, w, b', hb, hw, hwc, hreach, heq⟩ := handle_delete_of_accepts hs hyes
      -- a deletion reports one order, which is cancelled
      obtain ⟨es, hes, hno⟩ := hmarket { w with status := .cancelled } ((s.withBox o.contract b').sent
        [.onOrder (makeCancelResponse { w with status := .cancelled } Message.orderCancelled)])
      refine reported_of_none (by rw [step, heq, hes]; exact List.append_assoc _ _ _) ?_
        fun ht => by cases ht.entry
      intro e he
      rcases List.mem_append.mp he with he | he
      · rw [List.mem_singleton.mp he]
        exact filled?_of_status (by simp [makeCancelResponse]) _
      · exact (hno e he).filled? _
    | add o =>
      obtain ⟨hsound, hq, -⟩ := sound_of_checkOrder hyes.1
      obtain ⟨hwf, -⟩ := hs.box hb
      have h4 : b.orderStatus o.clientOrderId = 4 :=
        Except.ok.inj ((orderStatus_of_box hb o.clientOrderId).symm.trans hyes.2)
      -- the status 4 says that nothing works under the id
      obtain ⟨hid, -, -⟩ := unknown_of_orderStatus hwf.toRep h4
      have hs' := (hs.accepted (.add o)).sent [.onOrder (s.pendingOf (.add o))]
      refine reported_of_matched hs' rfl hyes trivial [.onOrder (s.pendingOf (.add o))] ?_ ?_ hb
        hsound hq hid ?_
      · intro es' hes'
        rw [step, handle_add_of_accepts hs hyes, hes']
        exact List.append_assoc _ _ _
      · exact List.forall_mem_singleton.mpr (filled?_of_status (by simp [pendingOf]) _)
      · unfold offers
        rw [hb]
        exact TradeOrderBox.filter_offers_of_unknown hwf hid
    | change o => exact reported_change hs hyes

/-- Whatever a simulater has handled, the fill reports of a request's order count its quantity down
    exactly if the request does not trade, or finds one order only, or an order that is enough at
    the front of the book. -/
theorem countsDown_iff (clock : Nat → Ems.Timestamp) (contracts : List TradeContract)
    (rs : List Request) (r : Request) :
    let s := (started clock contracts).run rs
    (s.reports r ≠ [] ↔ s.Trades r) ∧
    (CountsDown r.order.quantity (s.reports r) ↔
      (s.Trades r → OneIsEnough r.order.quantity (s.offers r))) := by
  intro s
  obtain ⟨hsome, hcount⟩ := reported ((WF.started clock contracts).run rs) r
  refine ⟨hsome, fun h ht => (hcount ht).mp h, fun h => ?_⟩
  by_cases ht : s.Trades r
  · exact (hcount ht).mpr (h ht)
  · -- no report at all
    have hnil : s.reports r = [] := by_contra fun hne => ht (hsome.mp hne)
    rw [hnil]
    exact fun k report hk => nomatch hk

/-- A buy order over 5 takes 2 and 3, and is reported twice with nothing left. -/
theorem first_report_shows_nothing_left :
    (sampleRun [.add (limitOrder "1" .sell "1" 2), .add (limitOrder "2" .sell "1" 3)]).Trades
      (.add (limitOrder "3" .buy "1" 5)) ∧
    ¬ CountsDown 5 ((sampleRun [.add (limitOrder "1" .sell "1" 2),
      .add (limitOrder "2" .sell "1" 3)]).reports (.add (limitOrder "3" .buy "1" 5))) := by
  have heval : ((sampleRun [.add (limitOrder "1" .sell "1" 2),
      .add (limitOrder "2" .sell "1" 3)]).reports (.add (limitOrder "3" .buy "1" 5))).map
        (fun r => (r.filledQuantity, r.workingQuantity)) = [(2, 0), (3, 0)] := by decide +kernel
  have hsome : (sampleRun [.add (limitOrder "1" .sell "1" 2),
      .add (limitOrder "2" .sell "1" 3)]).reports (.add (limitOrder "3" .buy "1" 5)) ≠ [] := by
    intro h
    rw [h] at heval
    exact nomatch heval
  refine ⟨(reported ((WF.started _ _).run _) _).1.mp hsome, fun h => ?_⟩
  obtain ⟨first, rest, hcons⟩ := List.exists_cons_of_ne_nil hsome
  -- the first report shows 0 where 3 are left
  have hfirst := h 0 first (by rw [hcons]; rfl)
  rw [hcons, List.map_cons, List.cons.injEq, Prod.mk.injEq] at heval
  rw [hcons, List.take_succ_cons, List.take_zero, List.map_singleton, List.sum_singleton,
    heval.1.1, heval.1.2] at hfirst
  exact nomatch hfirst

end TradeSimulater

end FixHandler.Trade
