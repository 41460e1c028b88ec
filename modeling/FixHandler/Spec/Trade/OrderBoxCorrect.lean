import Mathlib
import FixHandler.Native.Trade.OrderBox
import FixHandler.Spec.Trade.Ledger

/-!
# An order box keeps its ledger

`TradeOrderBox.ledger` reads the ledger off the maps, the queues and the memory
of a box, and `TradeOrderBox.Rep` says that these fit together: every pointer is
live and leads to an order of the id it is stored under, and what is queued is
what works. Every operation of a box that is in order (`WF`) returns normally,
keeps the box in order, and does to the ledger what its action says.

## Key results

- `fill_spec`: `fillOrder` and then `fillWorkingOrder` is `Act.trade`
- `addOrder_spec`: `addOrder` is `Act.rest`
- `addDeletedOrder_spec`: `addDeletedOrder` is `Act.archive`
- `deleteOrder_spec`: `deleteOrder` is `Act.cancel` or `Act.withdraw`
-/

namespace FixHandler.Trade

open Cxx (Exception Heap Ptr)
open Ems (Order Fill)

namespace TradeOrderBox

/-- The id of the order a pointer leads to. -/
def idOf (b : TradeOrderBox) (p : Ptr) : String :=
  (b.heap.cells p).elim "" (·.clientOrderId)

/-- What a box holds, without its pointers. -/
def ledger (b : TradeOrderBox) : Ledger where
  contract := b.contractName
  working id := b.workingOrders[id]?.bind b.heap.cells
  queue cp := ((b.get? cp).getD []).map b.idOf
  canceled id := b.canceledOrders[id]?.bind b.heap.cells
  fills := b.filledOrders

/-- The pointer leads to this working order. -/
def Holds (b : TradeOrderBox) (p : Ptr) (w : Order) : Prop :=
  b.workingOrders[w.clientOrderId]? = some p ∧ b.heap.cells p = some w

/-- The pointers of a box fit together. -/
structure Rep (b : TradeOrderBox) : Prop where
  working : ∀ {id : String} {p : Ptr}, b.workingOrders[id]? = some p →
    ∃ o, b.heap.cells p = some o ∧ o.clientOrderId = id
  canceled : ∀ {id : String} {p : Ptr}, b.canceledOrders[id]? = some p →
    ∃ o, b.heap.cells p = some o ∧ o.clientOrderId = id
  queue : ∀ {cp : ComparablePrice} {q : List Ptr}, b.get? cp = some q →
    q ≠ [] ∧ ∀ p ∈ q, ∃ w, b.Holds p w ∧ priceOf w = cp
  disjoint : ∀ {id : String} {p : Ptr}, b.workingOrders[id]? = some p →
    b.canceledOrders[id]? = none

/-- The box is in order, and so are the orders in it. -/
structure WF (b : TradeOrderBox) : Prop extends Rep b where
  ledger : b.ledger.WF

/-- The pointer is stored in one of the maps. -/
def Refers (b : TradeOrderBox) (p : Ptr) : Prop :=
  (∃ id : String, b.workingOrders[id]? = some p) ∨ ∃ id : String, b.canceledOrders[id]? = some p

/-- What a pointer holds is an order that works. -/
theorem Holds.ledger {b : TradeOrderBox} {p : Ptr} {w : Order} (h : b.Holds p w) :
    b.ledger.working w.clientOrderId = some w := by
  simp [TradeOrderBox.ledger, h.1, h.2]

/-- The pointer of an order has its id. -/
theorem Holds.idOf {b : TradeOrderBox} {p : Ptr} {w : Order} (h : b.Holds p w) :
    b.idOf p = w.clientOrderId := by
  simp [TradeOrderBox.idOf, h.2]

/-- A working order of the ledger is held by a pointer. -/
theorem Rep.holds {b : TradeOrderBox} (hb : b.Rep) {id : String} {w : Order}
    (h : b.ledger.working id = some w) : w.clientOrderId = id ∧ ∃ p, b.Holds p w := by
  simp only [TradeOrderBox.ledger, Option.bind_eq_some_iff] at h
  obtain ⟨p, hp, hw⟩ := h
  obtain ⟨o, ho, hid⟩ := hb.working hp
  rw [hw] at ho
  cases ho
  exact ⟨hid, p, by rw [hid]; exact hp, hw⟩

/-- An id without a working order in the ledger has none in the box. -/
theorem Rep.working_none {b : TradeOrderBox} (hb : b.Rep) {id : String}
    (h : b.ledger.working id = none) : b.workingOrders[id]? = none := by
  cases hp : b.workingOrders[id]? with
  | none => rfl
  | some p =>
    obtain ⟨w, hw, -⟩ := hb.working hp
    simp [TradeOrderBox.ledger, hp, hw] at h

/-- An id without a cancelled order in the ledger has none in the box. -/
theorem Rep.canceled_none {b : TradeOrderBox} (hb : b.Rep) {id : String}
    (h : b.ledger.canceled id = none) : b.canceledOrders[id]? = none := by
  cases hp : b.canceledOrders[id]? with
  | none => rfl
  | some p =>
    obtain ⟨w, hw, -⟩ := hb.canceled hp
    simp [TradeOrderBox.ledger, hp, hw] at h

/-- A working pointer stands for one id only. -/
theorem Rep.working_inj {b : TradeOrderBox} (hb : b.Rep) {id id' : String} {p : Ptr}
    (h : b.workingOrders[id]? = some p) (h' : b.workingOrders[id']? = some p) : id = id' := by
  obtain ⟨o, ho, hid⟩ := hb.working h
  obtain ⟨o', ho', hid'⟩ := hb.working h'
  rw [ho] at ho'
  cases ho'
  exact hid.symm.trans hid'

/-- A pointer is not shared by a working and a cancelled order. -/
theorem Rep.not_shared {b : TradeOrderBox} (hb : b.Rep) {id id' : String} {p : Ptr}
    (h : b.workingOrders[id]? = some p) (h' : b.canceledOrders[id']? = some p) : False := by
  obtain ⟨o, ho, hid⟩ := hb.working h
  obtain ⟨o', ho', hid'⟩ := hb.canceled h'
  rw [ho] at ho'
  cases ho'
  rw [← hid', hid, hb.disjoint h] at h'
  exact nomatch h'

/-- An empty box represents a ledger. -/
theorem Rep.empty (contractName : String) : Rep { contractName } where
  working h := by simp at h
  canceled h := by simp at h
  queue h := by simp at h
  disjoint h := by simp at h

/-- The box of a contract without orders. -/
theorem WF.empty (contractName : String) : WF { contractName } where
  toRep := .empty contractName
  ledger := by
    have : TradeOrderBox.ledger { contractName } = { contract := contractName } := by
      simp [TradeOrderBox.ledger]
    rw [this]
    exact .empty contractName

/-! ## Memory that nothing refers to -/

/-- What happens to memory that no map refers to changes nothing. -/
theorem Rep.heap_congr {b : TradeOrderBox} (hb : b.Rep) {h : Heap Order}
    (hh : ∀ p, b.Refers p → h.cells p = b.heap.cells p) :
    Rep { b with heap := h } ∧ TradeOrderBox.ledger { b with heap := h } = b.ledger := by
  -- the cells behind both tables are the same
  have hw : ∀ {id : String} {p : Ptr}, b.workingOrders[id]? = some p → h.cells p = b.heap.cells p :=
    fun hp => hh _ (.inl ⟨_, hp⟩)
  have hc : ∀ {id : String} {p : Ptr}, b.canceledOrders[id]? = some p → h.cells p = b.heap.cells p :=
    fun hp => hh _ (.inr ⟨_, hp⟩)
  refine ⟨⟨fun hp => ?_, fun hp => ?_, fun hq => ?_, hb.disjoint⟩, ?_⟩
  · rw [hw hp]; exact hb.working hp
  · rw [hc hp]; exact hb.canceled hp
  · refine ⟨(hb.queue hq).1, fun p hp => ?_⟩
    -- what is queued works, so its cell is the same too
    obtain ⟨w, hw', hcp⟩ := (hb.queue hq).2 p hp
    exact ⟨w, ⟨hw'.1, by rw [hw hw'.1]; exact hw'.2⟩, hcp⟩
  · simp only [TradeOrderBox.ledger, Ledger.mk.injEq, true_and, and_true]
    refine ⟨?_, ?_, ?_⟩
    · funext id
      cases hp : b.workingOrders[id]? with
      | none => rfl
      | some p => exact hw hp
    · funext cp
      cases hq : b.get? cp with
      | none => rfl
      | some q =>
        apply List.map_congr_left
        intro p hp
        obtain ⟨w, hw', -⟩ := (hb.queue hq).2 p hp
        simp only [TradeOrderBox.idOf, hw hw'.1]
    · funext id
      cases hp : b.canceledOrders[id]? with
      | none => rfl
      | some p => exact hc hp

/-- Fresh memory is not referred to. -/
theorem Rep.not_refers_next {b : TradeOrderBox} (hb : b.Rep) : ¬ b.Refers b.heap.next := by
  rintro (⟨id, h⟩ | ⟨id, h⟩)
  · obtain ⟨o, ho, -⟩ := hb.working h
    exact Heap.ne_next_of_live ho rfl
  · obtain ⟨o, ho, -⟩ := hb.canceled h
    exact Heap.ne_next_of_live ho rfl

/-! ## Taking an order out -/

/-- The box without a working order; its memory is still there. -/
def unlinked (b : TradeOrderBox) (w : Order) (p : Ptr) : TradeOrderBox :=
  let queue := ((b.get? (priceOf w)).getD []).filter (· != p)
  { b with
    toSideMaps := if queue.isEmpty then b.erase (priceOf w) else b.insert (priceOf w) queue
    workingOrders := b.workingOrders.erase w.clientOrderId }

/-- Taking a working order out of the tables succeeds, and gives back its pointer. -/
theorem removeWorkingOrder_eq {b : TradeOrderBox} {p : Ptr} {w : Order} (h : b.Holds p w)
    (hs : Sound w) : b.removeWorkingOrder w.clientOrderId = .ok (b.unlinked w p, p) := by
  simp only [removeWorkingOrder, h.1, Heap.deref_of_live h.2, hs.priced, bind, Except.bind, pure,
    Except.pure, unlinked]

/-- The order stays on the heap. -/
@[simp] theorem unlinked_heap (b : TradeOrderBox) (w : Order) (p : Ptr) :
    (b.unlinked w p).heap = b.heap := rfl

/-- The cancelled orders stay. -/
@[simp] theorem unlinked_canceledOrders (b : TradeOrderBox) (w : Order) (p : Ptr) :
    (b.unlinked w p).canceledOrders = b.canceledOrders := rfl

/-- One order works no more. -/
theorem unlinked_workingOrders (b : TradeOrderBox) (w : Order) (p : Ptr) (id : String) :
    (b.unlinked w p).workingOrders[id]? =
      if id = w.clientOrderId then none else b.workingOrders[id]? :=
  Std.TreeMap.getElem?_erase_if _ _ _

/-- Its level loses the pointer, and goes if nothing else is queued there. -/
theorem unlinked_get? (b : TradeOrderBox) (w : Order) (p : Ptr) (cp : ComparablePrice) :
    ((b.unlinked w p).get? cp) =
      if cp = priceOf w then
        (if (((b.get? cp).getD []).filter (· != p)).isEmpty then none
          else some (((b.get? cp).getD []).filter (· != p)))
      else b.get? cp := by
  simp only [unlinked]
  by_cases hcp : cp = priceOf w
  · subst hcp
    split <;> simp [SideMaps.get?_erase, SideMaps.get?_insert, *]
  · split <;> simp [SideMaps.get?_erase, SideMaps.get?_insert, hcp]

theorem Rep.unlinked {b : TradeOrderBox} (hb : b.Rep) {w : Order} {p : Ptr} (h : b.Holds p w) :
    (b.unlinked w p).Rep where
  working {id p'} hp := by
    rw [unlinked_workingOrders] at hp
    split at hp
    · exact nomatch hp
    · exact hb.working hp
  canceled hp := hb.canceled hp
  queue {cp q} hq := by
    -- what is still queued works under another id
    have hstill : ∀ p' ≠ p, ∀ w', b.Holds p' w' → (b.unlinked w p).Holds p' w' := by
      intro p' hne w' hw'
      refine ⟨?_, hw'.2⟩
      rw [unlinked_workingOrders, if_neg, hw'.1]
      intro heq
      have := hw'.1
      rw [heq, h.1] at this
      exact hne (Option.some.inj this).symm
    rw [unlinked_get?] at hq
    split at hq
    · split at hq
      · exact nomatch hq
      · next hne =>
        cases hq
        refine ⟨by simpa using hne, ?_⟩
        intro p' hp'
        simp only [List.mem_filter, bne_iff_ne] at hp'
        cases hq' : b.get? cp with
        | none => simp [hq'] at hp'
        | some q' =>
          rw [hq'] at hp'
          obtain ⟨w', hw', hcp⟩ := (hb.queue hq').2 p' hp'.1
          exact ⟨w', hstill p' hp'.2 w' hw', hcp⟩
    · next hcp =>
      refine ⟨(hb.queue hq).1, ?_⟩
      intro p' hp'
      obtain ⟨w', hw', rfl⟩ := (hb.queue hq).2 p' hp'
      refine ⟨w', hstill p' ?_ w' hw', rfl⟩
      -- the order was queued at its own price only
      rintro rfl
      have := hw'.2
      rw [h.2] at this
      cases this
      exact hcp rfl
  disjoint {id p'} hp := by
    rw [unlinked_workingOrders] at hp
    split at hp
    · exact nomatch hp
    · exact hb.disjoint hp

/-- Taking an order out removes it from the ledger. -/
theorem Rep.ledger_unlinked {b : TradeOrderBox} (hb : b.Rep) {w : Order} {p : Ptr}
    (h : b.Holds p w) : (b.unlinked w p).ledger = b.ledger.remove w := by
  simp only [TradeOrderBox.ledger, Ledger.remove, Ledger.mk.injEq, unlinked_heap,
    unlinked_canceledOrders, true_and]
  refine ⟨rfl, ?_, ?_, rfl⟩
  · -- the table of working orders
    funext id
    rw [unlinked_workingOrders, Function.update_apply]
    split <;> rfl
  · -- the queues
    funext cp
    rw [unlinked_get?, Function.update_apply]
    have hidOf : (b.unlinked w p).idOf = b.idOf := rfl
    by_cases hcp : cp = priceOf w
    · subst hcp
      simp only [if_true, hidOf, List.filter_map]
      -- dropping the pointer from the queue drops its id, and no other
      have hfilter : ((b.get? (priceOf w)).getD []).filter (· != p) =
          ((b.get? (priceOf w)).getD []).filter ((· != w.clientOrderId) ∘ b.idOf) := by
        apply List.filter_congr
        intro p' hp'
        cases hq : b.get? (priceOf w) with
        | none => simp [hq] at hp'
        | some q =>
          rw [hq] at hp'
          obtain ⟨w', hw', -⟩ := (hb.queue hq).2 p' hp'
          have : p' = p ↔ w'.clientOrderId = w.clientOrderId := by
            constructor
            · rintro rfl
              have := hw'.2
              rw [h.2] at this
              cases this; rfl
            · intro heq
              have := hw'.1
              rw [heq, h.1] at this
              exact (Option.some.inj this).symm
          simp [hw'.idOf, bne, this]
      rw [← hfilter]
      split
      · next hemp => simp [List.isEmpty_iff.mp hemp]
      · rfl
    · simp only [if_neg hcp, hidOf]

/-- A box that shares a working order's pointer with no other. -/
theorem Holds.not_refers_unlinked {b : TradeOrderBox} (hb : b.Rep) {w : Order} {p : Ptr}
    (h : b.Holds p w) : ¬ (b.unlinked w p).Refers p := by
  rintro (⟨id, hid⟩ | ⟨id, hid⟩)
  · rw [unlinked_workingOrders] at hid
    split at hid
    · exact nomatch hid
    · next hne => exact hne (hb.working_inj hid h.1)
  · exact hb.not_shared h.1 hid

/-! ## The operations -/

/-- Record an order as cancelled whose pointer is not stored yet. -/
theorem Rep.insertCanceled {b : TradeOrderBox} (hb : b.Rep) {p : Ptr} {o : Order}
    (hp : b.heap.cells p = some o) (hw : b.workingOrders[o.clientOrderId]? = none)
    (hc : b.canceledOrders[o.clientOrderId]? = none) :
    Rep { b with canceledOrders := b.canceledOrders.insertIfNew o.clientOrderId p } ∧
      TradeOrderBox.ledger
        { b with canceledOrders := b.canceledOrders.insertIfNew o.clientOrderId p } =
      { b.ledger with canceled := Function.update b.ledger.canceled o.clientOrderId (some o) } := by
  refine ⟨⟨hb.working, fun {id p'} h => ?_, hb.queue, fun {id p'} h => ?_⟩, ?_⟩
  · rw [Std.TreeMap.getElem?_insertIfNew_of_none hc] at h
    split at h
    · next hid => cases h; exact ⟨o, hp, hid.symm⟩
    · exact hb.canceled h
  · rw [Std.TreeMap.getElem?_insertIfNew_of_none hc]
    split
    · next hid =>
      -- the id is not among the working ones, so that the tables stay disjoint
      have h : b.workingOrders[id]? = some p' := h
      rw [hid, hw] at h
      exact nomatch h
    · exact hb.disjoint h
  · simp only [TradeOrderBox.ledger, Ledger.mk.injEq, true_and, and_true]
    refine ⟨rfl, ?_⟩
    funext id
    rw [Std.TreeMap.getElem?_insertIfNew_of_none hc, Function.update_apply]
    split
    · exact hp
    · rfl

/-- Deleting a working order cancels it, or withdraws it if it is not archived. -/
theorem deleteOrder_spec {b : TradeOrderBox} (hb : b.WF) {order w : Order} {p : Ptr}
    (h : b.Holds p w) (hid : order.clientOrderId = w.clientOrderId) (isAddToCancelled : Bool) :
    ∃ b', b.deleteOrder order isAddToCancelled = .ok (b', { w with status := .cancelled }) ∧
      b'.Rep ∧ b'.ledger = b.ledger.apply (if isAddToCancelled then .cancel w else .withdraw w) := by
  have hs : Sound w := (hb.ledger.working h.ledger).toSound
  have hrep := hb.toRep.unlinked h
  have hfree := h.not_refers_unlinked hb.toRep
  have hderef : (b.heap.modify p fun o => { o with status := .cancelled }).cells p =
      some { w with status := .cancelled } := by simp [h.2]
  simp only [deleteOrder, hid, removeWorkingOrder_eq h hs, bind, Except.bind, unlinked_heap,
    Heap.deref_of_live hderef, pure, Except.pure]
  -- nothing leads to the cell that is changed
  have hheap := hrep.heap_congr (h := b.heap.modify p fun o => { o with status := .cancelled }) (by
    intro p' hp'
    have : p' ≠ p := by rintro rfl; exact hfree hp'
    simp [this])
  cases isAddToCancelled with
  | true =>
    refine ⟨_, rfl, ?_⟩
    -- the pointer moves to the other table
    have hins := hheap.1.insertCanceled (o := { w with status := .cancelled }) hderef
      (by show (b.unlinked w p).workingOrders[w.clientOrderId]? = none
          simp [unlinked_workingOrders])
      (hb.disjoint h.1)
    refine ⟨hins.1, hins.2.trans ?_⟩
    rw [hheap.2, hb.toRep.ledger_unlinked h]
    rfl
  | false =>
    refine ⟨_, rfl, ?_⟩
    -- and it is freed, as nothing refers to it
    have hgone := hrep.heap_congr
      (h := (b.heap.modify p fun o => { o with status := .cancelled }).free p) (by
        intro p' hp'
        have : p' ≠ p := by rintro rfl; exact hfree hp'
        simp [this])
    exact ⟨hgone.1, hgone.2.trans (hb.toRep.ledger_unlinked h)⟩

/-- Recording a cancelled order that never rested archives it. -/
theorem addDeletedOrder_spec {b : TradeOrderBox} (hb : b.WF) {o : Order}
    (h : b.ledger.guard (.archive o)) :
    (b.addDeletedOrder o).1.Rep ∧
      (b.addDeletedOrder o).1.ledger = b.ledger.apply (.archive o) ∧
      (b.addDeletedOrder o).1.heap.deref (b.addDeletedOrder o).2 =
        .ok { o with status := .cancelled } := by
  have hw := hb.working_none h.1
  have hc := hb.canceled_none h.2
  -- the new cell is one that nothing leads to
  have hheap := hb.toRep.heap_congr (h := (b.heap.alloc { o with status := .cancelled }).1) (by
    intro p hp
    have : p ≠ b.heap.next := by rintro rfl; exact hb.not_refers_next hp
    simp [this])
  have hins := hheap.1.insertCanceled (p := b.heap.next) (o := { o with status := .cancelled })
    (by simp) hw hc
  refine ⟨hins.1, hins.2.trans (by rw [hheap.2]; rfl), ?_⟩
  apply Heap.deref_of_live
  simp [addDeletedOrder]

/-- Queue an order whose pointer is not stored yet. -/
private theorem Rep.insertWorking {b : TradeOrderBox} (hb : b.Rep) {p : Ptr} {o : Order}
    (hp : b.heap.cells p = some o) (hw : b.workingOrders[o.clientOrderId]? = none)
    (hc : b.canceledOrders[o.clientOrderId]? = none) :
    Rep { b with
      toSideMaps := b.insert (priceOf o) ((b.get? (priceOf o)).getD [] ++ [p])
      workingOrders := b.workingOrders.insertIfNew o.clientOrderId p } ∧
    TradeOrderBox.ledger { b with
      toSideMaps := b.insert (priceOf o) ((b.get? (priceOf o)).getD [] ++ [p])
      workingOrders := b.workingOrders.insertIfNew o.clientOrderId p } =
    { b.ledger with
      working := Function.update b.ledger.working o.clientOrderId (some o)
      queue := Function.update b.ledger.queue (priceOf o)
        (b.ledger.queue (priceOf o) ++ [o.clientOrderId]) } := by
  -- what worked before works as it did
  have hholds : ∀ p' w', b.Holds p' w' → Holds { b with
      toSideMaps := b.insert (priceOf o) ((b.get? (priceOf o)).getD [] ++ [p])
      workingOrders := b.workingOrders.insertIfNew o.clientOrderId p } p' w' := by
    intro p' w' h
    refine ⟨?_, h.2⟩
    rw [Std.TreeMap.getElem?_insertIfNew_of_none hw, if_neg, h.1]
    intro heq
    have := h.1
    rw [heq, hw] at this
    exact nomatch this
  constructor
  · constructor
    case working =>
      intro id p' h
      rw [Std.TreeMap.getElem?_insertIfNew_of_none hw] at h
      split at h
      · next hid => cases h; exact ⟨o, hp, hid.symm⟩
      · exact hb.working h
    case canceled => exact hb.canceled
    case queue =>
      intro cp q h
      rw [SideMaps.get?_insert] at h
      split at h
      · next hcp =>
        cases h
        refine ⟨by simp, fun p' hp' => ?_⟩
        -- the queue are the old pointers and the new one
        rcases List.mem_append.mp hp' with hp' | hp'
        · cases hq : b.get? (priceOf o) with
          | none => simp [hq] at hp'
          | some q =>
            rw [hq] at hp'
            obtain ⟨w', hw', hcp'⟩ := (hb.queue hq).2 p' hp'
            exact ⟨w', hholds p' w' hw', hcp'.trans hcp.symm⟩
        · rw [List.mem_singleton] at hp'
          subst hp'
          refine ⟨o, ⟨?_, hp⟩, hcp.symm⟩
          rw [Std.TreeMap.getElem?_insertIfNew_of_none hw, if_pos rfl]
      · refine ⟨(hb.queue h).1, fun p' hp' => ?_⟩
        obtain ⟨w', hw', hcp'⟩ := (hb.queue h).2 p' hp'
        exact ⟨w', hholds p' w' hw', hcp'⟩
    case disjoint =>
      intro id p' h
      rw [Std.TreeMap.getElem?_insertIfNew_of_none hw] at h
      split at h
      · next hid => rw [hid]; exact hc
      · exact hb.disjoint h
  · simp only [TradeOrderBox.ledger, Ledger.mk.injEq, true_and, and_true]
    refine ⟨?_, ?_⟩
    · funext id
      rw [Std.TreeMap.getElem?_insertIfNew_of_none hw, Function.update_apply]
      split
      · exact hp
      · rfl
    · funext cp
      rw [SideMaps.get?_insert, Function.update_apply]
      -- the new order is put behind the queue
      have hid : b.idOf p = o.clientOrderId := by simp [TradeOrderBox.idOf, hp]
      split
      · show List.map b.idOf ((b.get? (priceOf o)).getD [] ++ [p]) = _
        simp [hid]
      · rfl

/-- Queueing a new order rests it. -/
theorem addOrder_spec {b : TradeOrderBox} (hb : b.WF) {o : Order} (h : b.ledger.guard (.rest o)) :
    ∃ b' p, b.addOrder o = .ok (b', p) ∧ b'.Rep ∧ b'.ledger = b.ledger.apply (.rest o) ∧
      b'.heap.deref p = .ok { o with status := .working } := by
  obtain ⟨hs, -, -, hw, hc, -⟩ := h
  have hcell : ((b.heap.alloc o).1.modify b.heap.next fun o => { o with status := .working }).cells
      b.heap.next = some { o with status := .working } := by simp
  have hheap := hb.toRep.heap_congr
    (h := (b.heap.alloc o).1.modify b.heap.next fun o => { o with status := .working }) (by
      intro p hp
      have : p ≠ b.heap.next := by rintro rfl; exact hb.not_refers_next hp
      simp [this])
  have hins := hheap.1.insertWorking (p := b.heap.next) (o := { o with status := .working })
    hcell (hb.working_none hw) (hb.canceled_none hc)
  refine ⟨_, _, ?_, hins.1, hins.2.trans (by rw [hheap.2]; rfl), Heap.deref_of_live hcell⟩
  -- the order is created first, so that its price can be read
  have halloc : (b.heap.alloc o).1.cells b.heap.next = some o := by simp
  simp only [addOrder, addWorkingOrder, Heap.alloc_snd, Heap.deref_of_live halloc, bind,
    Except.bind, hs.priced, pure, Except.pure]
  rfl

/-- Changing what a working order's memory holds, but not its id nor its price,
    changes the order in the ledger. -/
private theorem Rep.modifyWorking {b : TradeOrderBox} (hb : b.Rep) {p : Ptr} {w : Order}
    (h : b.Holds p w) {f : Order → Order} (hid : (f w).clientOrderId = w.clientOrderId)
    (hpr : priceOf (f w) = priceOf w) :
    Rep { b with heap := b.heap.modify p f } ∧
    TradeOrderBox.ledger { b with heap := b.heap.modify p f } =
      { b.ledger with working := Function.update b.ledger.working w.clientOrderId (some (f w)) } ∧
    ∀ p' w', p' ≠ p → b.Holds p' w' → Holds { b with heap := b.heap.modify p f } p' w' := by
  -- no other pointer sees the change
  have hkeep : ∀ p' w', p' ≠ p → b.Holds p' w' →
      Holds { b with heap := b.heap.modify p f } p' w' := by
    intro p' w' hne h'
    exact ⟨h'.1, by simp [hne, h'.2]⟩
  have hown : Holds { b with heap := b.heap.modify p f } p (f w) :=
    ⟨by rw [hid]; exact h.1, by simp [h.2]⟩
  -- the id stays, so that the queues read as before
  have hidOf : TradeOrderBox.idOf { b with heap := b.heap.modify p f } = b.idOf := by
    funext p'
    by_cases hp : p' = p
    · subst hp; simp [TradeOrderBox.idOf, h.2, hid]
    · simp [TradeOrderBox.idOf, hp]
  refine ⟨⟨fun {id p'} hp' => ?_, fun {id p'} hp' => ?_, fun {cp q} hq => ?_, hb.disjoint⟩, ?_,
    hkeep⟩
  · obtain ⟨o, ho, hoid⟩ := hb.working hp'
    by_cases hp : p' = p
    · subst hp
      rw [h.2] at ho
      cases ho
      exact ⟨f w, hown.2, hid.trans hoid⟩
    · exact ⟨o, by simp [hp, ho], hoid⟩
  · obtain ⟨o, ho, hoid⟩ := hb.canceled hp'
    -- a pointer is in one of the two tables only
    have hp : p' ≠ p := by rintro rfl; exact hb.not_shared h.1 hp'
    exact ⟨o, by simp [hp, ho], hoid⟩
  · refine ⟨(hb.queue hq).1, fun p' hp' => ?_⟩
    obtain ⟨w', hw', hcp⟩ := (hb.queue hq).2 p' hp'
    by_cases hp : p' = p
    · subst hp
      have := hw'.2
      rw [h.2] at this
      cases this
      exact ⟨f w, hown, hpr.trans hcp⟩
    · exact ⟨w', hkeep p' w' hp hw', hcp⟩
  · simp only [TradeOrderBox.ledger, Ledger.mk.injEq, true_and, and_true, hidOf]
    refine ⟨?_, ?_⟩
    · funext id
      rw [Function.update_apply]
      split
      · -- its own entry reads the changed order
        next heq => rw [heq, h.1]; exact hown.2
      · next hne =>
        cases hp' : b.workingOrders[id]? with
        | none => rfl
        | some p' =>
          have hp : p' ≠ p := by
            rintro rfl
            exact hne (hb.working_inj hp' h.1)
          simp [hp]
    · funext id
      cases hp' : b.canceledOrders[id]? with
      | none => rfl
      | some p' =>
        have hp : p' ≠ p := by rintro rfl; exact hb.not_shared h.1 hp'
        simp [hp]

/-- Recording both fills of a round and taking it off the working order trades. What
    other pointers lead to stays. -/
theorem fill_spec {b : TradeOrderBox} (hb : b.WF) (o : Order) {w : Order} {p : Ptr} (fillId : String)
    (q : OrderSize) (price : OrderPrice) (h : b.Holds p w) :
    ∃ b', (b.fillOrder o fillId q price).1.fillWorkingOrder p fillId q price =
        .ok (b', fillOf w fillId q price) ∧
      b'.Rep ∧ b'.ledger = b.ledger.apply (.trade o w fillId q price) ∧
      ∀ p' w', p' ≠ p → b.Holds p' w' → b'.Holds p' w' := by
  have hs : Sound w := (hb.ledger.working h.ledger).toSound
  -- the fills are no part of what `Rep` is about
  let bf : TradeOrderBox := { b with
    filledOrders := b.filledOrders ++ [fillOf o fillId q price, fillOf w fillId q price] }
  have hbf : bf.Rep := ⟨hb.working, hb.canceled, hb.queue, hb.disjoint⟩
  have hf : bf.Holds p w := h
  have hfw : (b.fillOrder o fillId q price).1.fillWorkingOrder p fillId q price =
      (do return (← bf.workingOrderFilled p q, fillOf w fillId q price)) := by
    simp only [fillWorkingOrder, fillOrder, addFilledOrder, Heap.deref_of_live h.2, bind,
      Except.bind, List.append_assoc, List.cons_append, List.nil_append]
    rfl
  rw [hfw]
  simp only [workingOrderFilled, Heap.deref_of_live hf.2, bind, Except.bind, beq_iff_eq]
  by_cases hq : w.quantity = q
  · have hfree := hf.not_refers_unlinked hbf
    -- used up: the order is unlinked and freed
    have hgone := (hbf.unlinked hf).heap_congr (h := bf.heap.free p) (by
      intro p' hp'
      have : p' ≠ p := by rintro rfl; exact hfree hp'
      simp [this])
    simp only [hq, if_true, removeWorkingOrder_eq hf hs, pure, Except.pure, unlinked_heap]
    refine ⟨_, rfl, hgone.1, ?_, fun p' w' hne hp' => ⟨?_, ?_⟩⟩
    · rw [hgone.2, hbf.ledger_unlinked hf]
      simp only [Ledger.apply, hq, if_true]
      rfl
    · show (bf.unlinked w p).workingOrders[w'.clientOrderId]? = some p'
      rw [unlinked_workingOrders, if_neg]
      · exact hp'.1
      · intro heq
        have := hp'.1
        rw [heq, h.1] at this
        exact hne (Option.some.inj this).symm
    · show (bf.heap.free p).cells p' = some w'
      rw [Heap.cells_free, if_neg hne]
      exact hp'.2
  · simp only [hq, if_false, pure, Except.pure]
    -- something is left: the cell is changed in place
    obtain ⟨hrep, hledger, hkeep⟩ := hbf.modifyWorking hf (f := fun o =>
      { o with quantity := o.quantity - q, filledQuantity := o.filledQuantity + q }) rfl rfl
    refine ⟨_, rfl, hrep, ?_, hkeep⟩
    rw [hledger]
    simp only [Ledger.apply, hq, if_false]
    rfl

/-! ## Looking orders up -/

/-- The working orders of a kind. -/
def workingWhere (b : TradeOrderBox) (P : Order → Bool) : List Order :=
  b.workingOrders.toList.filterMap fun kv => (b.heap.cells kv.2).filter P

/-- The working orders that a predicate picks. -/
theorem mem_workingWhere {b : TradeOrderBox} (hb : b.Rep) {P : Order → Bool} {o : Order} :
    o ∈ b.workingWhere P ↔ b.ledger.working o.clientOrderId = some o ∧ P o = true := by
  simp only [workingWhere, List.mem_filterMap, Option.filter_eq_some_iff, Prod.exists]
  constructor
  · rintro ⟨id, p, hmem, hcell, hP⟩
    rw [Std.TreeMap.mem_toList_iff_getElem?_eq_some] at hmem
    obtain ⟨o', ho', hid⟩ := hb.working hmem
    rw [hcell] at ho'
    cases ho'
    subst hid
    exact ⟨Holds.ledger ⟨hmem, hcell⟩, hP⟩
  · rintro ⟨hw, hP⟩
    obtain ⟨-, p, hp⟩ := hb.holds hw
    exact ⟨o.clientOrderId, p, Std.TreeMap.mem_toList_iff_getElem?_eq_some.mpr hp.1, hp.2, hP⟩

/-- No id works twice. -/
theorem nodup_workingWhere {b : TradeOrderBox} (hb : b.Rep) (P : Order → Bool) :
    ((b.workingWhere P).map (·.clientOrderId)).Nodup := by
  have hkeys : (b.workingOrders.toList.map Prod.fst).Nodup := by
    rw [List.Nodup, List.pairwise_map]
    exact Std.TreeMap.distinct_keys_toList.imp fun h heq => h (by rw [heq]; exact Std.ReflCmp.compare_self)
  refine List.Nodup.sublist (List.map_filterMap_sublist ?_) hkeys
  intro kv hkv o ho
  have hmem : b.workingOrders[kv.1]? = some kv.2 :=
    Std.TreeMap.mem_toList_iff_getElem?_eq_some.mp hkv
  obtain ⟨o', ho', hid⟩ := hb.working hmem
  rw [Option.filter_eq_some_iff, ho'] at ho
  cases ho.1
  exact hid

/-- The status of an id, read off the ledger. -/
theorem orderStatus_eq {b : TradeOrderBox} (hb : b.Rep) (id : String) :
    b.orderStatus id =
      if (b.ledger.canceled id).isSome then 1
      else if (b.ledger.working id).isSome then 2
      else if b.fillsOf id ≠ [] then 3
      else 4 := by
  have hc : b.canceledOrders.contains id = (b.ledger.canceled id).isSome := by
    rw [Std.TreeMap.contains_eq_isSome_getElem?]
    cases hp : b.canceledOrders[id]? with
    | none => simp [TradeOrderBox.ledger, hp]
    | some p =>
      -- the entry leads to a live order
      obtain ⟨o, ho, -⟩ := hb.canceled hp
      simp [TradeOrderBox.ledger, hp, ho]
  have hw : b.workingOrders.contains id = (b.ledger.working id).isSome := by
    rw [Std.TreeMap.contains_eq_isSome_getElem?]
    cases hp : b.workingOrders[id]? with
    | none => simp [TradeOrderBox.ledger, hp]
    | some p =>
      obtain ⟨o, ho, -⟩ := hb.working hp
      simp [TradeOrderBox.ledger, hp, ho]
  have hf : (b.filledOrders.find? (·.clientOrderId == id)).isSome = decide (b.fillsOf id ≠ []) := by
    rw [fillsOf, ← List.head?_filter]
    cases b.filledOrders.filter (·.clientOrderId == id) <;> simp
  simp only [orderStatus, hc, hw, hf, decide_eq_true_eq]

/-- The quantity recorded as filled for an id. -/
def filledTotal (b : TradeOrderBox) (id : String) : Nat :=
  ((b.fillsOf id).map (·.fillQuantity.toNat)).sum

/-- A sum of 64-bit numbers wraps around. -/
private theorem toNat_foldl_add (fills : List Fill) (n : OrderSize) :
    (fills.foldl (fun n f => n + f.fillQuantity) n).toNat =
      (n.toNat + (fills.map (·.fillQuantity.toNat)).sum) % 2 ^ 64 := by
  induction fills generalizing n with
  | nil => simp
  | cons f fills ih =>
    rw [List.foldl_cons, ih, UInt64.toNat_add, List.map_cons, List.sum_cons]
    omega

/-- A query for a cancelled order is answered with its record. -/
theorem queryOrder_canceled {b : TradeOrderBox} {order o : Order}
    (h : b.ledger.canceled order.clientOrderId = some o) : b.queryOrder order = .ok o := by
  simp only [TradeOrderBox.ledger, Option.bind_eq_some_iff] at h
  obtain ⟨p, hp, ho⟩ := h
  simp [queryOrder, hp, Heap.deref_of_live ho]

/-- A query for a working order is answered with the order as it is. -/
theorem queryOrder_working {b : TradeOrderBox} (hb : b.WF) {order o : Order}
    (h : b.ledger.working order.clientOrderId = some o) :
    b.queryOrder order = .ok { o with workingPrice := o.price, workingQuantity := o.quantity } := by
  have hc := hb.canceled_none (hb.ledger.disjoint h)
  simp only [TradeOrderBox.ledger, Option.bind_eq_some_iff] at h
  obtain ⟨p, hp, ho⟩ := h
  simp [queryOrder, hc, hp, Heap.deref_of_live ho, bind, Except.bind, pure, Except.pure]

/-- A query for any other id is answered from its fills, unless their sum is zero. -/
theorem queryOrder_filled {b : TradeOrderBox} (hb : b.Rep) {order : Order}
    (hc : b.ledger.canceled order.clientOrderId = none)
    (hw : b.ledger.working order.clientOrderId = none) :
    ∃ res, b.queryOrder order = .ok res ∧
      (if b.filledTotal order.clientOrderId % 2 ^ 64 = 0 then res = { order with status := .rejected }
       else res.status = .filled ∧
        res.filledQuantity.toNat = b.filledTotal order.clientOrderId % 2 ^ 64) := by
  have hsum := toNat_foldl_add (b.fillsOf order.clientOrderId) 0
  rw [UInt64.toNat_zero, Nat.zero_add] at hsum
  simp only [queryOrder, hb.canceled_none hc, hb.working_none hw]
  generalize (b.fillsOf order.clientOrderId).foldl (fun n f => n + f.fillQuantity) 0 = filled at hsum ⊢
  change filled.toNat = b.filledTotal order.clientOrderId % 2 ^ 64 at hsum
  cases hf : b.fillsOf order.clientOrderId with
  | nil =>
    -- no fill was recorded
    have h0 : b.filledTotal order.clientOrderId = 0 := by simp [filledTotal, hf]
    exact ⟨_, rfl, by simp [h0]⟩
  | cons f fills =>
    by_cases h0 : filled = 0
    · -- the sum has wrapped around to zero, which reads as if there were no fill
      rw [h0, UInt64.toNat_zero] at hsum
      refine ⟨{ order with status := .rejected }, by simp [h0, pure, Except.pure], ?_⟩
      rw [if_pos hsum.symm]
    · have hne : b.filledTotal order.clientOrderId % 2 ^ 64 ≠ 0 := by
        rw [← hsum]
        exact fun h => h0 (UInt64.toNat_inj.mp h)
      refine ⟨_, by simp only [bne_iff_ne, ne_eq, h0, not_false_eq_true, if_true]; rfl, ?_⟩
      rw [if_neg hne]
      exact ⟨rfl, hsum⟩

end TradeOrderBox

end FixHandler.Trade
