import Mathlib
import FixHandler.ForStd.List
import FixHandler.Native.Trade.Expiry
import FixHandler.Spec.Trade.Answers
import FixHandler.Spec.Trade.BoxInvariant

/-!
# Which orders expire

What `deleteExpiredOrder` does to a ledger is a run of cancellations, one for each working order
that is picked, and a change of the published book for each of them. An order is picked by the date
of what is found in a variable that nothing is assigned to, so that the orders of an earlier day are
deleted only where these dates happen to say the same as the current one.

## Key results

- `Ledger.exec_cancels_working`, `Ledger.exec_cancels_queue`: a run of cancellations
- `TradeOrderBox.deleteExpiredOrder_spec`: one box
- `TradeSimulater.expireAll_spec`: the loop over the contracts
- `TradeSimulater.picks_stale_iff`: which values in the variable pick the orders of an earlier day
- `TradeSimulater.expires_iff`: when the orders of an earlier day are those that expire
- `TradeSimulater.findsToday_of_clock`: they would be if the clock were read
-/

namespace FixHandler.Trade

open Cxx (Exception Heap Ptr)
open Ems (Order)
open TradeOrderBox (Found)

/-- An order that has been cancelled -/
def cancelled (w : Order) : Order := { w with status := .cancelled }

namespace Ledger

/-- Working orders of different ids can be cancelled one after the other. -/
theorem runs_cancels {b : Ledger} {ws : List Order} (hnd : (ws.map (·.clientOrderId)).Nodup)
    (hws : ∀ w ∈ ws, b.working w.clientOrderId = some w) :
    machine.Runs b (ws.map .cancel) := by
  induction ws generalizing b with
  | nil => trivial
  | cons w ws ih =>
    rw [List.map_cons, List.nodup_cons] at hnd
    refine ⟨hws w List.mem_cons_self, ih hnd.2 fun v hv => ?_⟩
    have hne : v.clientOrderId ≠ w.clientOrderId := fun heq =>
      hnd.1 (List.mem_map.mpr ⟨v, hv, heq⟩)
    show (b.remove w).working v.clientOrderId = some v
    rw [remove_working, if_neg hne]
    exact hws v (List.mem_cons_of_mem _ hv)

/-- What is cancelled works no longer, and everything else does. -/
theorem exec_cancels_working (b : Ledger) (ws : List Order) (id : String) :
    (machine.exec b (ws.map .cancel)).working id =
      if id ∈ ws.map (·.clientOrderId) then none else b.working id := by
  induction ws generalizing b with
  | nil => rfl
  | cons w ws ih =>
    have hstep : (b.apply (.cancel w)).working id =
        if id = w.clientOrderId then none else b.working id := b.remove_working w id
    rw [List.map_cons, Guarded.exec_cons, ih, machine_apply, hstep, List.map_cons]
    by_cases hw : id = w.clientOrderId
    · simp [hw]
    · simp [hw]

/-- What is cancelled leaves its queue, and the others keep their places. -/
theorem exec_cancels_queue {b : Ledger} (hb : b.WF) {ws : List Order}
    (hr : machine.Runs b (ws.map .cancel)) (cp : ComparablePrice) :
    (machine.exec b (ws.map .cancel)).queue cp =
      (b.queue cp).filter fun id => id ∉ ws.map (·.clientOrderId) := by
  induction ws generalizing b with
  | nil => simp
  | cons w ws ih =>
    have hw : b.working w.clientOrderId = some w := hr.1
    -- the order is queued at its own price only
    have hstep : (b.apply (.cancel w)).queue cp = (b.queue cp).filter (· != w.clientOrderId) := by
      show (b.remove w).queue cp = _
      rw [remove_queue]
      split
      · rfl
      · next hcp =>
        refine (List.filter_eq_self.mpr fun id hid => ?_).symm
        rw [bne_iff_ne]
        rintro rfl
        obtain ⟨o, ho, rfl⟩ := hb.queued.mp hid
        rw [hw] at ho
        cases ho
        exact hcp rfl
    have hguard : b.guard (.cancel w) := hw
    rw [List.map_cons, Guarded.exec_cons, machine_apply, ih (hb.apply hguard) hr.2, hstep,
      List.filter_filter]
    apply List.filter_congr
    intro id _
    rw [List.map_cons]
    by_cases hid : id = w.clientOrderId
    · simp [hid]
    · simp only [List.mem_cons, hid, false_or, bne_iff_ne, ne_eq, not_false_eq_true,
        Bool.and_eq_left_iff_imp, implies_true]

/-- The cancelled orders are recorded under their ids. -/
theorem exec_cancels_canceled {b : Ledger} {ws : List Order}
    (hnd : (ws.map (·.clientOrderId)).Nodup) (id : String) :
    (machine.exec b (ws.map .cancel)).canceled id =
      ((ws.find? (·.clientOrderId == id)).map cancelled).or (b.canceled id) := by
  induction ws generalizing b with
  | nil => rfl
  | cons w ws ih =>
    rw [List.map_cons, List.nodup_cons] at hnd
    have hstep : (b.apply (.cancel w)).canceled id =
        if id = w.clientOrderId then some (cancelled w) else b.canceled id := by
      simp [apply, Function.update_apply, cancelled]
    rw [List.map_cons, Guarded.exec_cons, ih hnd.2, machine_apply, hstep, List.find?_cons]
    by_cases hw : id = w.clientOrderId
    · subst hw
      -- each id is cancelled once
      have hnone : ws.find? (·.clientOrderId == w.clientOrderId) = none := by
        rw [List.find?_eq_none]
        intro v hv heq
        rw [beq_iff_eq] at heq
        exact hnd.1 (List.mem_map.mpr ⟨v, hv, heq⟩)
      simp [hnone]
    · have hne : (w.clientOrderId == id) = false := beq_eq_false_iff_ne.mpr (Ne.symm hw)
      rw [if_neg hw, hne]

/-- Cancelling fills nothing. -/
@[simp] theorem exec_cancels_fills (b : Ledger) (ws : List Order) :
    (machine.exec b (ws.map .cancel)).fills = b.fills := by
  induction ws generalizing b with
  | nil => rfl
  | cons w ws ih => exact ih _

end Ledger

namespace TradeOrderBox

/-! ## One box -/

/-- Moving an order to the cancelled ones cancels it, and no other memory changes. -/
theorem expireOrder_spec {b : TradeOrderBox} (hb : b.WF) {p : Ptr} {w : Order} (h : b.Holds p w) :
    ∃ b', b.expireOrder p = .ok b' ∧ b'.WF ∧ b'.ledger = b.ledger.apply (.cancel w) ∧
      b'.heap.cells p = some (cancelled w) ∧ (∀ p' ≠ p, b'.heap.cells p' = b.heap.cells p') ∧
      ∀ p' w', p' ≠ p → b.Holds p' w' → b'.Holds p' w' := by
  have hs : Sound w := (hb.ledger.working h.ledger).toSound
  have hfree := h.not_refers_unlinked hb.toRep
  have hcell : (b.heap.modify p fun o => { o with status := .cancelled }).cells p =
      some (cancelled w) := by simp [h.2, cancelled]
  -- nothing of the box leads to the cell that is changed
  have hheap := (hb.toRep.unlinked h).heap_congr
    (h := b.heap.modify p fun o => { o with status := .cancelled }) (by
      intro p' hp'
      have : p' ≠ p := by rintro rfl; exact hfree hp'
      simp [this])
  have hins := hheap.1.insertCanceled (o := cancelled w) hcell
    (by show (b.unlinked w p).workingOrders[w.clientOrderId]? = none
        simp [unlinked_workingOrders])
    (hb.disjoint h.1)
  have hledger := hins.2.trans (by rw [hheap.2, hb.toRep.ledger_unlinked h]; rfl :
    _ = b.ledger.apply (.cancel w))
  have hguard : b.ledger.guard (.cancel w) := h.ledger
  refine ⟨_, ?_, ⟨hins.1, hledger ▸ hb.ledger.apply hguard⟩, hledger, hcell, ?_, ?_⟩
  · simp only [expireOrder, Heap.deref_of_live h.2, removeWorkingOrder_eq h hs, bind, Except.bind,
      pure, Except.pure]
    rfl
  · intro p' hne
    simp [hne]
  · intro p' w' hne h'
    refine ⟨?_, by simp [hne, h'.2]⟩
    show (b.unlinked w p).workingOrders[w'.clientOrderId]? = some p'
    -- the other orders keep their entries, as their ids differ
    rw [unlinked_workingOrders, if_neg, h'.1]
    intro heq
    have := h'.1
    rw [heq, h.1] at this
    exact hne (Option.some.inj this).symm

/-- Moving several orders. -/
theorem expireOrders_spec {b : TradeOrderBox} (hb : b.WF) {ps : List (Ptr × Order)}
    (hnd : (ps.map Prod.fst).Nodup) (hps : ∀ pw ∈ ps, b.Holds pw.1 pw.2) :
    ∃ b', (ps.map Prod.fst).foldlM expireOrder b = .ok b' ∧ b'.WF ∧
      b'.ledger = Ledger.machine.exec b.ledger ((ps.map Prod.snd).map .cancel) ∧
      (∀ pw ∈ ps, b'.heap.cells pw.1 = some (cancelled pw.2)) ∧
      ∀ p ∉ ps.map Prod.fst, b'.heap.cells p = b.heap.cells p := by
  induction ps generalizing b with
  | nil => exact ⟨b, rfl, hb, rfl, by simp, by simp⟩
  | cons pw ps ih =>
    obtain ⟨p, w⟩ := pw
    rw [List.map_cons, List.nodup_cons] at hnd
    obtain ⟨b₁, hrun₁, hb₁, hledger₁, hcell₁, hother₁, hkeep₁⟩ :=
      expireOrder_spec hb (hps (p, w) List.mem_cons_self)
    -- the pointers differ, so that the later orders are as they were
    have hne : ∀ pw ∈ ps, pw.1 ≠ p := fun pw hpw heq =>
      hnd.1 (List.mem_map.mpr ⟨pw, hpw, heq⟩)
    obtain ⟨b', hrun, hb', hledger, hcells, hother⟩ := ih hb₁ hnd.2 fun pw hpw =>
      hkeep₁ pw.1 pw.2 (hne pw hpw) (hps pw (List.mem_cons_of_mem _ hpw))
    refine ⟨b', ?_, hb', ?_, ?_, ?_⟩
    · rw [List.map_cons, List.foldlM_cons, hrun₁]
      exact hrun
    · rw [hledger, hledger₁]
      rfl
    · intro pw hpw
      rcases List.mem_cons.mp hpw with rfl | hpw
      · rw [hother p hnd.1, hcell₁]
      · exact hcells pw hpw
    · intro p' hp'
      rw [List.map_cons, List.mem_cons, not_or] at hp'
      rw [hother p' hp'.2, hother₁ p' hp'.1]

/-- The working orders in the order of their ids, with the pointers to them -/
def held (b : TradeOrderBox) : List (Ptr × Order) :=
  b.workingOrders.toList.filterMap fun kv => (b.heap.cells kv.2).map (kv.2, ·)

/-- Those of a kind -/
def heldWhere (b : TradeOrderBox) (P : Order → Bool) : List (Ptr × Order) :=
  b.held.filter fun h => P h.2

/-- The entry of a working order -/
def entry (h : Ptr × Order) : String × Ptr := (h.2.clientOrderId, h.1)

/-- The orders of the held pointers are those that work. -/
theorem map_snd_heldWhere (b : TradeOrderBox) (P : Order → Bool) :
    (b.heldWhere P).map Prod.snd = b.workingWhere P := by
  unfold heldWhere held workingWhere
  rw [List.filter_filterMap, List.map_filterMap]
  congr 1
  funext kv
  cases b.heap.cells kv.2 with
  | none => rfl
  | some o =>
    simp only [Option.map_some, Option.filter_some]
    cases P o <;> rfl

/-- A held pointer leads to its order. -/
theorem holds_of_mem_held {b : TradeOrderBox} (hb : b.Rep) {h : Ptr × Order} (hh : h ∈ b.held) :
    b.Holds h.1 h.2 := by
  obtain ⟨kv, hkv, hpair⟩ := List.mem_filterMap.mp hh
  obtain ⟨o, ho, rfl⟩ := Option.map_eq_some_iff.mp hpair
  have hmem : b.workingOrders[kv.1]? = some kv.2 :=
    Std.TreeMap.mem_toList_iff_getElem?_eq_some.mp hkv
  obtain ⟨o', ho', hid⟩ := hb.working hmem
  rw [ho] at ho'
  cases ho'
  exact ⟨by rw [hid]; exact hmem, ho⟩

/-- So does one that a predicate picks. -/
theorem holds_of_mem_heldWhere {b : TradeOrderBox} (hb : b.Rep) {P : Order → Bool}
    {h : Ptr × Order} (hh : h ∈ b.heldWhere P) : b.Holds h.1 h.2 :=
  holds_of_mem_held hb (List.mem_of_mem_filter hh)

/-- A pointer is held once. -/
theorem nodup_held {b : TradeOrderBox} (hb : b.Rep) : (b.held.map Prod.fst).Nodup := by
  have hids : (b.held.map fun h => h.2.clientOrderId).Nodup := by
    have := nodup_workingWhere hb fun _ => true
    rwa [← map_snd_heldWhere, heldWhere, List.filter_true, List.map_map] at this
  refine List.Nodup.map_on ?_ hids.of_map
  intro h hh h' hh' heq
  -- a pointer leads to one order
  have hw := (holds_of_mem_held hb hh).2
  rw [heq, (holds_of_mem_held hb hh').2] at hw
  exact Prod.ext heq (Option.some.inj hw).symm

/-- A pointer is picked once. -/
theorem nodup_heldWhere {b : TradeOrderBox} (hb : b.Rep) (P : Order → Bool) :
    ((b.heldWhere P).map Prod.fst).Nodup :=
  (nodup_held hb).sublist (List.filter_sublist.map _)

/-- The map of the working orders, entry by entry -/
theorem map_entry_held {b : TradeOrderBox} (hb : b.Rep) :
    b.held.map entry = b.workingOrders.toList := by
  unfold held
  rw [List.map_filterMap]
  have hentry : ∀ kv ∈ b.workingOrders.toList,
      ((b.heap.cells kv.2).map (kv.2, ·)).map entry = some kv := by
    intro kv hkv
    obtain ⟨o, ho, hid⟩ := hb.working (Std.TreeMap.mem_toList_iff_getElem?_eq_some.mp hkv)
    rw [ho, Option.map_some, Option.map_some, entry, hid]
  rw [List.filterMap_congr hentry, List.filterMap_some]

/-! ## The ways through the orders -/

section

variable {heap : Heap Order} {now : String → Int64} {hs : List (Ptr × Order)}

/-- Where every test has a result, the orders are picked by it. -/
theorem filteredOrders_eq {P : Order → Bool} (hcells : ∀ h ∈ hs, heap.cells h.1 = some h.2)
    (htest : ∀ h ∈ hs, isExpired (now h.2.clientOrderId) h.2 = .ok (P h.2)) :
    filteredOrders heap now (hs.map entry) = .ok ((hs.filter fun h => P h.2).map Prod.fst) := by
  induction hs with
  | nil => rfl
  | cons h hs ih =>
    have hrest := ih (fun h' hh' => hcells h' (List.mem_cons_of_mem _ hh'))
      fun h' hh' => htest h' (List.mem_cons_of_mem _ hh')
    have hP := htest h List.mem_cons_self
    simp only [List.map_cons, entry, filteredOrders,
      Heap.deref_of_live (hcells h List.mem_cons_self), Except.ok_bind, hP, hrest,
      List.filter_cons]
    cases P h.2 <;> rfl

/-- If the way is gone through, every test had a result. -/
theorem isExpired_of_filteredOrders {ps : List Ptr}
    (hcells : ∀ h ∈ hs, heap.cells h.1 = some h.2)
    (hrun : filteredOrders heap now (hs.map entry) = .ok ps) :
    ∀ h ∈ hs, ∃ v, isExpired (now h.2.clientOrderId) h.2 = .ok v := by
  induction hs generalizing ps with
  | nil => exact fun _ hh => absurd hh List.not_mem_nil
  | cons h hs ih =>
    unfold List.map filteredOrders at hrun
    obtain ⟨o, ho, hrun⟩ := Except.bind_eq_ok.mp hrun
    obtain ⟨v, hv, hrun⟩ := Except.bind_eq_ok.mp hrun
    obtain ⟨rest, hrest, -⟩ := Except.bind_eq_ok.mp hrun
    rw [entry, Heap.deref_of_live (hcells h List.mem_cons_self)] at ho
    cases ho
    intro h' hh'
    cases List.mem_cons.mp hh' with
    | inl heq => exact ⟨v, heq ▸ hv⟩
    | inr hh' => exact ih (fun h hh => hcells h (List.mem_cons_of_mem _ hh)) hrest h' hh'

/-- What a pass picks are some of the entries, in their order. -/
theorem sublist_filteredOrders {orders : List (String × Ptr)} {ps : List Ptr}
    (hrun : filteredOrders heap now orders = .ok ps) : ps.Sublist (orders.map Prod.snd) := by
  induction orders generalizing ps with
  | nil =>
    cases hrun
    exact .slnil
  | cons kv orders ih =>
    unfold filteredOrders at hrun
    obtain ⟨o, -, hrun⟩ := Except.bind_eq_ok.mp hrun
    obtain ⟨v, -, hrun⟩ := Except.bind_eq_ok.mp hrun
    obtain ⟨rest, hrest, hrun⟩ := Except.bind_eq_ok.mp hrun
    cases v with
    | true =>
      -- the order is found
      cases hrun
      exact (ih hrest).cons_cons _
    | false =>
      -- it is passed over
      cases hrun
      exact (ih hrest).cons _

/-- The first position of the filtered range is a place in the range. -/
theorem suffix_filteredBegin {orders rest : List (String × Ptr)}
    (hrun : filteredBegin heap now orders = .ok rest) : rest <:+ orders := by
  induction orders with
  | nil =>
    cases hrun
    exact List.suffix_refl _
  | cons kv orders ih =>
    unfold filteredBegin at hrun
    obtain ⟨o, -, hrun⟩ := Except.bind_eq_ok.mp hrun
    obtain ⟨v, -, hrun⟩ := Except.bind_eq_ok.mp hrun
    cases v with
    | true =>
      cases hrun
      exact List.suffix_refl _
    | false => exact (ih hrun).trans (List.suffix_cons _ _)

/-- What is picked is among the orders, in their order. -/
theorem sublist_expiredOrders {now : Found} {orders : List (String × Ptr)} {ps : List Ptr}
    (hrun : expiredOrders heap now orders = .ok ps) : ps.Sublist (orders.map Prod.snd) := by
  obtain ⟨rest, hbegin, hrun⟩ := Except.bind_eq_ok.mp hrun
  have hsuffix := (suffix_filteredBegin hbegin).sublist.map Prod.snd
  cases rest with
  | nil =>
    cases hrun
    exact List.nil_sublist _
  | cons kv rest =>
    obtain ⟨counted, -, hrun⟩ := Except.bind_eq_ok.mp hrun
    obtain ⟨copied, hcopied, hrun⟩ := Except.bind_eq_ok.mp hrun
    split at hrun
    · cases hrun
    · cases hrun
      exact ((sublist_filteredOrders hcopied).cons_cons _).trans hsuffix

end

/-- The orders of the kind `P` are picked. -/
def Picks (b : TradeOrderBox) (now : Found) (P : Order → Bool) : Prop :=
  expiredOrders b.heap now b.workingOrders.toList = .ok ((b.heldWhere P).map Prod.fst)

theorem deleteExpiredOrder_spec {b : TradeOrderBox} (hb : b.WF) {now : Found}
    {P : Order → Bool} (hpicks : b.Picks now P) :
    ∃ b' ps, b.deleteExpiredOrder now = .ok (b', ps) ∧ b'.WF ∧
      b'.ledger = Ledger.machine.exec b.ledger ((b.workingWhere P).map .cancel) ∧
      ps.mapM b'.heap.deref = .ok ((b.workingWhere P).map cancelled) := by
  obtain ⟨b', hrun, hb', hledger, hcells, -⟩ := expireOrders_spec hb
    (nodup_heldWhere hb.toRep P) fun pw hpw => holds_of_mem_heldWhere hb.toRep hpw
  refine ⟨b', (b.heldWhere P).map Prod.fst, ?_, hb', ?_, ?_⟩
  · unfold deleteExpiredOrder
    rw [hpicks]
    show (do return (← ((b.heldWhere P).map Prod.fst).foldlM expireOrder b,
      (b.heldWhere P).map Prod.fst)) = _
    rw [hrun]
    rfl
  · rw [hledger, map_snd_heldWhere]
  · rw [← map_snd_heldWhere]
    -- the cancelled orders can still be read, as they are kept in the box
    generalize b.heldWhere P = ps at hcells
    induction ps with
    | nil => rfl
    | cons pw ps ih =>
      have hfirst := Heap.deref_of_live (hcells pw List.mem_cons_self)
      have hrest := ih fun pw hpw => hcells pw (List.mem_cons_of_mem _ hpw)
      rw [List.map_cons, List.mapM_cons, hfirst, Except.ok_bind, hrest]
      rfl

/-- The orders that are picked, as a kind -/
def picked (b : TradeOrderBox) (now : Found) (o : Order) : Bool :=
  match expiredOrders b.heap now b.workingOrders.toList with
  | .ok ps => ps.any fun p => b.heap.cells p == some o
  | .error _ => false

/-- If a box gets through, some of its orders were picked. -/
theorem picks_of_deleteExpiredOrder {b : TradeOrderBox} (hb : b.Rep) {now : Found}
    {res : TradeOrderBox × List Ptr} (h : b.deleteExpiredOrder now = .ok res) :
    b.Picks now (b.picked now) := by
  obtain ⟨ps, hpick, -⟩ := Except.bind_eq_ok.mp h
  unfold Picks
  rw [hpick, Except.ok.injEq]
  have hsub := sublist_expiredOrders hpick
  rw [← map_entry_held hb, List.map_map] at hsub
  have hsub : ps.Sublist (b.held.map Prod.fst) := hsub
  -- what is picked are the pointers of which the kind is made
  have hkind : ∀ h ∈ b.held, b.picked now h.2 = decide (h.1 ∈ ps) := by
    intro h hh
    have hh := holds_of_mem_held hb hh
    rw [Bool.eq_iff_iff, decide_eq_true_iff, picked, hpick]
    simp only [List.any_eq_true, beq_iff_eq]
    constructor
    · rintro ⟨p, hp, hcell⟩
      obtain ⟨h', hh', rfl⟩ := List.mem_map.mp (hsub.subset hp)
      have hh' := holds_of_mem_held hb hh'
      rw [hh'.2, Option.some.injEq] at hcell
      have hentry := hh'.1
      rw [hcell, hh.1] at hentry
      exact Option.some.inj hentry ▸ hp
    · exact fun hp => ⟨h.1, hp, hh.2⟩
  have hfilter : b.heldWhere (b.picked now) = b.held.filter fun h => decide (h.1 ∈ ps) :=
    List.filter_congr hkind
  rw [hfilter]
  calc ps = (b.held.map Prod.fst).filter fun p => decide (p ∈ ps) :=
        (hsub.filter_mem (nodup_held hb)).symm
    _ = _ := List.filter_map

end TradeOrderBox

/-- What a published book shows fits 64 bits. -/
theorem TradeMarketState.Agrees.fits {m : TradeMarketState} {b : Ledger} (h : m.Agrees b) :
    b.Fits := by
  intro cp hcp
  have hget := h cp
  unfold Ledger.published at hget
  by_cases h0 : b.total cp = 0
  · omega
  · rw [if_neg (not_or.mpr ⟨hcp, h0⟩)] at hget
    obtain ⟨size, -, hsize⟩ := Option.map_eq_some_iff.mp hget
    rw [← hsize]
    exact size.toNat_lt

namespace TradeSimulater

/-! ## The loop over the contracts -/

/-- The orders reported so far -/
def sentOrders (s : TradeSimulater) : List Order := s.events.filterMap Event.order?

/-- The report of an order that expired -/
def expiredReport (w : Order) : Order := makeCancelResponse (cancelled w) Message.orderExpired

/-- Publishing a book reports no order. -/
theorem orders_publishedBy (m : TradeMarketState) (code : Nat) :
    (publishedBy m code).filterMap Event.order? = [] := by
  refine List.filterMap_eq_nil_iff.mpr fun e he => ?_
  unfold publishedBy at he
  rcases List.mem_append.mp he with he | he
  · split at he
    · cases he
    · rw [List.mem_singleton.mp he]
      rfl
  · split at he
    · rcases mem_bestMessage he with rfl | ⟨_, rfl⟩ | ⟨_, rfl⟩ <;> rfl
    · cases he

/-- An expired order is reported, and taken off the published book. -/
theorem onOrderExpired_eq {s : TradeSimulater} (hl : s.marketManager.marketListener = true)
    {w : Order} {m m' : TradeMarketState} {n : Nat} (hm : s.market w.contract = some m)
    (hchange : m.onOrderDeleted w = .ok (m', n)) :
    ∃ s', onOrderExpired (cancelled w) s = .ok () s' ∧ Frame w.contract s s' ∧
      s'.box w.contract = s.box w.contract ∧ s'.market w.contract = some m' ∧
      s'.sentOrders = s.sentOrders ++ [expiredReport w] := by
  have hsent : (s.sent [.onOrder (expiredReport w)]).market w.contract = some m := hm
  have hrun := changeMarket_of_ok (s := s.sent [.onOrder (expiredReport w)]) hl hsent
    (·.onOrderDeleted (cancelled w)) hchange
  refine ⟨_, hrun, ⟨rfl, rfl, rfl, rfl, fun _ _ => rfl, fun c' hc => ?_⟩, rfl, ?_, ?_⟩
  · show ((s.sent _).withMarket w.contract m').market c' = s.market c'
    rw [market_withMarket, if_neg hc]
    rfl
  · show ((s.sent _).withMarket w.contract m').market w.contract = some m'
    rw [market_withMarket, if_pos rfl]
  · show ((s.events ++ [Event.onOrder (expiredReport w)]) ++ publishedBy m' n).filterMap
      Event.order? = _
    -- the book that is published is no report
    rw [List.filterMap_append, List.filterMap_append, orders_publishedBy, List.append_nil]
    rfl

/-- Several orders of a contract. -/
theorem forM_onOrderExpired {s : TradeSimulater} (hl : s.marketManager.marketListener = true)
    {c : String} {ws : List Order} (hc : ∀ w ∈ ws, w.contract = c) {m m' : TradeMarketState}
    (hm : s.market c = some m) (hrun : marketRun m (ws.map .cancel) = .ok m') :
    ∃ s', (ws.map cancelled).forM onOrderExpired s = .ok () s' ∧ Frame c s s' ∧
      s'.box c = s.box c ∧ s'.market c = some m' ∧
      s'.sentOrders = s.sentOrders ++ ws.map expiredReport := by
  induction ws generalizing s m with
  | nil =>
    cases hrun
    exact ⟨s, rfl, .refl c s, rfl, hm, (List.append_nil _).symm⟩
  | cons w ws ih =>
    have hcw := hc w List.mem_cons_self
    subst hcw
    rw [List.map_cons] at hrun
    unfold marketRun at hrun
    cases hchange : (Act.cancel w).market m with
    | error e =>
      rw [hchange] at hrun
      cases hrun
    | ok res =>
      rw [hchange] at hrun
      obtain ⟨m₁, n⟩ := res
      obtain ⟨s₁, hrun₁, hframe₁, hbox₁, hm₁, horders₁⟩ := onOrderExpired_eq hl hm hchange
      -- the later orders find the published book as this one left it
      obtain ⟨s', hrun', hframe, hbox, hm', horders⟩ := ih (s := s₁)
        (hframe₁.marketListener.trans hl) (fun v hv => hc v (List.mem_cons_of_mem _ hv)) hm₁ hrun
      refine ⟨s', ?_, hframe₁.trans hframe, hbox.trans hbox₁, hm', ?_⟩
      · exact (EStateM.bind_eq_of_ok hrun₁).trans hrun'
      · rw [horders, horders₁, List.append_assoc]
        rfl

/-- What one contract of the loop does. -/
theorem expireContract_spec {s : TradeSimulater} (hs : s.WF) (hagrees : s.Agrees) {c : String}
    {b : TradeOrderBox} (hb : s.box c = some b) {now : String → Found}
    {P : Order → Bool} (hpicks : b.Picks (now c) P) :
    ∃ s' b', expireContract now c s = .ok () s' ∧ s'.WF ∧ s'.Agrees ∧ s'.box c = some b' ∧
      b'.ledger = Ledger.machine.exec b.ledger ((b.workingWhere P).map .cancel) ∧
      (∀ c' ≠ c, s'.box c' = s.box c') ∧
      s'.sentOrders = s.sentOrders ++ (b.workingWhere P).map expiredReport := by
  have hwf := (hs.box hb).1
  obtain ⟨m, hm⟩ := hs.market_of_box hb
  obtain ⟨b', ps, hdelete, hwf', hledger, hderef⟩ :=
    TradeOrderBox.deleteExpiredOrder_spec hwf hpicks
  have hworking : ∀ w ∈ b.workingWhere P, b.ledger.working w.clientOrderId = some w :=
    fun w hw => ((TradeOrderBox.mem_workingWhere hwf.toRep).mp hw).1
  have hruns := Ledger.runs_cancels (TradeOrderBox.nodup_workingWhere hwf.toRep P) hworking
  -- the changes of the published book go along with the cancellations
  obtain ⟨m', hmarket, hagrees'⟩ := (hagrees c b m hb hm).marketRun hwf.ledger hruns (by
    intro a ha cp
    obtain ⟨w, -, rfl⟩ := List.mem_map.mp (List.dropLast_subset _ ha)
    rfl)
  have hcontract : ∀ w ∈ b.workingWhere P, w.contract = c := fun w hw =>
    (hwf.ledger.working (hworking w hw)).contract.trans (hs.box hb).2
  -- the box does its part before anything is reported
  have hop : s.orderManager.deleteExpiredOrder c (now c) =
      .ok (s.orderManager.setBox c b', (b.workingWhere P).map cancelled) := by
    unfold TradeOrderManager.deleteExpiredOrder
    rw [orderBox_eq hb, Except.ok_bind, hdelete, Except.ok_bind]
    simp only [hderef]
    rfl
  obtain ⟨s', hrun, hframe, hbox, hm', horders⟩ := forM_onOrderExpired (s := s.withBox c b')
    hs.listening hcontract hm hmarket
  have hbox' : s'.box c = some b' := by rw [hbox, box_withBox, if_pos rfl]
  have hother : ∀ c' ≠ c, s'.box c' = s.box c' := fun c' hc' => by
    rw [hframe.box c' hc', box_withBox, if_neg hc']
  have hfirst : Frame c s (s.withBox c b') :=
    ⟨rfl, rfl, rfl, rfl, fun c' hc' => by rw [box_withBox, if_neg hc'], fun _ _ => rfl⟩
  have hname : b'.ledger.contract = b.ledger.contract := by rw [hledger, Ledger.exec_contract]
  refine ⟨s', b', ?_, ?_, ?_, hbox', hledger, hother, horders⟩
  · unfold expireContract
    rw [EStateM.bind_eq_of_ok (withOrders_eq hop)]
    exact hrun
  · exact (hfirst.trans hframe).wf hs (by rw [hb]; rfl) hbox' ⟨hwf', hname.trans (hs.box hb).2⟩
      (by rw [hm']; rfl)
  · intro c' b₁ m₁ hb₁ hm₁
    by_cases hc' : c' = c
    · subst hc'
      rw [hbox'] at hb₁
      rw [hm'] at hm₁
      cases hb₁
      cases hm₁
      rw [hledger]
      refine hagrees' fun cp hcp => ?_
      -- cancelling adds nothing, so that the quantities still fit
      have hle := Ledger.total_exec_le hwf.ledger hruns cp
      have hzero : (((b.workingWhere P).map Act.cancel).map (Ledger.added cp)).sum = 0 := by
        rw [List.map_map]
        exact List.sum_eq_zero (by simp [Ledger.added])
      have := (hagrees c' b m hb hm).fits cp hcp
      omega
    · -- the other contracts agree as before
      rw [hother c' hc'] at hb₁
      rw [hframe.market c' hc', market_withBox] at hm₁
      exact hagrees c' b₁ m₁ hb₁ hm₁

/-- If a contract gets through the loop, some of its orders were picked. -/
theorem picks_of_expireContract {s s' : TradeSimulater} (hs : s.WF) {c : String}
    {b : TradeOrderBox} (hb : s.box c = some b) {now : String → Found}
    (h : expireContract now c s = .ok () s') : b.Picks (now c) (b.picked (now c)) := by
  obtain ⟨deleted, s₁, hwith, -⟩ := EStateM.bind_eq_ok.mp h
  obtain ⟨om, hop⟩ := withOrders_ok hwith
  obtain ⟨b₁, hb₁, hop⟩ := Except.bind_eq_ok.mp hop
  rw [orderBox_eq hb] at hb₁
  cases hb₁
  obtain ⟨res, hdelete, -⟩ := Except.bind_eq_ok.mp hop
  exact TradeOrderBox.picks_of_deleteExpiredOrder (hs.box hb).1.toRep hdelete

/-- From `s` to `s'` the orders of the kinds `P` of some contracts expired. -/
structure Expired (P : String → Order → Bool) (cs : List String) (s s' : TradeSimulater) :
    Prop where
  wf : s'.WF
  agrees : s'.Agrees
  inside : ∀ c ∈ cs, ∀ b, s.box c = some b → ∃ b', s'.box c = some b' ∧
    b'.ledger = Ledger.machine.exec b.ledger ((b.workingWhere (P c)).map .cancel)
  outside : ∀ c ∉ cs, s'.box c = s.box c
  orders : s'.sentOrders = s.sentOrders ++
    (cs.flatMap fun c => (s.box c).elim [] (·.workingWhere (P c))).map expiredReport

/-- The loop over different contracts, whose orders of the kinds `P` are picked. -/
theorem expireAll_spec {P : String → Order → Bool} {now : String → Found}
    {cs : List String} (hnd : cs.Nodup) {s : TradeSimulater} (hs : s.WF) (hagrees : s.Agrees)
    (hcs : ∀ c ∈ cs, ∃ b, s.box c = some b ∧ b.Picks (now c) (P c)) :
    ∃ s', cs.forM (expireContract now) s = .ok () s' ∧ Expired P cs s s' := by
  induction cs generalizing s with
  | nil =>
    exact ⟨s, rfl, hs, hagrees, fun _ h => (nomatch h), fun _ _ => rfl, (List.append_nil _).symm⟩
  | cons c cs ih =>
    rw [List.nodup_cons] at hnd
    obtain ⟨b, hb, hpicks⟩ := hcs c List.mem_cons_self
    obtain ⟨s₁, b₁, hrun₁, hs₁, hagrees₁, hb₁, hledger₁, hother₁, horders₁⟩ :=
      expireContract_spec hs hagrees hb hpicks
    have hne : ∀ c' ∈ cs, c' ≠ c := fun c' hc' heq => hnd.1 (heq ▸ hc')
    obtain ⟨s', hrun, h⟩ := ih hnd.2 hs₁ hagrees₁ fun c' hc' => by
      rw [hother₁ c' (hne c' hc')]
      exact hcs c' (List.mem_cons_of_mem _ hc')
    refine ⟨s', (EStateM.bind_eq_of_ok hrun₁).trans hrun, h.wf, h.agrees, ?_, ?_, ?_⟩
    · intro c' hc' b' hb'
      -- the contracts behind leave this one as its own turn left it
      rcases List.mem_cons.mp hc' with rfl | hc'
      · rw [hb] at hb'
        cases hb'
        exact ⟨b₁, by rw [h.outside c' hnd.1, hb₁], hledger₁⟩
      · rw [← hother₁ c' (hne c' hc')] at hb'
        exact h.inside c' hc' b' hb'
    · intro c' hc'
      rw [List.mem_cons, not_or] at hc'
      rw [h.outside c' hc'.2, hother₁ c' hc'.1]
    · have hboxes : (cs.flatMap fun c => (s₁.box c).elim [] (·.workingWhere (P c))) =
          cs.flatMap fun c => (s.box c).elim [] (·.workingWhere (P c)) :=
        List.flatMap_congr fun c' hc' => by rw [hother₁ c' (hne c' hc')]
      rw [h.orders, horders₁, hboxes, List.flatMap_cons, hb, List.append_assoc, List.map_append]
      rfl

/-- The orders of a contract that are picked, as a kind -/
def picked (s : TradeSimulater) (now : String → Found) (c : String) (o : Order) : Bool :=
  (s.box c).elim false (·.picked (now c) o)

/-- If the loop gets through, some orders of each contract were picked. -/
theorem picks_of_expireAll {now : String → Found} {cs : List String} (hnd : cs.Nodup)
    {s s' : TradeSimulater} (hs : s.WF) (hagrees : s.Agrees) (hcs : ∀ c ∈ cs, (s.box c).isSome)
    (h : cs.forM (expireContract now) s = .ok () s') :
    ∀ c ∈ cs, ∃ b, s.box c = some b ∧ b.Picks (now c) (s.picked now c) := by
  induction cs generalizing s with
  | nil => exact fun _ h => absurd h List.not_mem_nil
  | cons c cs ih =>
    rw [List.nodup_cons] at hnd
    obtain ⟨b, hb⟩ := Option.isSome_iff_exists.mp (hcs c List.mem_cons_self)
    obtain ⟨_, s₁, hrun₁, hrun⟩ := EStateM.bind_eq_ok.mp h
    have hpicks := picks_of_expireContract hs hb hrun₁
    obtain ⟨s₂, b₂, hrun₂, hs₂, hagrees₂, -, -, hother₂, -⟩ :=
      expireContract_spec hs hagrees hb hpicks
    rw [hrun₁] at hrun₂
    cases hrun₂
    -- the box of a later contract is not touched by this step
    have hne : ∀ c' ∈ cs, c' ≠ c := fun c' hc' heq => hnd.1 (heq ▸ hc')
    intro c' hc'
    cases List.mem_cons.mp hc' with
    | inl heq =>
      subst heq
      refine ⟨b, hb, ?_⟩
      unfold picked
      rw [hb]
      exact hpicks
    | inr hc' =>
      have hrest := ih hnd.2 hs₂ hagrees₂ (fun c' hc' => by
        rw [hother₂ c' (hne c' hc')]
        exact hcs c' (List.mem_cons_of_mem _ hc')) hrun c' hc'
      unfold picked at hrest ⊢
      rwa [hother₂ c' (hne c' hc')] at hrest

/-! ## The orders of an earlier day -/

/-- A date is before another. -/
def Before (d d' : Ems.Date) : Prop :=
  d.year < d'.year ∨ d.year = d'.year ∧
    (d.month < d'.month ∨ d.month = d'.month ∧ d.day < d'.day)

instance (d d' : Ems.Date) : Decidable (Before d d') := by
  unfold Before
  infer_instance

/-- A day order of an earlier day -/
def stale (today : Ems.Date) (o : Order) : Bool :=
  o.tif == .gfd && decide (Before o.submitTime.date today)

/-- The stale working orders of all contracts -/
def staleOrders (s : TradeSimulater) (today : Ems.Date) : List Order :=
  s.orderManager.tradeOrders.keys.flatMap fun c =>
    (s.box c).elim [] (·.workingWhere (stale today))

/-- From `s` to `s'` exactly the stale orders are cancelled, each is reported once, everything else
    is as it was, and the books and the price lists agree with what works. -/
structure Expires (today : Ems.Date) (s s' : TradeSimulater) : Prop where
  contracts : ∀ c, (s'.box c).isSome = (s.box c).isSome
  working : ∀ c b b', s.box c = some b → s'.box c = some b' → ∀ id,
    b'.ledger.working id = (b.ledger.working id).filter (!stale today ·)
  canceled : ∀ c b b', s.box c = some b → s'.box c = some b' → ∀ id,
    b'.ledger.canceled id =
      (((b.ledger.working id).filter (stale today)).map cancelled).or (b.ledger.canceled id)
  queue : ∀ c b b', s.box c = some b → s'.box c = some b' → ∀ cp, b'.ledger.queue cp =
    (b.ledger.queue cp).filter fun id => ((b.ledger.working id).filter (stale today)).isNone
  fills : ∀ c b b', s.box c = some b → s'.box c = some b' → b'.filledOrders = b.filledOrders
  reported : ∃ reports, s'.sentOrders = s.sentOrders ++ reports ∧
    reports.Perm ((s.staleOrders today).map expiredReport)
  invariant : ∀ c b', s'.box c = some b' → BoxInvariant b'
  published : ∀ c b' m', s'.box c = some b' → s'.market c = some m' →
    ∀ cp : ComparablePrice, cp.price ≠ 0 →
      ((m'.get? cp).isSome ↔ b'.workingAt cp ≠ []) ∧
      ∀ size, m'.get? cp = some size → size.toNat = b'.workingTotal cp ∧ size ≠ 0

end TradeSimulater

namespace TradeOrderBox

/-- The working order of a kind that an id has -/
theorem find?_workingWhere {b : TradeOrderBox} (hb : b.WF) (P : Order → Bool) (id : String) :
    (b.workingWhere P).find? (·.clientOrderId == id) = (b.ledger.working id).filter P := by
  cases hfind : (b.workingWhere P).find? (·.clientOrderId == id) with
  | some o =>
    have hid : o.clientOrderId = id := by simpa using List.find?_some hfind
    obtain ⟨ho, hP⟩ := (mem_workingWhere hb.toRep).mp (List.mem_of_find?_eq_some hfind)
    rw [← hid, ho, Option.filter_some, if_pos hP]
  | none =>
    refine (Option.filter_eq_none_iff.mpr fun o ho hP => ?_).symm
    have hid := (hb.ledger.working ho).id
    have hmem : o ∈ b.workingWhere P :=
      (mem_workingWhere hb.toRep).mpr ⟨by rw [hid]; exact ho, hP⟩
    exact absurd (beq_iff_eq.mpr hid) (List.find?_eq_none.mp hfind o hmem)

/-- The ids of the working orders that a predicate picks. -/
theorem mem_ids_workingWhere {b : TradeOrderBox} (hb : b.WF) (P : Order → Bool) (id : String) :
    id ∈ (b.workingWhere P).map (·.clientOrderId) ↔
      ((b.ledger.working id).filter P).isSome := by
  rw [← find?_workingWhere hb, List.find?_isSome, List.mem_map]
  simp only [beq_iff_eq]

end TradeOrderBox

namespace TradeSimulater

/-- The expiry of the stale orders is the one that is wanted. -/
theorem Expired.expires {s s' : TradeSimulater} {today : Ems.Date} (hs : s.WF)
    (h : Expired (fun _ => stale today) s.orderManager.tradeOrders.keys s s') :
    Expires today s s' := by
  -- every box belongs to one of the contracts that the loop goes over
  have hkeys : ∀ c b, s.box c = some b → c ∈ s.orderManager.tradeOrders.keys := fun c b hb => by
    rw [Std.TreeMap.mem_keys, Std.TreeMap.mem_iff_isSome_getElem?]
    exact Option.isSome_iff_exists.mpr ⟨b, hb⟩
  -- so a box has lost what it was to lose, and nothing else
  have hbox : ∀ c b b', s.box c = some b → s'.box c = some b' →
      b'.ledger = Ledger.machine.exec b.ledger ((b.workingWhere (stale today)).map .cancel) := by
    intro c b b' hb hb'
    obtain ⟨b₁, hb₁, hledger⟩ := h.inside c (hkeys c b hb) b hb
    rw [hb'] at hb₁
    cases hb₁
    exact hledger
  constructor
  case contracts =>
    intro c
    cases hb : s.box c with
    | some b =>
      obtain ⟨b', hb', -⟩ := h.inside c (hkeys c b hb) b hb
      rw [hb']
      rfl
    | none =>
      -- a contract without a box is not visited
      have hout : c ∉ s.orderManager.tradeOrders.keys := fun hc => by
        rw [Std.TreeMap.mem_keys, Std.TreeMap.mem_iff_isSome_getElem?] at hc
        have hnone : s.orderManager.tradeOrders[c]? = none := hb
        rw [hnone] at hc
        exact nomatch hc
      rw [h.outside c hout, hb]
  case working =>
    intro c b b' hb hb' id
    have hwf := (hs.box hb).1
    rw [hbox c b b' hb hb', Ledger.exec_cancels_working]
    simp only [TradeOrderBox.mem_ids_workingWhere hwf]
    cases b.ledger.working id with
    | none => rfl
    | some o =>
      simp only [Option.filter_some]
      by_cases hstale : stale today o = true <;> simp [hstale]
  case canceled =>
    intro c b b' hb hb' id
    have hwf := (hs.box hb).1
    rw [hbox c b b' hb hb',
      Ledger.exec_cancels_canceled (TradeOrderBox.nodup_workingWhere hwf.toRep _),
      TradeOrderBox.find?_workingWhere hwf]
  case queue =>
    intro c b b' hb hb' cp
    have hwf := (hs.box hb).1
    -- the orders are taken out one by one, and each of them works when its turn comes
    have hruns := Ledger.runs_cancels (TradeOrderBox.nodup_workingWhere hwf.toRep (stale today))
      fun w hw => ((TradeOrderBox.mem_workingWhere hwf.toRep).mp hw).1
    rw [hbox c b b' hb hb', Ledger.exec_cancels_queue hwf.ledger hruns]
    refine List.filter_congr fun id _ => ?_
    simp only [TradeOrderBox.mem_ids_workingWhere hwf]
    cases ((b.ledger.working id).filter (stale today)) <;> rfl
  case fills =>
    intro c b b' hb hb'
    have hfills := congrArg Ledger.fills (hbox c b b' hb hb')
    rw [Ledger.exec_cancels_fills] at hfills
    exact hfills
  case reported => exact ⟨_, h.orders, .refl _⟩
  case invariant => exact fun c b' hb' => boxInvariant (h.wf.box hb').1
  case published =>
    exact fun c b' m' hb' hm' _ => (h.agrees c b' m' hb' hm').published (h.wf.box hb').1

/-! ### What the tests have to find -/

/-- The date of a clock value is behind a submit date. The code compares the numbers as `int`s, the
    year first. -/
def Passed (date : Int × Int × Int) (d : Ems.Date) : Prop :=
  d.year.toInt32.toInt < date.1 ∨ d.year.toInt32.toInt = date.1 ∧
    (d.month.toInt32.toInt < date.2.1 ∨ d.month.toInt32.toInt = date.2.1 ∧
      d.day.toInt32.toInt < date.2.2)

instance (date : Int × Int × Int) (d : Ems.Date) : Decidable (Passed date d) := by
  unfold Passed
  infer_instance

/-- A clock value has a date, and this is behind the submit date of a day order if and only if the
    current date is. -/
def Judges (now : Int64) (today : Ems.Date) (o : Order) : Prop :=
  o.tif = .gfd → ∃ date ∈ gmtime now,
    (Passed date o.submitTime.date ↔ Before o.submitTime.date today)

instance (now : Int64) (today : Ems.Date) (o : Order) : Decidable (Judges now today o) := by
  unfold Judges
  infer_instance

/-- A day order whose submit date is before that of a clock value -/
def passed (now : Int64) (o : Order) : Bool :=
  o.tif == .gfd && decide (∃ date ∈ gmtime now, Passed date o.submitTime.date)

/-- What has to be found in the variable at the tests of the orders behind the first stale one. They
    are copied, and before that they are counted, where it is enough if there are as many as will be
    copied. -/
def JudgedBehind (now : Found) (today : Ems.Date) (os : List Order) : Prop :=
  (∀ o ∈ os, Judges (now.copy o.clientOrderId) today o) ∧
  (∀ o ∈ os, o.tif = .gfd → (gmtime (now.count o.clientOrderId)).isSome) ∧
  os.countP (stale today) ≤ os.countP fun o => passed (now.count o.clientOrderId) o

instance (now : Found) (today : Ems.Date) (os : List Order) :
    Decidable (JudgedBehind now today os) := by
  unfold JudgedBehind
  infer_instance

/-- What has to be found in the variable at the tests of orders: up to the first stale order each is
    tested on the way to it. -/
def Judged (now : Found) (today : Ems.Date) : List Order → Prop
  | [] => True
  | o :: os =>
    Judges (now.first o.clientOrderId) today o ∧
    if stale today o = true then JudgedBehind now today os else Judged now today os

instance Judged.decide (now : Found) (today : Ems.Date) : ∀ os, Decidable (Judged now today os)
  | [] => isTrue trivial
  | o :: os =>
    have := Judged.decide now today os
    inferInstanceAs (Decidable (Judges (now.first o.clientOrderId) today o ∧
      if stale today o = true then JudgedBehind now today os else Judged now today os))

/-- In all contracts the values that are found in the variable pick out the stale orders. -/
def FindsToday (s : TradeSimulater) (now : String → Found) (today : Ems.Date) : Prop :=
  ∀ c b, s.box c = some b → Judged (now c) today (b.workingWhere fun _ => true)

/-- Only day orders are tested. -/
theorem isExpired_of_ne {now : Int64} {o : Order} (h : o.tif ≠ .gfd) :
    TradeOrderBox.isExpired now o = .ok false := by
  simp [TradeOrderBox.isExpired, h, pure, Except.pure]

/-- A day order is expired if the date of the clock value is behind its submit date. -/
theorem isExpired_of_gmtime {now : Int64} {date : Int × Int × Int} {o : Order} (hgfd : o.tif = .gfd)
    (hnow : gmtime now = some date) :
    TradeOrderBox.isExpired now o = .ok (decide (Passed date o.submitTime.date)) := by
  obtain ⟨year, month, day⟩ := date
  have hpassed : Passed (year, month, day) o.submitTime.date ↔
      o.submitTime.date.year.toInt32.toInt < year ∨ o.submitTime.date.year.toInt32.toInt = year ∧
        (o.submitTime.date.month.toInt32.toInt < month ∨
          o.submitTime.date.month.toInt32.toInt = month ∧
            o.submitTime.date.day.toInt32.toInt < day) := Iff.rfl
  unfold TradeOrderBox.isExpired
  simp only [hgfd, hnow, bne_self_eq_false, Bool.false_eq_true, if_false, gt_iff_lt, pure,
    Except.pure]
  -- the comparisons go from the year to the day
  split_ifs <;> rw [Except.ok.injEq, eq_comm]
  · rw [decide_eq_true_iff, hpassed]
    omega
  · rw [decide_eq_false_iff_not, hpassed]
    omega
  · rw [decide_eq_true_iff, hpassed]
    omega
  · rw [decide_eq_false_iff_not, hpassed]
    omega
  · rw [decide_eq_decide, hpassed]
    omega

/-- Without a date the test reads through a null pointer. -/
theorem isExpired_of_gmtime_none {now : Int64} {o : Order} (hgfd : o.tif = .gfd)
    (hnow : gmtime now = none) :
    TradeOrderBox.isExpired now o = .error (.undefined "null pointer") := by
  unfold TradeOrderBox.isExpired
  simp [hgfd, hnow, throw, throwThe, MonadExceptOf.throw]

/-- A test has a result unless it is a day order's and the clock value has no date. -/
theorem isExpired_eq_passed {now : Int64} {o : Order} (h : o.tif = .gfd → (gmtime now).isSome) :
    TradeOrderBox.isExpired now o = .ok (passed now o) := by
  by_cases hgfd : o.tif = .gfd
  · obtain ⟨date, hdate⟩ := Option.isSome_iff_exists.mp (h hgfd)
    simp [isExpired_of_gmtime hgfd hdate, passed, hgfd, hdate]
  · rw [isExpired_of_ne hgfd, passed, beq_eq_false_iff_ne.mpr hgfd, Bool.false_and]

/-- A test of a good-for-day order that returns has found a date. -/
theorem isSome_gmtime_of_isExpired {now : Int64} {o : Order} {v : Bool}
    (h : TradeOrderBox.isExpired now o = .ok v) (hgfd : o.tif = .gfd) : (gmtime now).isSome := by
  cases hnow : gmtime now with
  | some date => rfl
  | none =>
    rw [isExpired_of_gmtime_none hgfd hnow] at h
    cases h

/-- A test says which orders are stale if and only if the clock value judges them. -/
theorem isExpired_eq_stale_iff {now : Int64} {today : Ems.Date} {o : Order} :
    TradeOrderBox.isExpired now o = .ok (stale today o) ↔ Judges now today o := by
  unfold Judges stale
  by_cases hgfd : o.tif = .gfd
  · cases hnow : gmtime now with
    | none => simp [isExpired_of_gmtime_none hgfd hnow, hgfd]
    | some date => simp [isExpired_of_gmtime hgfd hnow, hgfd]
  · simp [isExpired_of_ne hgfd, hgfd]

/-- A number that is an `int` too -/
private theorem toInt_toInt32 {n : UInt32} (h : n.toNat < 2 ^ 31) : n.toInt32.toInt = n.toNat := by
  have hbmod : n.toInt32.toInt = (n.toNat : Int).bmod (2 ^ 32) := by
    show n.toBitVec.toInt = _
    rw [BitVec.toInt_eq_toNat_bmod]
    rfl
  rw [hbmod]
  exact Int.bmod_eq_of_le (by omega) (by omega)

/-- A time of the current day judges every order whose date is of `int`s: the test would be right if
    the clock were read. -/
theorem judges_of_today {now : Int64} {today : Ems.Date} {o : Order}
    (hnow : gmtime now =
      some ((today.year.toNat : Int), (today.month.toNat : Int), (today.day.toNat : Int)))
    (hyear : o.submitTime.date.year.toNat < 2 ^ 31)
    (hmonth : o.submitTime.date.month.toNat < 2 ^ 31)
    (hday : o.submitTime.date.day.toNat < 2 ^ 31) : Judges now today o := by
  intro _
  refine ⟨_, hnow, ?_⟩
  unfold Passed Before
  simp only [toInt_toInt32 hyear, toInt_toInt32 hmonth, toInt_toInt32 hday, Nat.cast_lt,
    Nat.cast_inj, UInt32.lt_iff_toNat_lt, ← UInt32.toNat_inj]

/-- A value that judges a stale order right is of a date that the order has passed. -/
theorem stale_le_passed {now : Int64} {today : Ems.Date} {o : Order} (h : Judges now today o)
    (hstale : stale today o = true) : passed now o = true := by
  unfold stale at hstale
  rw [Bool.and_eq_true, beq_iff_eq, decide_eq_true_iff] at hstale
  obtain ⟨date, hdate, hiff⟩ := h hstale.1
  simp only [passed, hstale.1, beq_self_eq_true, Bool.true_and, decide_eq_true_iff]
  exact ⟨date, hdate, hiff.mpr hstale.2⟩

/-- It is enough that the values are right at every test there may be. -/
theorem judged_of_judges {now : Found} {today : Ems.Date} {os : List Order}
    (h : ∀ o ∈ os, Judges (now.first o.clientOrderId) today o ∧
      Judges (now.count o.clientOrderId) today o ∧ Judges (now.copy o.clientOrderId) today o) :
    Judged now today os := by
  induction os with
  | nil => trivial
  | cons o os ih =>
    have hrest := fun o' ho' => h o' (List.mem_cons_of_mem o ho')
    refine ⟨(h o List.mem_cons_self).1, ?_⟩
    split
    · refine ⟨fun o' ho' => (hrest o' ho').2.2, fun o' ho' hgfd => ?_,
        List.countP_mono_left fun o' ho' => stale_le_passed (hrest o' ho').2.1⟩
      obtain ⟨date, hdate, -⟩ := (hrest o' ho').2.1 hgfd
      exact Option.isSome_iff_exists.mpr ⟨date, hdate⟩
    · exact ih hrest

/-- If the clock were read, and not over midnight, the stale orders would be picked out. -/
theorem findsToday_of_clock {s : TradeSimulater} (hs : s.WF) {now : String → Found}
    {today : Ems.Date}
    (hnow : ∀ c id, ∀ time ∈ [(now c).first id, (now c).count id, (now c).copy id], gmtime time =
      some ((today.year.toNat : Int), (today.month.toNat : Int), (today.day.toNat : Int)))
    (hdates : ∀ c b, s.box c = some b → ∀ o, b.ledger.working o.clientOrderId = some o →
      o.submitTime.date.year.toNat < 2 ^ 31 ∧ o.submitTime.date.month.toNat < 2 ^ 31 ∧
        o.submitTime.date.day.toNat < 2 ^ 31) : s.FindsToday now today := by
  intro c b hb
  apply judged_of_judges
  intro o ho
  have hworking := ((TradeOrderBox.mem_workingWhere (hs.box hb).1.toRep).mp ho).1
  obtain ⟨hyear, hmonth, hday⟩ := hdates c b hb o hworking
  have htest := fun time htime => judges_of_today (hnow c o.clientOrderId time htime) hyear hmonth hday
  exact ⟨htest _ (by simp), htest _ (by simp), htest _ (by simp)⟩

section

variable {heap : Heap Order} {now : Found} {today : Ems.Date} {hs : List (Ptr × Order)}

open TradeOrderBox

/-- A way through orders picks the stale ones if and only if it is judged right. -/
theorem filteredOrders_stale_iff {now : String → Int64}
    (hcells : ∀ h ∈ hs, heap.cells h.1 = some h.2) :
    filteredOrders heap now (hs.map entry) =
        .ok ((hs.filter fun h => stale today h.2).map Prod.fst) ↔
      ∀ h ∈ hs, Judges (now h.2.clientOrderId) today h.2 := by
  constructor
  · intro hrun h hh
    -- a pass that ends has tested every order
    have htests : ∀ h ∈ hs, isExpired (now h.2.clientOrderId) h.2 =
        .ok (passed (now h.2.clientOrderId) h.2) := fun h hh => by
      obtain ⟨v, hv⟩ := isExpired_of_filteredOrders hcells hrun h hh
      exact isExpired_eq_passed (isSome_gmtime_of_isExpired hv)
    rw [filteredOrders_eq (P := fun o => passed (now o.clientOrderId) o) hcells htests,
      Except.ok.injEq] at hrun
    -- both ways pick the same pointers, and a pointer leads to one order
    have hmem : ∀ P : Order → Bool,
        h.1 ∈ (hs.filter fun h => P h.2).map Prod.fst ↔ P h.2 = true := by
      intro P
      simp only [List.mem_map, List.mem_filter]
      constructor
      · rintro ⟨h', ⟨hh', hP⟩, heq⟩
        have hcell := hcells h' hh'
        rw [heq, hcells h hh, Option.some.injEq] at hcell
        rw [hcell]
        exact hP
      · exact fun hP => ⟨h, ⟨hh, hP⟩, rfl⟩
    have hiff : passed (now h.2.clientOrderId) h.2 = true ↔ stale today h.2 = true := by
      rw [← hmem fun o => passed (now o.clientOrderId) o, hrun, hmem]
    rw [← isExpired_eq_stale_iff, htests h hh, Bool.eq_iff_iff.mpr hiff]
  · intro hjudges
    exact filteredOrders_eq hcells fun h hh => isExpired_eq_stale_iff.mpr (hjudges h hh)

/-- Behind the first stale order the others are counted and copied. -/
theorem picks_behind_iff (hcells : ∀ h ∈ hs, heap.cells h.1 = some h.2) (p : Ptr) :
    (do
      let counted ← filteredOrders heap now.count (hs.map entry)
      let copied ← filteredOrders heap now.copy (hs.map entry)
      if counted.length < copied.length then throw (.undefined "write outside of the vector")
      return p :: copied : Except Exception (List Ptr)) =
        .ok (p :: (hs.filter fun h => stale today h.2).map Prod.fst) ↔
      JudgedBehind now today (hs.map Prod.snd) := by
  -- both passes pick a sublist, and only the lengths are compared
  have hlength : ∀ P : Order → Bool, ((hs.filter fun h => P h.2).map Prod.fst).length =
      (hs.map Prod.snd).countP P := fun P => by
    rw [List.length_map, List.countP_map, List.countP_eq_length_filter]
    rfl
  unfold JudgedBehind
  simp only [List.forall_mem_map]
  constructor
  · intro hrun
    obtain ⟨counted, hcounted, hrun⟩ := Except.bind_eq_ok.mp hrun
    obtain ⟨copied, hcopied, hrun⟩ := Except.bind_eq_ok.mp hrun
    have hdates : ∀ h ∈ hs, h.2.tif = .gfd → (gmtime (now.count h.2.clientOrderId)).isSome := by
      intro h hh
      obtain ⟨v, hv⟩ := isExpired_of_filteredOrders hcells hcounted h hh
      exact isSome_gmtime_of_isExpired hv
    rw [filteredOrders_eq (P := fun o => passed (now.count o.clientOrderId) o) hcells fun h hh =>
      isExpired_eq_passed (hdates h hh), Except.ok.injEq] at hcounted
    split at hrun
    · cases hrun
    · -- the second pass fits into the room that the first one made
      next hle =>
      cases hrun
      rw [← hcounted, hlength, hlength fun o => passed (now.count o.clientOrderId) o] at hle
      exact ⟨(filteredOrders_stale_iff hcells).mp hcopied, hdates, by omega⟩
  · rintro ⟨hjudges, hdates, hle⟩
    rw [filteredOrders_eq (P := fun o => passed (now.count o.clientOrderId) o) hcells fun h hh =>
      isExpired_eq_passed (hdates h hh), (filteredOrders_stale_iff hcells).mpr hjudges,
      Except.ok_bind, Except.ok_bind, if_neg]
    · rfl
    · rw [hlength, hlength fun o => passed (now.count o.clientOrderId) o]
      omega

/-- One test at the beginning of the range: an order that is found expired is the first one that is
    picked, and the way goes on behind one that is not. -/
theorem expiredOrders_cons {p : Ptr} {o : Order} {orders : List (String × Ptr)}
    (hcell : heap.cells p = some o) :
    expiredOrders heap now (entry (p, o) :: orders) = (do
      if ← isExpired (now.first o.clientOrderId) o then
        let counted ← filteredOrders heap now.count orders
        let copied ← filteredOrders heap now.copy orders
        if counted.length < copied.length then throw (.undefined "write outside of the vector")
        return p :: copied
      else expiredOrders heap now orders) := by
  unfold expiredOrders
  rw [entry, filteredBegin, Heap.deref_of_live hcell, Except.ok_bind]
  cases isExpired (now.first o.clientOrderId) o with
  | error e => rfl
  | ok v => cases v <;> rfl

/-- Exactly the stale orders are picked if and only if the values in the variable are as they have
    to be. -/
theorem picks_stale_iff (hcells : ∀ h ∈ hs, heap.cells h.1 = some h.2)
    (hnd : (hs.map Prod.fst).Nodup) :
    expiredOrders heap now (hs.map entry) =
        .ok ((hs.filter fun h => stale today h.2).map Prod.fst) ↔
      Judged now today (hs.map Prod.snd) := by
  induction hs with
  | nil => exact iff_of_true rfl trivial
  | cons h hs ih =>
    obtain ⟨p, o⟩ := h
    rw [List.map_cons, List.nodup_cons] at hnd
    have hcell : heap.cells p = some o := hcells (p, o) List.mem_cons_self
    have hrest : ∀ h ∈ hs, heap.cells h.1 = some h.2 := fun h hh =>
      hcells h (List.mem_cons_of_mem _ hh)
    have hmap : (hs.map entry).map Prod.snd = hs.map Prod.fst := by
      rw [List.map_map]
      rfl
    rw [List.map_cons, expiredOrders_cons hcell, List.map_cons, Judged]
    show _ ↔ Judges (now.first o.clientOrderId) today o ∧ _
    rw [← isExpired_eq_stale_iff]
    cases htest : isExpired (now.first o.clientOrderId) o with
    | error e => exact iff_of_false (fun h => by cases h) fun h => by cases h.1
    | ok v =>
      rw [Except.ok_bind, Except.ok.injEq, List.filter_cons]
      cases hstale : stale today o <;> cases v
      case false.false =>
        simp only [Bool.false_eq_true, if_false, true_and]
        exact ih hrest hnd.2
      case true.true =>
        simp only [if_true, true_and, List.map_cons]
        exact picks_behind_iff hrest p
      case false.true =>
        -- the order is picked, which is not among those behind it
        refine iff_of_false (fun hrun => ?_) fun h => Bool.noConfusion h.1
        obtain ⟨counted, -, hrun⟩ := Except.bind_eq_ok.mp hrun
        obtain ⟨copied, -, hrun⟩ := Except.bind_eq_ok.mp hrun
        split at hrun
        · cases hrun
        · have heq := Except.ok.inj hrun
          have hmem : p ∈ (hs.filter fun h => stale today h.2).map Prod.fst := by
            simp only [Bool.false_eq_true, if_false] at heq
            rw [← heq]
            exact List.mem_cons_self
          exact hnd.1 ((List.filter_sublist.map Prod.fst).subset hmem)
      case true.false =>
        -- the order is passed over, and what is picked is behind it
        refine iff_of_false (fun hrun => ?_) fun h => Bool.noConfusion h.1
        have hsub := sublist_expiredOrders (by simpa only [Bool.false_eq_true, if_false] using hrun)
        rw [hmap] at hsub
        exact hnd.1 (hsub.subset (by simp))

end

/-- In a box, with the working orders in the order of their ids. -/
theorem picks_iff {b : TradeOrderBox} (hb : b.Rep) {now : Found} {today : Ems.Date} :
    b.Picks now (stale today) ↔ Judged now today (b.workingWhere fun _ => true) := by
  unfold TradeOrderBox.Picks TradeOrderBox.heldWhere
  rw [← TradeOrderBox.map_entry_held hb, picks_stale_iff
    (fun h hh => (TradeOrderBox.holds_of_mem_held hb hh).2) (TradeOrderBox.nodup_held hb),
    ← TradeOrderBox.map_snd_heldWhere, TradeOrderBox.heldWhere, List.filter_true]

/-- If just the stale orders expired, the values in the variable picked them out. -/
theorem findsToday_of_expires {s s' : TradeSimulater} {now : String → Found}
    {today : Ems.Date} (hs : s.WF) (hagrees : s.Agrees) (hrun : deleteExpiredOrder now s = .ok () s')
    (h : Expires today s s') : s.FindsToday now today := by
  have hkeys : s.orderManager.tradeOrders.keys.Nodup := Std.TreeMap.nodup_keys
  have hmem : ∀ c, c ∈ s.orderManager.tradeOrders.keys ↔ (s.box c).isSome := fun c => by
    rw [Std.TreeMap.mem_keys, Std.TreeMap.mem_iff_isSome_getElem?]
    rfl
  -- the loop ended, so every box gave its orders
  have hpicks := picks_of_expireAll hkeys hs hagrees (fun c hc => (hmem c).mp hc) hrun
  obtain ⟨s₁, hrun₁, h₁⟩ := expireAll_spec hkeys hs hagrees hpicks
  have heq : s₁ = s' := by
    have hboth := hrun₁.symm.trans hrun
    cases hboth
    rfl
  subst heq
  intro c b hb
  have hc : c ∈ s.orderManager.tradeOrders.keys :=
    (hmem c).mpr (Option.isSome_iff_exists.mpr ⟨b, hb⟩)
  obtain ⟨b₀, hb₀, hpicks⟩ := hpicks c hc
  rw [hb] at hb₀
  cases hb₀
  have hwf := (hs.box hb).1
  obtain ⟨b', hb', hledger⟩ := h₁.inside c hc b hb
  -- an order is gone if it was picked, and if it is stale
  have hsame : ∀ h ∈ b.held, s.picked now c h.2 = stale today h.2 := by
    intro pw hpw
    have ho := (TradeOrderBox.holds_of_mem_held hwf.toRep hpw).ledger
    have hgone := h.working c b b' hb hb' pw.2.clientOrderId
    rw [hledger, Ledger.exec_cancels_working, ho] at hgone
    simp only [TradeOrderBox.mem_ids_workingWhere hwf, ho, Option.filter_some] at hgone
    by_cases hv : s.picked now c pw.2 = true <;>
      by_cases hw : stale today pw.2 = true <;> simp_all
  rw [← picks_iff hwf.toRep]
  -- so the same orders were held back and picked
  have hheld : b.heldWhere (s.picked now c) = b.heldWhere (stale today) := List.filter_congr hsame
  unfold TradeOrderBox.Picks at hpicks ⊢
  rw [hpicks, hheld]

/-- In every state that requests lead to, and in which the published books show what works: exactly
    the day orders of an earlier day are deleted, and all else is as it should be, if and only if
    the dates of what is found in the variable, to which nothing is assigned, are behind the submit
    dates of the working day orders where the current date is. -/
theorem expires_iff (clock : Nat → Ems.Timestamp) (contracts : List TradeContract)
    (rs : List Request) (hagrees : ((started clock contracts).run rs).Agrees)
    (now : String → Found) (today : Ems.Date) :
    (∃ s', deleteExpiredOrder now ((started clock contracts).run rs) = .ok () s' ∧
      Expires today ((started clock contracts).run rs) s') ↔
    ((started clock contracts).run rs).FindsToday now today := by
  have hs := (WF.started clock contracts).run rs
  constructor
  · rintro ⟨s', hrun, h⟩
    exact findsToday_of_expires hs hagrees hrun h
  · intro hfinds
    have hkeys : ((started clock contracts).run rs).orderManager.tradeOrders.keys.Nodup :=
      Std.TreeMap.nodup_keys
    -- each box picks what is stale, as its tests judge it right
    obtain ⟨s', hrun, h⟩ := expireAll_spec (P := fun _ => stale today) hkeys hs hagrees
      fun c hc => by
        rw [Std.TreeMap.mem_keys, Std.TreeMap.mem_iff_isSome_getElem?] at hc
        obtain ⟨b, hb⟩ := Option.isSome_iff_exists.mp hc
        exact ⟨b, hb, (picks_iff (hs.box hb).1.toRep).mpr (hfinds c b hb)⟩
    exact ⟨s', hrun, h.expires hs⟩

/-- `FindsToday`, computed -/
def findsToday (s : TradeSimulater) (now : String → Found) (today : Ems.Date) : Bool :=
  s.orderManager.tradeOrders.toList.all fun (c, b) =>
    decide (Judged (now c) today (b.workingWhere fun _ => true))

/-- The condition can be evaluated. -/
theorem findsToday_iff {s : TradeSimulater} {now : String → Found} {today : Ems.Date} :
    s.findsToday now today = true ↔ s.FindsToday now today := by
  unfold findsToday FindsToday
  simp only [List.all_eq_true, decide_eq_true_eq]
  constructor
  · intro h c b hb
    exact h (c, b) (Std.TreeMap.mem_toList_iff_getElem?_eq_some.mpr hb)
  · intro h kv hmem
    exact h kv.1 kv.2 (Std.TreeMap.mem_toList_iff_getElem?_eq_some.mp hmem)

/-- A day order of the first of January, and one of the second -/
private def dayOrders : List Request :=
  [.add { limitOrder "1" .sell "1" 5 with
      tif := .gfd, submitTime := { date := { year := 2018, month := 1, day := 1 } } },
    .add { limitOrder "2" .sell "1" 3 with
      tif := .gfd, submitTime := { date := { year := 2018, month := 1, day := 2 } } }]

/-- The same value at every test -/
private def always (time : Int64) : String → Found := fun _ =>
  { first := fun _ => time, count := fun _ => time, copy := fun _ => time }

/-- With the time of the second of January in the variable. -/
theorem expires_iff_second_of_january :
    ∃ s', deleteExpiredOrder (always 1514851200) (sampleRun dayOrders) = .ok () s' ∧
      Expires { year := 2018, month := 1, day := 2 } (sampleRun dayOrders) s' := by
  have hfits := fits_of_requests (fun _ => {}) sampleContracts dayOrders (by decide)
  have hagrees := agrees_run (WF.started (fun _ => {}) sampleContracts)
    (Fresh.started (fun _ => {}) sampleContracts).agrees dayOrders hfits
  exact (expires_iff (fun _ => {}) sampleContracts dayOrders hagrees (always 1514851200)
    { year := 2018, month := 1, day := 2 }).mpr (findsToday_iff.mp (by decide +kernel))

/-- With zero in the variable the order of the first of January stays. -/
theorem not_expires_of_zero :
    ¬ ∃ s', deleteExpiredOrder (always 0) (sampleRun dayOrders) = .ok () s' ∧
      Expires { year := 2018, month := 1, day := 2 } (sampleRun dayOrders) s' := by
  have hs := (WF.started (fun _ => {}) sampleContracts).run dayOrders
  have hfits := fits_of_requests (fun _ => {}) sampleContracts dayOrders (by decide)
  have hagrees := agrees_run (WF.started (fun _ => {}) sampleContracts)
    (Fresh.started (fun _ => {}) sampleContracts).agrees dayOrders hfits
  rintro ⟨s', hrun, h⟩
  have hfinds := findsToday_iff.mpr (findsToday_of_expires hs hagrees hrun h)
  exact absurd hfinds (by decide +kernel)

end TradeSimulater

end FixHandler.Trade
