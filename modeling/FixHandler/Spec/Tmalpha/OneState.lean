import Mathlib
import FixHandler.Spec.Tmalpha.MatcherCorrect

/-!
# One state per order

An order is working, filled or canceled, and never two of them. Nothing checks that the id
of a new order is new, and an order that is added under a known id is put into a second
table, or into the list of the working orders a second time.

## Key results

- `Exclusive`: the invariant of the tables, with a lemma for each way they change
- `one_state_iff`: the runs in which it holds
-/

namespace FixHandler.Tmalpha

open Cxx (Exception)
open Ems (Order Fill)

/-- Every id is in one table at most, the list has the ids of the working orders once each,
    and every order carries its id. -/
structure Exclusive (working : Std.TreeMap String OrderInfo) (ids : List String)
    (filled : Std.TreeMap String Fill) (canceled : Std.TreeMap String Order) : Prop where
  not_filled : ∀ id ∈ working, id ∉ filled
  not_canceled : ∀ id ∈ working, id ∉ canceled
  filled_not_canceled : ∀ id ∈ filled, id ∉ canceled
  nodup : ids.Nodup
  mem_ids : ∀ id, id ∈ ids ↔ id ∈ working
  working_id : ∀ (id : String) (info : OrderInfo), working[id]? = some info →
    info.order.clientOrderId = id
  filled_id : ∀ (id : String) (f : Fill), filled[id]? = some f → f.clientOrderId = id
  canceled_id : ∀ (id : String) (o : Order), canceled[id]? = some o → o.clientOrderId = id

namespace Exclusive

variable {working : Std.TreeMap String OrderInfo} {ids : List String}
  {filled : Std.TreeMap String Fill} {canceled : Std.TreeMap String Order}

/-- No order is in any of the maps. -/
theorem empty : Exclusive ∅ [] ∅ ∅ where
  not_filled _ h := absurd h Std.TreeMap.not_mem_emptyc
  not_canceled _ h := absurd h Std.TreeMap.not_mem_emptyc
  filled_not_canceled _ h := absurd h Std.TreeMap.not_mem_emptyc
  nodup := .nil
  mem_ids _ := iff_of_false List.not_mem_nil Std.TreeMap.not_mem_emptyc
  working_id id info h := by rw [Std.TreeMap.getElem?_emptyc] at h; exact nomatch h
  filled_id id f h := by rw [Std.TreeMap.getElem?_emptyc] at h; exact nomatch h
  canceled_id id o h := by rw [Std.TreeMap.getElem?_emptyc] at h; exact nomatch h

/-- A working order changes. -/
theorem update (h : Exclusive working ids filled canceled) {id : String} (hid : id ∈ working)
    {info : OrderInfo} (hinfo : info.order.clientOrderId = id) :
    Exclusive (working.insert id info) ids filled canceled := by
  -- the keys of the working orders are the old ones
  have hmem : ∀ id', id' ∈ working.insert id info ↔ id' ∈ working := fun id' => by
    rw [Std.TreeMap.mem_insert_iff]
    exact or_iff_right_of_imp fun heq => heq ▸ hid
  refine { h with
    not_filled := fun id' h' => h.not_filled id' ((hmem id').mp h')
    not_canceled := fun id' h' => h.not_canceled id' ((hmem id').mp h')
    mem_ids := fun id' => (h.mem_ids id').trans (hmem id').symm
    working_id := fun id' info' h' => ?_ }
  rw [Std.TreeMap.getElem?_insert_if] at h'
  split at h'
  · next heq =>
    cases h'
    rw [heq, hinfo]
  · exact h.working_id id' info' h'

/-- A new order works. -/
theorem add (h : Exclusive working ids filled canceled) {id : String} (hworking : id ∉ working)
    (hfilled : id ∉ filled) (hcanceled : id ∉ canceled) {info : OrderInfo}
    (hinfo : info.order.clientOrderId = id) :
    Exclusive (working.insert id info) (ids ++ [id]) filled canceled := by
  refine { h with
    not_filled := fun id' h' => ?_
    not_canceled := fun id' h' => ?_
    nodup := ?_
    mem_ids := fun id' => ?_
    working_id := fun id' info' h' => ?_ }
  · -- the id that starts to work is in neither of the other two
    rcases Std.TreeMap.mem_insert_iff.mp h' with rfl | h'
    · exact hfilled
    · exact h.not_filled id' h'
  · rcases Std.TreeMap.mem_insert_iff.mp h' with rfl | h'
    · exact hcanceled
    · exact h.not_canceled id' h'
  · -- it is not in the list of ids either, which has the working ones
    rw [← List.concat_eq_append]
    exact h.nodup.concat fun hid => hworking ((h.mem_ids id).mp hid)
  · rw [Std.TreeMap.mem_insert_iff, List.mem_append, List.mem_singleton, h.mem_ids, or_comm]
  · rw [Std.TreeMap.getElem?_insert_if] at h'
    split at h'
    · next heq =>
      cases h'
      rw [heq, hinfo]
    · exact h.working_id id' info' h'

/-- An order works no longer. -/
theorem erase (h : Exclusive working ids filled canceled) {id : String} {ids' : List String}
    (hnodup : ids'.Nodup) (hmem : ∀ id', id' ∈ ids' ↔ id' ≠ id ∧ id' ∈ ids) :
    Exclusive (working.erase id) ids' filled canceled := by
  refine { h with
    not_filled := fun id' h' => h.not_filled id' (Std.TreeMap.mem_erase_iff.mp h').2
    not_canceled := fun id' h' => h.not_canceled id' (Std.TreeMap.mem_erase_iff.mp h').2
    nodup := hnodup
    mem_ids := fun id' => by rw [hmem, h.mem_ids, Std.TreeMap.mem_erase_iff]
    working_id := fun id' info' h' => ?_ }
  rw [Std.TreeMap.getElem?_erase_if] at h'
  split at h'
  · exact nomatch h'
  · exact h.working_id id' info' h'

/-- An order that does not work is filled. -/
theorem fill (h : Exclusive working ids filled canceled) {id : String} (hworking : id ∉ working)
    (hcanceled : id ∉ canceled) {f : Fill} (hf : f.clientOrderId = id) :
    Exclusive working ids (filled.insert id f) canceled := by
  refine { h with
    not_filled := fun id' h' => ?_
    filled_not_canceled := fun id' h' => ?_
    filled_id := fun id' f' h' => ?_ }
  · -- the id that is filled does not work
    rw [Std.TreeMap.mem_insert_iff, not_or]
    exact ⟨fun heq => hworking (heq ▸ h'), h.not_filled id' h'⟩
  · rcases Std.TreeMap.mem_insert_iff.mp h' with rfl | h'
    · exact hcanceled
    · exact h.filled_not_canceled id' h'
  · rw [Std.TreeMap.getElem?_insert_if] at h'
    split at h'
    · next heq =>
      cases h'
      rw [heq, hf]
    · exact h.filled_id id' f' h'

/-- An order that does not work is canceled. -/
theorem cancel (h : Exclusive working ids filled canceled) {id : String} (hworking : id ∉ working)
    (hfilled : id ∉ filled) {o : Order} (ho : o.clientOrderId = id) :
    Exclusive working ids filled (canceled.insert id o) := by
  refine { h with
    not_canceled := fun id' h' => ?_
    filled_not_canceled := fun id' h' => ?_
    canceled_id := fun id' o' h' => ?_ }
  · -- the id that is canceled neither works
    rw [Std.TreeMap.mem_insert_iff, not_or]
    exact ⟨fun heq => hworking (heq ▸ h'), h.not_canceled id' h'⟩
  · -- nor is it filled
    rw [Std.TreeMap.mem_insert_iff, not_or]
    exact ⟨fun heq => hfilled (heq ▸ h'), h.filled_not_canceled id' h'⟩
  · rw [Std.TreeMap.getElem?_insert_if] at h'
    split at h'
    · next heq =>
      cases h'
      rw [heq, ho]
    · exact h.canceled_id id' o' h'

end Exclusive

namespace ReplayOrderMatcher

/-- Every order has one state. -/
def OneState (s : ReplayOrderMatcher) : Prop :=
  Exclusive s.workingOrders s.workingOrderIds s.filledOrders s.canceledOrders

/-- A new order may be added: its id is not working and not canceled, and if it is filled,
    the new order is filled at once. -/
def Addable (s : ReplayOrderMatcher) (o : Order) : Prop :=
  o.clientOrderId ∉ s.workingOrders ∧ o.clientOrderId ∉ s.canceledOrders ∧
    (o.clientOrderId ∈ s.filledOrders → ∃ o', s.hasMatching o = .ok (true, o'))

/-- An order that can be added stands in one of the maps afterwards. -/
theorem OneState.add {s : ReplayOrderMatcher} (h : s.OneState) {o : Order} (ho : s.Addable o) :
    (add o s).Sat (fun _ s' => s'.OneState) (fun _ _ => True) := by
  obtain ⟨hworking, hcanceled, hfilled⟩ := ho
  refine add_sat (fun _ _ => trivial) (fun o' hmatch => ?_) (fun position hmatch _ => ?_)
    fun _ _ _ => trivial
  · obtain ⟨_, best, _, _, _, rfl⟩ := hasMatching_true hmatch
    exact Exclusive.fill h hworking hcanceled rfl
  · refine Exclusive.add h hworking (fun hmem => ?_) hcanceled rfl
    obtain ⟨o', hmatch'⟩ := hfilled hmem
    rw [hmatch] at hmatch'
    cases hmatch'

/-- A change keeps every order in its map. -/
theorem OneState.change {s : ReplayOrderMatcher} (h : s.OneState) (o : Order) :
    (change o s).Sat (fun _ s' => s'.OneState) (fun _ _ => True) :=
  change_sat (fun _ _ => h)
    (fun _ _ _ _ hworking _ => Exclusive.update h (Std.TreeMap.mem_of_getElem? hworking) rfl)
    fun _ _ _ => trivial

/-- A delete moves the order from the working ones to the canceled ones. -/
theorem OneState.delete {s : ReplayOrderMatcher} (h : s.OneState) (o : Order) :
    (delete o s).Sat (fun _ s' => s'.OneState) (fun _ _ => True) := by
  refine delete_sat (fun _ => h) fun working _ hfilled _ hworking => ?_
  have herase : Exclusive (s.workingOrders.erase o.clientOrderId)
      (s.workingOrderIds.filter (· != o.clientOrderId)) s.filledOrders s.canceledOrders := by
    refine Exclusive.erase h (h.nodup.filter _) fun id' => ?_
    rw [List.mem_filter, bne_iff_ne, and_comm]
  exact herase.cancel (fun h' => (Std.TreeMap.mem_erase_iff.mp h').1 rfl) hfilled
    (h.working_id _ _ hworking)

/-- The rule for a turn of the loop where every order has one state: the order is there, and
    it carries its id. -/
theorem OneState.rematchOne_sat {contract id : String} {kept rest : List String}
    {s : ReplayOrderMatcher} (h : s.OneState) (hids : s.workingOrderIds = kept ++ id :: rest)
    {Q : Bool → ReplayOrderMatcher → Prop}
    (hother : ∀ info, s.workingOrders[id]? = some info → info.order.contract ≠ contract → Q false s)
    (hkept : ∀ info info', s.workingOrders[id]? = some info → info.order.contract = contract →
      s.hasRematching info = .ok (false, info') →
      Q false { s with workingOrders := s.workingOrders.insert id info' })
    (hfilled : ∀ info info', s.workingOrders[id]? = some info → info.order.contract = contract →
      s.hasRematching info = .ok (true, info') → info'.order.clientOrderId = id →
      Q true (s.rematched kept id rest info')) :
    (rematchOne contract kept id rest s).Sat
      (fun filled s' => s'.OneState ∧ s'.workingOrderIds =
        (if filled then kept ++ rest else kept ++ [id] ++ rest) ∧ Q filled s') (fun _ _ => True) := by
  have hmem : id ∈ s.workingOrders := by
    rw [← h.mem_ids, hids]
    exact List.mem_append_right _ List.mem_cons_self
  have hleft : s.workingOrderIds = kept ++ [id] ++ rest := by rw [hids, List.append_cons]
  -- a match changes the price of the order alone
  have hid : ∀ {filled info info'}, s.workingOrders[id]? = some info →
      s.hasRematching info = .ok (filled, info') → info'.order.clientOrderId = id := by
    intro filled info info' hinfo hmatch
    obtain ⟨price, horder⟩ := hasRematching_order hmatch
    rw [horder]
    exact h.working_id id info hinfo
  refine ReplayOrderMatcher.rematchOne_sat (fun hnone => ?_)
    (fun info hinfo hcontract => ⟨h, hleft, hother info hinfo hcontract⟩) (fun _ _ _ _ _ => trivial)
    (fun info info' hinfo hcontract hmatch => ?_) fun info info' hinfo hcontract hmatch => ?_
  · -- no order is made by looking for it
    rw [Std.TreeMap.mem_iff_isSome_getElem?, hnone] at hmem
    exact nomatch hmem
  · exact ⟨Exclusive.update h hmem (hid hinfo hmatch), hleft, hkept info info' hinfo hcontract hmatch⟩
  · have hid := hid hinfo hmatch
    refine ⟨?_, rfl, hfilled info info' hinfo hcontract hmatch hid⟩
    have hnodup : (kept ++ id :: rest).Nodup := hids ▸ h.nodup
    have hnot : id ∉ kept ++ rest := (List.nodup_middle.mp hnodup).notMem
    -- the order leaves the working ones and its id the list
    have herase : Exclusive ((s.workingOrders.insert id info').erase id) (kept ++ rest)
        s.filledOrders s.canceledOrders := by
      refine Exclusive.erase (Exclusive.update h hmem hid)
        (List.nodup_middle.mp hnodup).of_cons fun id' => ?_
      rw [hids, List.perm_middle.mem_iff, List.mem_cons]
      refine ⟨fun h' => ⟨fun heq => hnot (heq ▸ h'), .inr h'⟩, fun ⟨hne, h'⟩ => ?_⟩
      exact h'.resolve_left hne
    show Exclusive ((s.workingOrders.insert id info').erase info'.order.clientOrderId)
      (kept ++ rest) (s.filledOrders.insert info'.order.clientOrderId _) s.canceledOrders
    rw [hid]
    exact herase.fill (fun h' => (Std.TreeMap.mem_erase_iff.mp h').1 rfl) (h.not_canceled id hmem)
      hid

/-- The rule for an update of the market data where every order has one state: `I rest s` says
    that the orders `rest` are still to be rematched. -/
theorem OneState.onStateChanged_sat {s : ReplayOrderMatcher} (h : s.OneState) {l2 : Dms.L2}
    {bidVolumn askVolumn : UInt32} {I : List String → ReplayOrderMatcher → Prop}
    (hstart : I s.workingOrderIds { s with
      currentStates := s.currentStates.insert l2.contract { l2, bidVolumn, askVolumn } })
    (hother : ∀ id rest s info, I (id :: rest) s → s.workingOrders[id]? = some info →
      info.order.contract ≠ l2.contract → I rest s)
    (hkept : ∀ id rest s info info', I (id :: rest) s → s.workingOrders[id]? = some info →
      info.order.contract = l2.contract → s.hasRematching info = .ok (false, info') →
      I rest { s with workingOrders := s.workingOrders.insert id info' })
    (hfilled : ∀ kept id rest s info info', I (id :: rest) s → s.workingOrders[id]? = some info →
      info.order.contract = l2.contract → s.hasRematching info = .ok (true, info') →
      info'.order.clientOrderId = id → I rest (s.rematched kept id rest info')) :
    (onStateChanged l2 bidVolumn askVolumn s).Sat (fun _ s' => s'.OneState ∧ I [] s')
      (fun _ _ => True) := by
  refine (ReplayOrderMatcher.onStateChanged_sat
    (I := fun kept rest s => s.OneState ∧ s.workingOrderIds = kept ++ rest ∧ I rest s)
    (fun kept id rest s hI => ?_) ⟨h, rfl, hstart⟩).mono (fun _ s' hs' => ?_) fun _ _ h => h
  · -- the invariant of the pass is kept with the list of what is still to come
    obtain ⟨hone, hids, hI⟩ := hI
    refine (hone.rematchOne_sat hids (Q := fun _ s' => I rest s')
      (fun info => hother id rest s info hI) (fun info info' => hkept id rest s info info' hI)
      (fun info info' => hfilled kept id rest s info info' hI)).mono
      (fun filled s' hs' => ?_) fun _ _ h => h
    cases filled <;> exact hs'
  · obtain ⟨kept, hone, -, hI⟩ := hs'
    exact ⟨hone, hI⟩

/-- Market data moves an order from the working ones to the filled ones at most. -/
theorem OneState.onStateChanged {s : ReplayOrderMatcher} (h : s.OneState) (l2 : Dms.L2)
    (bidVolumn askVolumn : UInt32) :
    (onStateChanged l2 bidVolumn askVolumn s).Sat (fun _ s' => s'.OneState) (fun _ _ => True) :=
  (h.onStateChanged_sat (I := fun _ _ => True) trivial (fun _ _ _ _ _ _ _ => trivial)
    (fun _ _ _ _ _ _ _ _ _ => trivial) (fun _ _ _ _ _ _ _ _ _ _ _ => trivial)).mono
    (fun _ _ h => h.1) fun _ _ h => h

/-- Every call keeps the states apart, if an order that it adds is addable. -/
theorem OneState.step {s s' : ReplayOrderMatcher} (h : s.OneState) {c : Call}
    (hadd : ∀ o, c.request = .add o → s.Addable o) (hstep : step c s = .ok () s') :
    s'.OneState := by
  have hnow : OneState { s with now := c.now } := h
  have hsat : (handle c.request { s with now := c.now }).Sat (fun _ s' => s'.OneState)
      (fun _ _ => True) := by
    cases hrequest : c.request with
    | add o => exact hnow.add (hadd o hrequest)
    | change o => exact hnow.change o
    | delete o => exact hnow.delete o
    | query o => exact query_sat fun _ => hnow
    | stateChanged l2 bidVolumn askVolumn => exact hnow.onStateChanged l2 bidVolumn askVolumn
  have hresult : handle c.request { s with now := c.now } = .ok () s' := hstep
  rw [hresult] at hsat
  exact hsat

/-- An order that is not addable gets a second state. -/
theorem OneState.addable {s s' : ReplayOrderMatcher} (h : s.OneState) {o : Order}
    (hadd : ReplayOrderMatcher.add o s = .ok () s') (h' : s'.OneState) : s.Addable o := by
  -- what the state after the call says about the id was true before it
  have hsat : (ReplayOrderMatcher.add o s).Sat (fun _ s' => s'.OneState → s.Addable o)
      (fun _ _ => True) := by
    refine add_sat (fun _ _ => trivial) (fun o' hmatch h' => ?_) (fun position hmatch _ h' => ?_)
      fun _ _ _ => trivial
    · -- the order is filled
      have hmem : o'.clientOrderId ∈ s.filledOrders.insert o'.clientOrderId
          (fillOf o' s.fillIdOf s.exchangeOrderIdOf) := Std.TreeMap.mem_insert_self
      obtain ⟨_, best, _, _, _, rfl⟩ := hasMatching_true hmatch
      exact ⟨fun hworking => h'.not_filled _ hworking hmem, h'.filled_not_canceled _ hmem,
        fun _ => ⟨_, hmatch⟩⟩
    · -- the order works
      have hmem : o.clientOrderId ∈ s.workingOrders.insert o.clientOrderId
          { order := workingOrder s.now o s.exchangeOrderIdOf, position } :=
        Std.TreeMap.mem_insert_self
      refine ⟨fun hworking => ?_, h'.not_canceled _ hmem,
        fun hfilled => absurd hfilled (h'.not_filled _ hmem)⟩
      have hnodup : (s.workingOrderIds ++ [o.clientOrderId]).Nodup := h'.nodup
      exact (List.nodup_append.mp hnodup).2.2 _ ((h.mem_ids _).mpr hworking) _
        (List.mem_singleton.mpr rfl) rfl
  rw [hadd] at hsat
  exact hsat h'

/-- Every order has one state after every call of a run exactly if no order is added under an
    id that is working or canceled, or that is filled when the new order is not filled at
    once. -/
theorem one_state_iff (tradeRate : Int32) (calls : List Call) :
    (∀ before, before <+: calls → ∀ s, run tradeRate before = .ok () s → s.OneState) ↔
      ∀ before c, before ++ [c] <+: calls → ∀ s s', run tradeRate before = .ok () s →
        step c s = .ok () s' → ∀ o, c.request = .add o →
          { s with now := c.now }.Addable o := by
  constructor
  · -- an order that cannot be added breaks the state after the call
    intro h before c hpfx s s' hs hstep o ho
    have hbefore := h before ((List.prefix_append before [c]).trans hpfx) s hs
    have hafter := h (before ++ [c]) hpfx s' ((run_concat hs c).trans hstep)
    have hadd : handle c.request { s with now := c.now } = .ok () s' := hstep
    rw [ho] at hadd
    exact OneState.addable (s := { s with now := c.now }) hbefore hadd hafter
  · intro h before hpfx s hs
    refine run_induction (P := fun _ s => s.OneState) Exclusive.empty
      (fun before c s s' hpfx hone hs hstep => ?_) hpfx hs
    exact hone.step (fun o ho => h before c hpfx s s' hs hstep o ho) hstep

/-- A limit order that buys -/
private def buy (id price : String) : Order :=
  { clientOrderId := id, contract := "T1", buySell := .buy, price, quantity := 1, orderType := .limit }

/-- Two orders under one id: the id is in the list twice, and when the second order is filled
    an order without id is left in the working orders. -/
theorem order_added_twice :
    ∃ s, run 100 [⟨.add (buy "C1" "10"), {}⟩, ⟨.add (buy "C1" "10"), {}⟩] = .ok () s ∧
      s.workingOrderIds = ["C1", "C1"] ∧ ¬ s.OneState := by
  refine ⟨_, rfl, rfl, fun h => ?_⟩
  have hnodup : ["C1", "C1"].Nodup := h.nodup
  exact absurd hnodup (by decide)

end ReplayOrderMatcher

end FixHandler.Tmalpha
