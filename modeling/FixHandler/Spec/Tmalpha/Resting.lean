import Mathlib
import FixHandler.Spec.Tmalpha.OneState

/-!
# What rests does not match

A new order is matched with the market data before it works, and new market data is matched
with the working orders of its contract. A change is not matched with anything: a changed
order may rest at a price that would fill it, until the next market data.

## Key results

- `fresh_run`: with fresh ids, every order has one state
- `resting_iff`: the runs in which no working order matches the latest market data
-/

namespace FixHandler.Tmalpha

open Ems (Order)

/-- The id under which a call adds an order. -/
def Call.addedId (c : Call) : Option String :=
  match c.request with
  | .add o => some o.clientOrderId
  | _ => none

namespace ReplayOrderMatcher

/-! ## Fresh ids -/

/-- The tables know no other ids. -/
def Known (ids : List String) (s : ReplayOrderMatcher) : Prop :=
  ∀ id, id ∈ s.workingOrders ∨ id ∈ s.filledOrders ∨ id ∈ s.canceledOrders → id ∈ ids

/-- The matcher that is created knows no order. -/
theorem Known.empty (tradeRate : Int32) : Known [] (create tradeRate) := by
  rintro id (h | h | h) <;> exact absurd h Std.TreeMap.not_mem_emptyc

/-- An order that is added is known afterwards, filled at once or working. -/
theorem Known.add {s : ReplayOrderMatcher} {ids : List String} (h : Known ids s) (o : Order) :
    (add o s).Sat (fun _ s' => Known (ids ++ [o.clientOrderId]) s') (fun _ _ => True) := by
  have hold : ∀ id, id ∈ s.workingOrders ∨ id ∈ s.filledOrders ∨ id ∈ s.canceledOrders →
      id ∈ ids ++ [o.clientOrderId] := fun id h' => List.mem_append_left _ (h id h')
  have hnew : o.clientOrderId ∈ ids ++ [o.clientOrderId] :=
    List.mem_append_right _ (List.mem_singleton.mpr rfl)
  refine add_sat (fun _ _ => trivial) (fun o' hmatch id h' => ?_) (fun position _ _ id h' => ?_)
    fun _ _ _ => trivial
  · -- the order is filled at once
    obtain ⟨_, best, _, _, _, rfl⟩ := hasMatching_true hmatch
    rcases h' with h' | h' | h'
    · exact hold id (.inl h')
    · rcases Std.TreeMap.mem_insert_iff.mp h' with rfl | h'
      · exact hnew
      · exact hold id (.inr (.inl h'))
    · exact hold id (.inr (.inr h'))
  · -- it waits at its position
    rcases h' with h' | h'
    · rcases Std.TreeMap.mem_insert_iff.mp h' with rfl | h'
      · exact hnew
      · exact hold id (.inl h')
    · exact hold id (.inr h')

/-- A change makes no new id known. -/
theorem Known.change {s : ReplayOrderMatcher} {ids : List String} (h : Known ids s) (o : Order) :
    (change o s).Sat (fun _ s' => Known ids s') (fun _ _ => True) := by
  refine change_sat (fun _ _ => h) (fun _ _ _ _ hworking _ id h' => ?_) fun _ _ _ => trivial
  rcases h' with h' | h'
  · rcases Std.TreeMap.mem_insert_iff.mp h' with rfl | h'
    · exact h _ (.inl (Std.TreeMap.mem_of_getElem? hworking))
    · exact h id (.inl h')
  · exact h id (.inr h')

/-- A delete moves an id that is known to the canceled ones. -/
theorem Known.delete {s : ReplayOrderMatcher} {ids : List String} (h : Known ids s) (o : Order) :
    (delete o s).Sat (fun _ s' => Known ids s') (fun _ _ => True) := by
  refine delete_sat (fun _ => h) fun _ _ _ _ hworking id h' => ?_
  rcases h' with h' | h' | h'
  · exact h id (.inl (Std.TreeMap.mem_erase_iff.mp h').2)
  · exact h id (.inr (.inl h'))
  · rcases Std.TreeMap.mem_insert_iff.mp h' with rfl | h'
    · exact h _ (.inl (Std.TreeMap.mem_of_getElem? hworking))
    · exact h id (.inr (.inr h'))

/-- Market data moves ids from the working orders to the filled ones only. -/
theorem Known.onStateChanged {s : ReplayOrderMatcher} {ids : List String} (h : Known ids s)
    (hone : s.OneState) (l2 : Dms.L2) (bidVolumn askVolumn : UInt32) :
    (onStateChanged l2 bidVolumn askVolumn s).Sat (fun _ s' => Known ids s') (fun _ _ => True) := by
  refine (hone.onStateChanged_sat (I := fun _ s => Known ids s) h (fun _ _ _ _ h _ _ => h)
    (fun id rest s info info' h hinfo _ _ id' h' => ?_)
    fun kept id rest s info info' h hinfo _ _ hid id' h' => ?_).mono (fun _ _ h => h.2) fun _ _ h => h
  · -- an order that is rematched keeps working under its id
    have hknown : id ∈ ids := h id (.inl (Std.TreeMap.mem_of_getElem? hinfo))
    rcases h' with h' | h'
    · rcases Std.TreeMap.mem_insert_iff.mp h' with rfl | h'
      · exact hknown
      · exact h id' (.inl h')
    · exact h id' (.inr h')
  · -- an order that is filled was a working one
    have hknown : id ∈ ids := h id (.inl (Std.TreeMap.mem_of_getElem? hinfo))
    rcases h' with h' | h' | h'
    · rcases Std.TreeMap.mem_insert_iff.mp (Std.TreeMap.mem_erase_iff.mp h').2 with rfl | h'
      · exact hknown
      · exact h id' (.inl h')
    · rcases Std.TreeMap.mem_insert_iff.mp h' with rfl | h'
      · rwa [hid]
      · exact h id' (.inr (.inl h'))
    · exact h id' (.inr (.inr h'))

/-- After a call the known ids are the old ones and the one it adds. -/
theorem Known.step {s s' : ReplayOrderMatcher} {ids : List String} (h : Known ids s)
    (hone : s.OneState) {c : Call} (hstep : step c s = .ok () s') :
    Known (ids ++ c.addedId.toList) s' := by
  -- the clock of the call is no part of the three maps
  have hnow : Known ids { s with now := c.now } := h
  have hsat : (handle c.request { s with now := c.now }).Sat
      (fun _ s' => Known (ids ++ c.addedId.toList) s') (fun _ _ => True) := by
    unfold Call.addedId
    cases c.request with
    | add o => exact hnow.add o
    | change o =>
      rw [Option.toList_none, List.append_nil]
      exact hnow.change o
    | delete o =>
      rw [Option.toList_none, List.append_nil]
      exact hnow.delete o
    | query o =>
      rw [Option.toList_none, List.append_nil]
      exact query_sat fun _ => hnow
    | stateChanged l2 bidVolumn askVolumn =>
      rw [Option.toList_none, List.append_nil]
      exact hnow.onStateChanged hone l2 bidVolumn askVolumn
  have hresult : handle c.request { s with now := c.now } = .ok () s' := hstep
  rw [hresult] at hsat
  exact hsat

/-- The id of an order that is added is not known yet. -/
theorem Known.addable {s : ReplayOrderMatcher} {ids : List String} (h : Known ids s) {o : Order}
    (ho : o.clientOrderId ∉ ids) : s.Addable o :=
  ⟨fun h' => ho (h _ (.inl h')), fun h' => ho (h _ (.inr (.inr h'))),
    fun h' => absurd (h _ (.inr (.inl h'))) ho⟩

/-- With fresh ids every order has one state. -/
theorem fresh_run {tradeRate : Int32} {calls : List Call}
    (hfresh : (calls.filterMap Call.addedId).Nodup) {before : List Call} (hbefore : before <+: calls)
    {s : ReplayOrderMatcher} (hs : run tradeRate before = .ok () s) :
    s.OneState ∧ Known (before.filterMap Call.addedId) s := by
  refine run_induction (P := fun before s => s.OneState ∧ Known (before.filterMap Call.addedId) s)
    ⟨Exclusive.empty, Known.empty tradeRate⟩ (fun before c s s' hpfx ih _ hstep => ?_) hbefore hs
  obtain ⟨hone, hknown⟩ := ih
  have hlast : (before ++ [c]).filterMap Call.addedId =
      before.filterMap Call.addedId ++ c.addedId.toList := by
    rw [List.filterMap_append]
    cases hid : c.addedId <;> simp [hid]
  refine ⟨hone.step (fun o ho => ?_) hstep, hlast ▸ hknown.step hone hstep⟩
  refine hknown.addable fun hold => ?_
  -- the id that is added is not among the ids added before
  have hid : c.addedId = some o.clientOrderId := by rw [Call.addedId, ho]
  have hnodup := (hpfx.filterMap Call.addedId).sublist.nodup hfresh
  rw [hlast, hid] at hnodup
  exact (List.nodup_append.mp hnodup).2.2 _ hold _ (List.mem_singleton.mpr rfl) rfl

/-! ## Resting orders -/

/-- The working orders that match the market data are `pending`. -/
def RestingBut (pending : String → OrderInfo → Prop) (s : ReplayOrderMatcher) : Prop :=
  ∀ (id : String) (info : OrderInfo) (state : CurrentState), s.workingOrders[id]? = some info →
    s.currentStates[info.order.contract]? = some state → Marketable info.order state.l2 →
    pending id info

/-- No working order matches the latest market data of its contract. -/
def Resting (s : ReplayOrderMatcher) : Prop :=
  ∀ (id : String) (info : OrderInfo) (state : CurrentState), s.workingOrders[id]? = some info →
    s.currentStates[info.order.contract]? = some state → ¬ Marketable info.order state.l2

section Resting

variable {s s' : ReplayOrderMatcher} {pending pending' : String → OrderInfo → Prop} {id : String}
  {info : OrderInfo}

/-- An order is put among the working ones. -/
theorem RestingBut.insert (h : RestingBut pending s)
    (hpending : ∀ id' info', id' ≠ id → pending id' info' → pending' id' info')
    (hnew : ∀ state, s.currentStates[info.order.contract]? = some state →
      Marketable info.order state.l2 → pending' id info)
    (hworking : s'.workingOrders = s.workingOrders.insert id info)
    (hstates : s'.currentStates = s.currentStates) : RestingBut pending' s' := by
  intro id' info' state hinfo' hstate hmatch
  rw [hworking, Std.TreeMap.getElem?_insert_if] at hinfo'
  rw [hstates] at hstate
  split at hinfo'
  · next heq =>
    cases hinfo'
    exact heq ▸ hnew state hstate hmatch
  · next hne => exact hpending id' info' hne (h id' info' state hinfo' hstate hmatch)

/-- An order is taken out of the working ones. -/
theorem RestingBut.erase (h : RestingBut pending s)
    (hpending : ∀ id' info', id' ≠ id → pending id' info' → pending' id' info')
    (hworking : s'.workingOrders = s.workingOrders.erase id)
    (hstates : s'.currentStates = s.currentStates) : RestingBut pending' s' := by
  intro id' info' state hinfo' hstate hmatch
  rw [hworking, Std.TreeMap.getElem?_erase_if] at hinfo'
  rw [hstates] at hstate
  split at hinfo'
  · exact nomatch hinfo'
  · next hne => exact hpending id' info' hne (h id' info' state hinfo' hstate hmatch)

/-- What is kept of an order while it works does not matter for matching. -/
theorem marketable_workingOrder {now : Ems.Timestamp} {o : Order} {exchangeOrderId : String}
    {l2 : Dms.L2} : Marketable (workingOrder now o exchangeOrderId) l2 ↔ Marketable o l2 :=
  marketable_congr rfl rfl rfl

/-- A new order that matches does not work. -/
theorem Resting.add (h : s.Resting) (o : Order) :
    (add o s).Sat (fun _ s' => s'.Resting) (fun _ _ => True) := by
  refine add_sat (fun _ _ => trivial) (fun o' _ => h) (fun position hmatch _ => ?_)
    fun _ _ _ => trivial
  refine RestingBut.insert h (fun _ _ _ (hfalse : False) => hfalse)
    (fun state hstate hnew => ?_) rfl rfl
  rw [marketable_workingOrder] at hnew
  replace hstate : s.currentStates[o.contract]? = some state := hstate
  rw [hasMatching, hstate] at hmatch
  exact not_marketable_of_false hmatch hnew

/-- A change keeps the orders resting where the changed order is not marketable. -/
theorem Resting.change (h : s.Resting) {o : Order}
    (ho : o.clientOrderId ∈ s.workingOrders → ∀ state,
      s.currentStates[o.contract]? = some state → ¬ Marketable o state.l2) :
    (change o s).Sat (fun _ s' => s'.Resting) (fun _ _ => True) := by
  refine change_sat (fun _ _ => h) (fun working position _ _ hworking _ => ?_) fun _ _ _ => trivial
  refine RestingBut.insert h (fun _ _ _ (hfalse : False) => hfalse)
    (fun state hstate hnew => ?_) rfl rfl
  rw [marketable_workingOrder] at hnew
  exact ho (Std.TreeMap.mem_of_getElem? hworking) state hstate hnew

/-- A delete takes a working order away and adds none. -/
theorem Resting.delete (h : s.Resting) (o : Order) :
    (delete o s).Sat (fun _ s' => s'.Resting) (fun _ _ => True) :=
  delete_sat (fun _ => h) fun _ _ _ _ _ =>
    RestingBut.erase h (fun _ _ _ (hfalse : False) => hfalse) rfl rfl

/-- Market data is matched with all working orders of its contract, in the order they came:
    those that are left for a later turn may match. -/
theorem Resting.onStateChanged (h : s.Resting) (hone : s.OneState) (l2 : Dms.L2)
    (bidVolumn askVolumn : UInt32) :
    (onStateChanged l2 bidVolumn askVolumn s).Sat (fun _ s' => s'.Resting) (fun _ _ => True) := by
  refine (hone.onStateChanged_sat
    (I := fun rest => RestingBut fun id info => info.order.contract = l2.contract ∧ id ∈ rest)
    (fun id info state hinfo hstate hmatch => ?_) (fun id rest s info hI hinfo hcontract => ?_)
    (fun id rest s info info' hI hinfo hcontract hmatch => ?_)
    fun kept id rest s info info' hI hinfo hcontract hmatch hid => ?_).mono
    (fun _ s' hs' id info state hinfo hstate hmatch => ?_) fun _ _ h => h
  · -- the other contracts keep their market data
    rw [Std.TreeMap.getElem?_insert_if] at hstate
    split at hstate
    · next heq => exact ⟨heq, (hone.mem_ids id).mpr (Std.TreeMap.mem_of_getElem? hinfo)⟩
    · exact absurd hmatch (h id info state hinfo hstate)
  · -- an order of another contract is passed by, so what is pending lies behind it
    intro id' info' state hinfo' hstate hmatch
    obtain ⟨hcontract', hmem⟩ := hI id' info' state hinfo' hstate hmatch
    refine ⟨hcontract', (List.mem_cons.mp hmem).resolve_left fun heq => ?_⟩
    rw [heq, hinfo] at hinfo'
    cases hinfo'
    exact hcontract hcontract'
  · -- an order that does not match is not marketable at the new data
    refine RestingBut.insert hI (fun id' info'' hne hpending => ?_)
      (fun state hstate hnew => ?_) rfl rfl
    · exact ⟨hpending.1, (List.mem_cons.mp hpending.2).resolve_left hne⟩
    · obtain ⟨price, horder⟩ := hasRematching_order hmatch
      have hsame : info'.order.contract = info.order.contract := by rw [horder]
      rw [hsame] at hstate
      rcases hasRematching_cases hmatch with
        ⟨hnone, -⟩ | ⟨state', hstate', ⟨hfalse, -⟩ | ⟨hprice, hsame, -⟩⟩
      · rw [hnone] at hstate
        exact nomatch hstate
      · exact nomatch hfalse
      · rw [hstate'] at hstate
        cases hstate
        rw [hsame] at hnew
        exact absurd hnew (not_marketable_of_false hprice)
  · -- the order that is filled works no longer
    have hinsert : RestingBut (fun id' info'' => id' = id ∨
        info''.order.contract = l2.contract ∧ id' ∈ rest)
        { s with workingOrders := s.workingOrders.insert id info' } :=
      RestingBut.insert hI (fun id' info'' hne hpending =>
        .inr ⟨hpending.1, (List.mem_cons.mp hpending.2).resolve_left hne⟩)
        (fun _ _ _ => .inl rfl) rfl rfl
    refine RestingBut.erase hinsert (fun id' info'' hne hpending =>
      hpending.resolve_left hne) ?_ rfl
    show (s.workingOrders.insert id info').erase info'.order.clientOrderId = _
    rw [hid]
  · -- behind the last of the ids nothing is pending
    exact List.not_mem_nil (hs'.2 id info state hinfo hstate hmatch).2

/-- A change of a working order is kept as it is asked for. -/
theorem Resting.of_change (hone : s.OneState) {o : Order}
    (hchange : ReplayOrderMatcher.change o s = .ok () s') (h : s'.Resting)
    (hworking : o.clientOrderId ∈ s.workingOrders) {state : CurrentState}
    (hstate : s.currentStates[o.contract]? = some state) : ¬ Marketable o state.l2 := by
  -- `Change` puts the order back unmatched, whatever the market says
  have hsat : (ReplayOrderMatcher.change o s).Sat (fun _ s' => s'.Resting → ¬ Marketable o state.l2)
      (fun _ _ => True) := by
    refine change_sat (fun _ hrefused => ?_) (fun working position _ _ _ _ h hmatch => ?_)
      fun _ _ _ => trivial
    · -- a working order is neither filled nor canceled, so the change is not refused
      rcases hrefused with hfilled | hcanceled | hunknown
      · exact absurd hfilled (hone.not_filled _ hworking)
      · exact absurd hcanceled (hone.not_canceled _ hworking)
      · exact absurd hworking hunknown
    · exact h o.clientOrderId
        { order := workingOrder s.now o working.order.exchangeOrderId, position } state
        Std.TreeMap.getElem?_insert_self hstate (marketable_workingOrder.mpr hmatch)
  rw [hchange] at hsat
  exact hsat h

/-- A call leaves nothing resting that matches, if what it changes does not match. -/
theorem Resting.step (h : s.Resting) (hone : s.OneState) {c : Call}
    (hchange : ∀ o, c.request = .change o → o.clientOrderId ∈ s.workingOrders → ∀ state,
      s.currentStates[o.contract]? = some state → ¬ Marketable o state.l2)
    (hstep : step c s = .ok () s') : s'.Resting := by
  -- the clock of the call is no part of the orders and the market data
  have hnow : Resting { s with now := c.now } := h
  have hsat : (handle c.request { s with now := c.now }).Sat (fun _ s' => s'.Resting)
      (fun _ _ => True) := by
    cases hrequest : c.request with
    | add o => exact hnow.add o
    | change o => exact hnow.change (hchange o hrequest)
    | delete o => exact hnow.delete o
    | query o => exact query_sat fun _ => hnow
    | stateChanged l2 bidVolumn askVolumn =>
      exact hnow.onStateChanged (s := { s with now := c.now }) hone l2 bidVolumn askVolumn
  have hresult : handle c.request { s with now := c.now } = .ok () s' := hstep
  rw [hresult] at hsat
  exact hsat

end Resting

/-- With fresh ids no working order matches after any call of a run exactly if no working
    order is changed into one that matches. -/
theorem resting_iff (tradeRate : Int32) (calls : List Call)
    (hfresh : (calls.filterMap Call.addedId).Nodup) :
    (∀ before, before <+: calls → ∀ s, run tradeRate before = .ok () s → s.Resting) ↔
      ∀ before c, before ++ [c] <+: calls → ∀ s s', run tradeRate before = .ok () s →
        step c s = .ok () s' → ∀ o, c.request = .change o → o.clientOrderId ∈ s.workingOrders →
          ∀ state, s.currentStates[o.contract]? = some state → ¬ Marketable o state.l2 := by
  constructor
  · -- a marketable order that a change leaves behind breaks the state after the call
    intro h before c hpfx s s' hs hstep o ho hworking state hstate
    have hbefore : before <+: calls := (List.prefix_append before [c]).trans hpfx
    have hafter := h (before ++ [c]) hpfx s' ((run_concat hs c).trans hstep)
    have hchange : handle c.request { s with now := c.now } = .ok () s' := hstep
    rw [ho] at hchange
    exact Resting.of_change (s := { s with now := c.now }) (fresh_run hfresh hbefore hs).1 hchange
      hafter hworking hstate
  · intro h before hpfx s hs
    refine run_induction (P := fun _ s => s.Resting) (fun id info state hinfo => ?_)
      (fun before c s s' hpfx hresting hs hstep => ?_) hpfx hs
    · -- nothing works before the first call
      replace hinfo : (∅ : Std.TreeMap String OrderInfo)[id]? = some info := hinfo
      rw [Std.TreeMap.getElem?_emptyc] at hinfo
      exact nomatch hinfo
    · have hbefore : before <+: calls := (List.prefix_append before [c]).trans hpfx
      exact hresting.step (fresh_run hfresh hbefore hs).1
        (fun o ho => h before c hpfx s s' hs hstep o ho) hstep

/-- A limit order that buys one lot -/
private def limitBuy (price : String) : Order :=
  { clientOrderId := "C1", contract := "T1", buySell := .buy, price, quantity := 1, orderType := .limit }

/-- One lot is offered at 10. An order to buy at 9 works, and is changed to 10. -/
private def raisedBuy : List Call :=
  [⟨.stateChanged { contract := "T1", bid := [], offer := [⟨.fin 10, 1⟩] } 0 0, {}⟩,
    ⟨.add (limitBuy "9"), {}⟩, ⟨.change (limitBuy "10"), {}⟩]

/-- The condition for the calls in which a buy is raised to the offer. -/
theorem resting_iff_raised :
    (raisedBuy.filterMap Call.addedId).Nodup ∧
      ((∀ before, before <+: raisedBuy → ∀ s, run 100 before = .ok () s → s.Resting) ↔
        ∀ before c, before ++ [c] <+: raisedBuy → ∀ s s', run 100 before = .ok () s →
          step c s = .ok () s' → ∀ o, c.request = .change o →
            o.clientOrderId ∈ s.workingOrders → ∀ state,
              s.currentStates[o.contract]? = some state → ¬ Marketable o state.l2) :=
  have hfresh : (raisedBuy.filterMap Call.addedId).Nodup := by decide
  ⟨hfresh, resting_iff 100 raisedBuy hfresh⟩

/-- The order is left working at the price of the offer. -/
theorem raised_buy_rests :
    (raisedBuy.filterMap Call.addedId).Nodup ∧
      ∃ s, run 100 raisedBuy = .ok () s ∧ ¬ s.Resting := by
  -- the run, evaluated: C1 works and would match the offer
  have hmatch : (match run 100 raisedBuy with
      | .ok _ s => (s.workingOrders["C1"]?).any fun info =>
          (s.currentStates[info.order.contract]?).any fun state =>
            decide (Marketable info.order state.l2)
      | .error _ _ => false) = true := by decide +kernel
  refine ⟨by decide, ?_⟩
  cases hrun : run 100 raisedBuy with
  | error e s =>
    rw [hrun] at hmatch
    exact nomatch hmatch
  | ok a s =>
    simp only [hrun, Option.any_eq_true] at hmatch
    obtain ⟨info, hinfo, state, hstate, hmatch⟩ := hmatch
    exact ⟨s, rfl, fun h => h "C1" info state hinfo hstate (of_decide_eq_true hmatch)⟩

end ReplayOrderMatcher

end FixHandler.Tmalpha
