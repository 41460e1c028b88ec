import Mathlib
import FixHandler.Spec.Trade.OrderLife

/-!
# The representation of an order box

The maps and queues of a box fit together in every state of every run
(`BoxInvariant`), an order that is cancelled or completely filled stays so, and
a query reports the status of an id.

`Query_order` decides by the sum of the fills whether an id was filled, and that
sum wraps around: an id whose fills total a multiple of `2 ^ 64` is reported as
unknown. A `Change` lets an id trade more than 64 bits can hold.

## Key results

- `boxInvariant`: the representation invariant
- `orderStatus_step`: a terminal status stays
- `order_box_invariant_iff`: all three hold exactly if no settled id has such fills
-/

namespace FixHandler.Trade

open Cxx (Exception Heap Ptr)
open Ems (Order Fill OrderStatus)

/-- The maps and queues of a box agree: no id is both working and cancelled, every
    working order is queued once, at its price on its side, what is queued works,
    no queue is empty, and every working order has something left. -/
structure BoxInvariant (b : TradeOrderBox) : Prop where
  disjoint : ∀ id : String, ¬ (b.workingOrders.contains id ∧ b.canceledOrders.contains id)
  queued : ∀ (id : String) p, b.workingOrders[id]? = some p →
    ∃ o cp queue, b.heap.cells p = some o ∧ ComparablePrice.ofOrder o = .ok cp ∧
      b.get? cp = some queue ∧ queue.count p = 1 ∧
      ∀ cp' queue', b.get? cp' = some queue' → p ∈ queue' → cp' = cp
  works : ∀ cp queue, b.get? cp = some queue → queue ≠ [] ∧
    ∀ p ∈ queue, ∃ o, b.heap.cells p = some o ∧ b.workingOrders[o.clientOrderId]? = some p
  quantity : ∀ (id : String) p, b.workingOrders[id]? = some p →
    ∃ o, b.heap.cells p = some o ∧ o.clientOrderId = id ∧ 0 < o.quantity

/-- A box that is in order satisfies the invariant. -/
theorem boxInvariant {b : TradeOrderBox} (hb : b.WF) : BoxInvariant b where
  disjoint id := by
    rintro ⟨hw, hc⟩
    rw [Std.TreeMap.contains_eq_isSome_getElem?] at hw hc
    obtain ⟨p, hp⟩ := Option.isSome_iff_exists.mp hw
    rw [hb.disjoint hp] at hc
    exact nomatch hc
  queued id p hp := by
    obtain ⟨o, ho, hid⟩ := hb.working hp
    subst hid
    have hold : b.Holds p o := ⟨hp, ho⟩
    -- what works is queued at its price
    have hin : o.clientOrderId ∈ b.ledger.queue (priceOf o) :=
      hb.ledger.queued.mpr ⟨o, hold.ledger, rfl⟩
    cases hq : b.get? (priceOf o) with
    | none => simp [TradeOrderBox.ledger, hq] at hin
    | some queue =>
      refine ⟨o, priceOf o, queue, ho, (hb.ledger.working hold.ledger).priced, hq, ?_, ?_⟩
      · have hnd := hb.ledger.nodup (priceOf o)
        simp only [TradeOrderBox.ledger, hq, Option.getD_some] at hnd hin
        -- the pointer with this id in the queue is `p`
        obtain ⟨p', hp', hid⟩ := List.mem_map.mp hin
        obtain ⟨w, hw, -⟩ := (hb.queue hq).2 p' hp'
        have hpp : p' = p := by
          have := hw.1
          rw [← hw.idOf, hid, hp] at this
          exact (Option.some.inj this).symm
        subst hpp
        exact List.count_eq_one_of_mem hnd.of_map hp'
      · intro cp' queue' hq' hp'
        obtain ⟨w, hw, hcp⟩ := (hb.queue hq').2 p hp'
        have := hw.2
        rw [ho] at this
        cases this
        exact hcp.symm
  works cp queue hq := by
    refine ⟨(hb.queue hq).1, fun p hp => ?_⟩
    obtain ⟨w, hw, -⟩ := (hb.queue hq).2 p hp
    exact ⟨w, hw.2, hw.1⟩
  quantity id p hp := by
    obtain ⟨o, ho, hid⟩ := hb.working hp
    subst hid
    refine ⟨o, ho, rfl, UInt64.pos_iff_ne_zero.mpr ?_⟩
    exact (hb.ledger.working (TradeOrderBox.Holds.ledger ⟨hp, ho⟩)).quantity

/-! ## Terminal states -/

namespace Ledger

/-- A cancelled order stays cancelled. -/
theorem canceled_apply {b : Ledger} (hb : b.WF) {a : Act} (hg : b.guard a) {id : String} {o : Order}
    (h : b.canceled id = some o) : (b.apply a).canceled id = some o := by
  cases a with
  | trade o' w f q p => rw [trade_canceled]; exact h
  | rest o' => exact h
  | archive o' =>
    -- an id that is recorded now was not cancelled before
    have hne : id ≠ o'.clientOrderId := by
      rintro rfl
      rw [hg.2] at h
      exact nomatch h
    simp only [apply, Function.update_of_ne hne]
    exact h
  | cancel w =>
    have hne : id ≠ w.clientOrderId := by
      rintro rfl
      rw [hb.disjoint hg] at h
      exact nomatch h
    simp only [apply, Function.update_of_ne hne]
    exact h
  | withdraw w => exact h

/-- Along a run a cancelled order stays cancelled. -/
theorem canceled_exec {b : Ledger} (hb : b.WF) {as : List Act} (hr : machine.Runs b as)
    {id : String} {o : Order} (h : b.canceled id = some o) :
    (machine.exec b as).canceled id = some o :=
  (hr.invariant (I := fun b => b.WF ∧ b.canceled id = some o)
    (fun _ _ hI hg => ⟨hI.1.apply hg, canceled_apply hI.1 hg hI.2⟩) ⟨hb, h⟩).2

end Ledger

namespace TradeSimulater

/-- The status of an id when it is cancelled. -/
theorem orderStatus_eq_one_iff {b : TradeOrderBox} (hb : b.Rep) {id : String} :
    b.orderStatus id = 1 ↔ ∃ o, b.ledger.canceled id = some o := by
  rw [TradeOrderBox.orderStatus_eq hb, ← Option.isSome_iff_exists]
  split
  · next h => simp [h]
  · next h =>
    split
    · simp [h]
    · split <;> simp [h]

/-- The status of an id when it is completely filled. -/
theorem orderStatus_eq_three_iff {b : TradeOrderBox} (hb : b.Rep) {id : String} :
    b.orderStatus id = 3 ↔ b.ledger.working id = none ∧ b.ledger.canceled id = none ∧
      b.fillsOf id ≠ [] := by
  rw [TradeOrderBox.orderStatus_eq hb]
  cases b.ledger.canceled id <;> cases b.ledger.working id <;> simp

/-- A request leaves a terminal status as it is. -/
theorem orderStatus_step {s : TradeSimulater} (hs : s.WF) (r : Request) {c : String}
    {b b' : TradeOrderBox} (hb : s.box c = some b) (hb' : (s.step r).box c = some b') {id : String}
    (h : b.orderStatus id = 1 ∨ b.orderStatus id = 3) : b'.orderStatus id = b.orderStatus id := by
  have hwf := (hs.box hb).1
  have hwf' := ((hs.step r).box hb').1
  cases box_cases hs r hb hb' with
  | kept hno h => rw [h]
  | served hyes hc acts done hplan hdone hledger hend =>
    subst hc
    have hruns := (hplan.runs hwf.ledger).of_isPrefix hdone
    rcases h with h | h
    · obtain ⟨o, ho⟩ := (orderStatus_eq_one_iff hwf.toRep).mp h
      rw [h, orderStatus_eq_one_iff hwf'.toRep, hledger]
      exact ⟨o, Ledger.canceled_exec hwf.ledger hruns ho⟩
    · obtain ⟨hw, hcn, hf⟩ := (orderStatus_eq_three_iff hwf.toRep).mp h
      -- a request for this very id would have been refused
      have hid : id ≠ (s.pendingOf r).clientOrderId := by
        rintro rfl
        have hst := orderStatus_of_box hb (s.pendingOf r).clientOrderId
        rw [h, pendingOf_clientOrderId] at hst
        cases r with
        | add o => exact absurd (hst.symm.trans hyes.2) (by decide)
        | change o => exact absurd (hst.symm.trans hyes.2) (by decide)
        | delete o => exact absurd (hst.symm.trans hyes.2) (by decide)
      -- the request is about another order, so that this one stays closed
      have hclosed := Ledger.closed_exec hruns
        (fun a ha => hplan.incoming hwf.ledger hid a (hdone.subset ha)) hw hcn
      rw [h, orderStatus_eq_three_iff hwf'.toRep]
      refine ⟨by rw [hledger]; exact hclosed.1, by rw [hledger]; exact hclosed.2, ?_⟩
      have hfills : b'.filledOrders = b.filledOrders ++ done.flatMap Act.fills :=
        (congrArg Ledger.fills hledger).trans (Ledger.exec_fills b.ledger done)
      rw [TradeOrderBox.fillsOf, hfills, List.filter_append]
      intro hnil
      exact hf (List.append_eq_nil_iff.mp hnil).1

/-- A terminal status stays for ever. -/
theorem orderStatus_run {s : TradeSimulater} (hs : s.WF) (rs : List Request) {c : String}
    {b b' : TradeOrderBox} (hb : s.box c = some b) (hb' : (s.run rs).box c = some b') {id : String}
    (h : b.orderStatus id = 1 ∨ b.orderStatus id = 3) : b'.orderStatus id = b.orderStatus id := by
  induction rs generalizing s b with
  | nil =>
    rw [run_nil, hb] at hb'
    cases hb'; rfl
  | cons r rs ih =>
    have hsome : ((s.step r).box c).isSome := by rw [box_isSome_step hs, hb]; rfl
    obtain ⟨b₁, hb₁⟩ := Option.isSome_iff_exists.mp hsome
    have hstep := orderStatus_step hs r hb hb₁ h
    rw [ih (hs.step r) hb₁ hb' (by rw [hstep]; exact h), hstep]

/-! ## Queries -/

/-- The status a query should report for each status of an id. -/
def statusOf : Nat → OrderStatus
  | 1 => .cancelled
  | 2 => .working
  | 3 => .filled
  | _ => .rejected

/-- A query reports the status of its id. -/
def QueryAgrees (b : TradeOrderBox) : Prop :=
  ∀ order, ∃ res, b.queryOrder order = .ok res ∧
    res.status = statusOf (b.orderStatus order.clientOrderId)

/-- Queries report the status of every id exactly if no completely filled id has fills
    that total a multiple of `2 ^ 64`. -/
theorem queryAgrees_iff {b : TradeOrderBox} (hb : b.WF) :
    QueryAgrees b ↔ ∀ id, b.ledger.working id = none → b.ledger.canceled id = none →
      b.fillsOf id ≠ [] → b.filledTotal id % 2 ^ 64 ≠ 0 := by
  constructor
  · intro h id hw hc hf h0
    obtain ⟨res, hres, hst⟩ := h { clientOrderId := id }
    obtain ⟨res', hres', hval⟩ := TradeOrderBox.queryOrder_filled hb.toRep
      (show b.ledger.canceled ({ clientOrderId := id } : Order).clientOrderId = none from hc) hw
    rw [hres] at hres'
    cases hres'
    rw [if_pos h0] at hval
    -- the status says filled, and the answer says rejected
    rw [(orderStatus_eq_three_iff hb.toRep).mpr ⟨hw, hc, hf⟩, hval] at hst
    exact nomatch hst
  · intro h order
    have hstatus := TradeOrderBox.orderStatus_eq hb.toRep order.clientOrderId
    cases hc : b.ledger.canceled order.clientOrderId with
    | some o =>
      refine ⟨o, TradeOrderBox.queryOrder_canceled hc, ?_⟩
      rw [hstatus, hc]
      exact (hb.ledger.canceled hc).2
    | none =>
      cases hw : b.ledger.working order.clientOrderId with
      | some o =>
        refine ⟨_, TradeOrderBox.queryOrder_working hb hw, ?_⟩
        rw [hstatus, hc, hw]
        exact (hb.ledger.working hw).status
      | none =>
        obtain ⟨res, hres, hval⟩ := TradeOrderBox.queryOrder_filled hb.toRep hc hw
        refine ⟨res, hres, ?_⟩
        rw [hstatus, hc, hw]
        -- an id without fills is not known, and is rejected
        by_cases hf : b.fillsOf order.clientOrderId = []
        · have h0 : b.filledTotal order.clientOrderId = 0 := by
            simp [TradeOrderBox.filledTotal, hf]
          rw [h0, if_pos (Nat.zero_mod _)] at hval
          simp [hf, hval, statusOf]
        · rw [if_neg (h _ hw hc hf)] at hval
          simp [hf, hval.1, statusOf]

/-- Fills of a contract that total less than `2 ^ 64` do not wrap around for any id. -/
theorem filledTotal_mod_ne_zero {b : TradeOrderBox} {id : String}
    (hpos : ∀ f ∈ b.filledOrders, f.fillQuantity ≠ 0)
    (hsum : (b.filledOrders.map (·.fillQuantity.toNat)).sum < 2 ^ 64) (hf : b.fillsOf id ≠ []) :
    b.filledTotal id % 2 ^ 64 ≠ 0 := by
  obtain ⟨f, hmem⟩ := List.exists_mem_of_ne_nil _ hf
  have hle : b.filledTotal id ≤ (b.filledOrders.map (·.fillQuantity.toNat)).sum :=
    ((List.filter_sublist (l := b.filledOrders)).map _).sum_le_sum (fun _ _ => Nat.zero_le _)
  have hone : f.fillQuantity.toNat ≤ b.filledTotal id :=
    List.le_sum_of_mem (List.mem_map_of_mem (f := fun f => f.fillQuantity.toNat) hmem)
  have hne : f.fillQuantity.toNat ≠ 0 := fun h0 =>
    hpos f (List.mem_of_mem_filter hmem) (UInt64.toNat_inj.mp h0)
  rw [Nat.mod_eq_of_lt (by omega)]
  omega

/-- In every state of every run, for every contract: the representation invariant holds,
    terminal statuses stay in all later states, and queries report the statuses, if and
    only if no id that neither works nor is cancelled has recorded fills whose quantities
    total a multiple of `2 ^ 64`. -/
theorem order_box_invariant_iff (clock : Nat → Ems.Timestamp) (contracts : List TradeContract)
    (rs : List Request) (c : String) (b : TradeOrderBox)
    (hb : ((started clock contracts).run rs).box c = some b) :
    (BoxInvariant b ∧
      (∀ id, b.orderStatus id = 1 ∨ b.orderStatus id = 3 → ∀ rs' b',
        ((started clock contracts).run (rs ++ rs')).box c = some b' →
        b'.orderStatus id = b.orderStatus id) ∧
      QueryAgrees b) ↔
    ∀ id : String, ¬ b.workingOrders.contains id → ¬ b.canceledOrders.contains id →
      b.fillsOf id ≠ [] → b.filledTotal id % 2 ^ 64 ≠ 0 := by
  have hs := (WF.started clock contracts).run rs
  have hwf := (hs.box hb).1
  -- the tables and the ledger know the same ids
  have hnone : ∀ {m : Std.TreeMap String Ptr} {id : String},
      ¬ m.contains id ↔ m[id]? = none := by
    intro m id
    rw [Std.TreeMap.contains_eq_isSome_getElem?, Bool.not_eq_true, Option.isSome_eq_false_iff,
      Option.isNone_iff_eq_none]
  have hw : ∀ id, b.workingOrders[id]? = none ↔ b.ledger.working id = none := fun id =>
    ⟨fun h => by simp [TradeOrderBox.ledger, h], hwf.working_none⟩
  have hc : ∀ id, b.canceledOrders[id]? = none ↔ b.ledger.canceled id = none := fun id =>
    ⟨fun h => by simp [TradeOrderBox.ledger, h], hwf.canceled_none⟩
  simp only [hnone, hw, hc]
  rw [← queryAgrees_iff hwf]
  refine ⟨fun h => h.2.2, fun h => ⟨boxInvariant hwf, fun id hid rs' b' hb' => ?_, h⟩⟩
  rw [run_append] at hb'
  exact orderStatus_run hs rs' hb hb' hid

/-- Two sell orders of `2 ^ 63` fill an order that is replaced in between: its fills total
    `2 ^ 64`. -/
def wrappingRequests : List Request :=
  [.add (limitOrder "s1" .sell "1" (2 ^ 63)), .add (limitOrder "x" .buy "1" (2 ^ 63 + 1)),
   .change (limitOrder "x" .buy "1" (2 ^ 63)), .add (limitOrder "s2" .sell "1" (2 ^ 63))]

/-- The status of that order is "completely filled", and a query rejects it as unknown. -/
theorem query_rejects_filled_order :
    ¬ ∀ b, (sampleRun wrappingRequests).box "A" = some b → QueryAgrees b := by
  have heval : ((sampleRun wrappingRequests).box "A").map (fun b => (b.orderStatus "x",
      (b.queryOrder { clientOrderId := "x" }).map (·.status))) = some (3, .ok .rejected) := by
    decide +kernel
  obtain ⟨b, hb, hv⟩ := Option.map_eq_some_iff.mp heval
  intro h
  obtain ⟨res, hres, hst⟩ := h b hb { clientOrderId := "x" }
  rw [hres, Prod.mk.injEq] at hv
  have hstatus : res.status = .rejected := Except.ok.inj hv.2
  rw [hstatus, hv.1] at hst
  exact nomatch hst

/-- After a sell order for five and a buy order for three everything agrees. -/
theorem order_box_invariant_after_partial_fill :
    ∃ b, (sampleRun [.add (limitOrder "1" .sell "1" 5),
        .add (limitOrder "2" .buy "1" 3)]).box "A" = some b ∧
      BoxInvariant b ∧ QueryAgrees b ∧ b.orderStatus "1" = 2 ∧ b.orderStatus "2" = 3 := by
  have heval : ((sampleRun [.add (limitOrder "1" .sell "1" 5),
      .add (limitOrder "2" .buy "1" 3)]).box "A").map (fun b =>
        (b.orderStatus "1", b.orderStatus "2", b.filledOrders.all (·.fillQuantity != 0),
          (b.filledOrders.map (·.fillQuantity.toNat)).sum)) = some (2, 3, true, 6) := by
    decide +kernel
  obtain ⟨b, hb, hv⟩ := Option.map_eq_some_iff.mp heval
  simp only [Prod.mk.injEq, List.all_eq_true, bne_iff_ne] at hv
  obtain ⟨h1, h2, hpos, hsum⟩ := hv
  have hspec := (order_box_invariant_iff (fun _ => {}) sampleContracts _ "A" b hb).mpr
    (fun id _ _ hf => filledTotal_mod_ne_zero hpos (by rw [hsum]; decide) hf)
  exact ⟨b, hb, hspec.1, hspec.2.2, h1, h2⟩

end TradeSimulater

end FixHandler.Trade
