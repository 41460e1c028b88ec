import Mathlib
import FixHandler.Spec.Trade.OrderLife

/-!
# The exchange id of an order

An `Add` that is accepted draws an exchange id, and the working order, its
cancelled record and all its fills carry it on. A `Change` goes on with the
message of the client instead: from then on they carry the exchange id that the
client has put there.

## Key results

- `Ledger.Identified`: everything recorded of an id carries the same exchange id
- `Identified.step`: only a `Change` with another exchange id can break this
- `exchange_order_id_kept`: every run without such a request
-/

namespace FixHandler.Trade

open Ems (Order Fill)

namespace Ledger

/-- Whatever is recorded of an id carries the exchange id `e`. -/
structure Identified (b : Ledger) (id : String) (e : Option String) : Prop where
  working : ∀ o, b.working id = some o → e = some o.exchangeOrderId
  canceled : ∀ o, b.canceled id = some o → e = some o.exchangeOrderId
  fills : ∀ f ∈ b.fillsOf id, e = some f.exchangeOrderId

/-- What the actions of another id do to an id keeps its exchange id. -/
theorem Identified.apply {b : Ledger} {a : Act} (hg : b.guard a) {id : String} {e : Option String}
    (ha : a.incoming ≠ some id) (h : b.Identified id e) : (b.apply a).Identified id e := by
  have hfills := fillsOf_apply b a id
  rw [Act.filter_fills ha] at hfills
  cases a with
  | trade o w f q p =>
    refine ⟨fun v hv => ?_, fun v hv => ?_, fun g hmem => ?_⟩
    · rw [trade_working] at hv
      split at hv
      · next hid =>
        subst hid
        split at hv
        · exact nomatch hv
        · cases hv
          exact h.working w hg.1
      · exact h.working v hv
    · rw [trade_canceled] at hv
      exact h.canceled v hv
    · rw [hfills, List.mem_append] at hmem
      rcases hmem with hmem | hmem
      · exact h.fills g hmem
      · simp only at hmem
        split at hmem
        · next hid =>
          subst hid
          rw [List.mem_singleton] at hmem
          -- the fill of a resting order carries the order's exchange id
          subst hmem
          exact h.working w hg.1
        · exact absurd hmem List.not_mem_nil
  | rest o =>
    -- the order of the action is another one
    have hid : id ≠ o.clientOrderId := fun heq => ha (congrArg some heq.symm)
    refine ⟨fun v hv => ?_, h.canceled, h.fills⟩
    simp only [Ledger.apply, Function.update_of_ne hid] at hv
    exact h.working v hv
  | archive o =>
    have hid : id ≠ o.clientOrderId := fun heq => ha (congrArg some heq.symm)
    refine ⟨h.working, fun v hv => ?_, h.fills⟩
    simp only [Ledger.apply, Function.update_of_ne hid] at hv
    exact h.canceled v hv
  | cancel w =>
    refine ⟨fun v hv => h.working v (working_of_remove hv), fun v hv => ?_, h.fills⟩
    simp only [Ledger.apply, Function.update_apply] at hv
    split at hv
    · next hid =>
      subst hid
      cases hv
      exact h.working w hg
    · exact h.canceled v hv
  | withdraw w => exact ⟨fun v hv => h.working v (working_of_remove hv), h.canceled, h.fills⟩

/-- An order that comes in with the exchange id of its earlier fills. -/
theorem Identified.arrived {b b' : Ledger} {o : Order} {rounds : List Round} {remainder : OrderSize}
    {isDelete : Bool} (h : Arrived b b' o rounds remainder isDelete)
    (hfills : ∀ f ∈ b.fillsOf o.clientOrderId, f.exchangeOrderId = o.exchangeOrderId) :
    b'.Identified o.clientOrderId (some o.exchangeOrderId) := by
  refine ⟨fun v hv => ?_, fun v hv => ?_, fun f hf => ?_⟩
  · rw [h.working] at hv
    split at hv
    · exact nomatch hv
    · cases hv; rfl
  · rw [h.canceled] at hv
    split at hv
    · exact nomatch hv
    · cases hv; rfl
  · obtain ⟨new, hnew, hex, -⟩ := h.fills
    rw [hnew, List.mem_append] at hf
    exact congrArg some (hf.elim (hfills f) (hex f)).symm

end Ledger

/-- An order or a fill that is recorded for an id carries the exchange id `e`. -/
def TradeOrderBox.Carries (b : TradeOrderBox) (id e : String) : Prop :=
  (∃ p o, (b.workingOrders[id]? = some p ∨ b.canceledOrders[id]? = some p) ∧
    b.heap.cells p = some o ∧ o.exchangeOrderId = e) ∨
  ∃ f ∈ b.filledOrders, f.clientOrderId = id ∧ f.exchangeOrderId = e

/-- Everything that a box keeps under a client id carries the assigned id. -/
theorem TradeOrderBox.Carries.eq {b : TradeOrderBox} {id e : String} (h : b.Carries id e)
    {e' : Option String} (hid : b.ledger.Identified id e') : e' = some e := by
  rcases h with ⟨p, o, hp | hp, ho, rfl⟩ | ⟨f, hf, rfl, rfl⟩
  · exact hid.working o (by simp [TradeOrderBox.ledger, hp, ho])
  · exact hid.canceled o (by simp [TradeOrderBox.ledger, hp, ho])
  · exact hid.fills f (List.mem_filter.mpr ⟨hf, by simp⟩)

namespace TradeSimulater

/-- An exchange id that was assigned to an order. -/
structure Assignment where
  contract : String
  clientOrderId : String
  exchangeOrderId : String
deriving DecidableEq, Repr

/-- What a request assigns: an `Add` that is accepted assigns an exchange id. -/
def assigned (s : TradeSimulater) : Request → List Assignment
  | .add o => if s.Accepts (.add o) then
      [⟨o.contract, o.clientOrderId, (s.pendingOf (.add o)).exchangeOrderId⟩] else []
  | _ => []

/-- What a sequence of requests assigns, in order. -/
def assignments (s : TradeSimulater) : List Request → List Assignment
  | [] => []
  | r :: rs => s.assigned r ++ (s.step r).assignments rs

/-- The exchange id that was assigned to an id of a contract, the last if there are
    several. -/
def assignedTo (as : List Assignment) (c id : String) : Option String :=
  ((as.filter fun a => a.contract == c && a.clientOrderId == id).getLast?).map (·.exchangeOrderId)

/-- A `Change` that repeats the exchange id of the order it replaces. -/
def KeepsIdentity (s : TradeSimulater) : Request → Prop
  | .change o => s.Accepts (.change o) → ∀ b p w, s.box o.contract = some b →
      b.workingOrders[o.clientOrderId]? = some p → b.heap.cells p = some w →
      o.exchangeOrderId = w.exchangeOrderId
  | _ => True

/-- Every order and fill of every contract carries the exchange id assigned to it. -/
def Identified (s : TradeSimulater) (as : List Assignment) : Prop :=
  ∀ c b, s.box c = some b → ∀ id, b.ledger.Identified id (assignedTo as c id)

/-- Assignments to other orders do not count. -/
theorem assignedTo_append_of_ne {as as' : List Assignment} {c id : String}
    (h : ∀ a ∈ as', ¬ (a.contract = c ∧ a.clientOrderId = id)) :
    assignedTo (as ++ as') c id = assignedTo as c id := by
  have hnil : as'.filter (fun a => a.contract == c && a.clientOrderId == id) = [] :=
    List.filter_eq_nil_iff.mpr fun a ha => by simpa using h a ha
  rw [assignedTo, List.filter_append, hnil, List.append_nil, assignedTo]

/-- The last assignment counts. -/
theorem assignedTo_concat (as : List Assignment) (a : Assignment) :
    assignedTo (as ++ [a]) a.contract a.clientOrderId = some a.exchangeOrderId := by
  simp [assignedTo, List.filter_append]

/-- What is assigned was assigned by some request. -/
theorem mem_of_assignedTo {as : List Assignment} {c id e : String}
    (h : assignedTo as c id = some e) : ⟨c, id, e⟩ ∈ as := by
  obtain ⟨⟨c', id', e'⟩, ha, rfl⟩ := Option.map_eq_some_iff.mp h
  have hmem := List.mem_of_getLast? ha
  simp only [List.mem_filter, Bool.and_eq_true, beq_iff_eq] at hmem
  obtain ⟨hmem, rfl, rfl⟩ := hmem
  exact hmem

/-- One request that repeats exchange ids keeps them. -/
theorem Identified.step {s : TradeSimulater} (hs : s.WF) {r : Request} (hr : s.KeepsIdentity r)
    {as : List Assignment} (h : s.Identified as) : (s.step r).Identified (as ++ s.assigned r) := by
  intro c b' hb' id
  obtain ⟨b, hb, hstep⟩ := box_step hs r hb'
  have hid := h c b hb id
  have hwf := (hs.box hb).1
  cases hstep with
  | kept hno heq =>
    rw [heq, assignedTo_append_of_ne]
    · exact hid
    · rintro a ha ⟨rfl, -⟩
      cases r with
      | add o =>
        by_cases hyes : s.Accepts (.add o)
        · rw [assigned, if_pos hyes, List.mem_singleton] at ha
          subst ha
          exact hno ⟨hyes, rfl⟩
        · rw [assigned, if_neg hyes] at ha
          exact absurd ha List.not_mem_nil
      | change o => exact absurd ha List.not_mem_nil
      | delete o => exact absurd ha List.not_mem_nil
  | served hyes hc acts done hplan hdone hledger hend =>
    subst hc
    have hruns := (hplan.runs hwf.ledger).of_isPrefix hdone
    -- actions on other orders keep what the box has under this id
    have hother : (∀ a ∈ done, a.incoming ≠ some id) →
        b'.ledger.Identified id (assignedTo as r.order.contract id) := by
      intro hne
      rw [hledger]
      exact hruns.invariant_of_forall (I := fun b => b.Identified id (assignedTo as r.order.contract id))
        (fun _ _ hI hg ha => hI.apply hg ha) hne hid
    by_cases heq : id = (s.pendingOf r).clientOrderId
    · subst heq
      cases hplan with
      | @add o _ _ _ hw hcn hf ho hq hcontract hm =>
        obtain ⟨rounds, remainder, harr, -⟩ := hm.arrived hw hcn _ hdone
        -- an accepted new order gets the next id, and nothing was kept under its client id
        have hlast : assignedTo (as ++ s.assigned (.add o)) o.contract o.clientOrderId =
            some (s.pendingOf (.add o)).exchangeOrderId := by
          rw [assigned, if_pos hyes]
          exact assignedTo_concat as _
        rw [hledger]
        refine hlast.symm ▸ Ledger.Identified.arrived harr fun f hmem => ?_
        obtain ⟨hmem, hfid⟩ := List.mem_filter.mp hmem
        exact absurd (by simpa using hfid) (hf f hmem)
      | @change o w _ _ _ hw ho hq hcontract hm =>
        rw [show s.assigned (.change o) = [] from rfl, List.append_nil]
        rcases List.prefix_cons_iff.mp hdone with rfl | ⟨done', rfl, hdone'⟩
        · rw [hledger]; exact hid
        · have hwid := (hwf.ledger.working hw).id
          obtain ⟨rounds, remainder, harr, -⟩ := hm.arrived
            (by rw [Ledger.remove_working, if_pos hwid.symm])
            (by rw [Ledger.remove_canceled]; exact hwf.ledger.disjoint hw) _ hdone'
          -- the client repeats the exchange id of the order that makes way
          obtain ⟨p, hp, hcell⟩ := Option.bind_eq_some_iff.mp hw
          have hsame : o.exchangeOrderId = w.exchangeOrderId := hr hyes b p w hb hp hcell
          have hassigned : assignedTo as o.contract o.clientOrderId = some o.exchangeOrderId := by
            rw [hsame]
            exact hid.working w hw
          rw [hledger]
          refine hassigned.symm ▸ Ledger.Identified.arrived harr fun f hmem => ?_
          exact Option.some.inj ((hid.fills f hmem).symm.trans hassigned)
      | @delete o w hw =>
        rw [show s.assigned (.delete o) = [] from rfl, List.append_nil]
        -- a deletion brings nothing in
        refine hother fun a ha => ?_
        have := List.mem_singleton.mp (hdone.subset ha)
        subst this
        exact fun h => nomatch h
    · rw [assignedTo_append_of_ne]
      · exact hother fun a ha => hplan.incoming hwf.ledger heq a (hdone.subset ha)
      · rintro a ha ⟨-, rfl⟩
        cases r with
        | add o =>
          rw [assigned, if_pos hyes, List.mem_singleton] at ha
          subst ha
          exact heq rfl
        | change o => exact absurd ha List.not_mem_nil
        | delete o => exact absurd ha List.not_mem_nil

/-- The ids are kept along every run whose changes repeat them. -/
theorem Identified.run {s : TradeSimulater} (hs : s.WF) {as : List Assignment}
    (h : s.Identified as) (rs : List Request)
    (hkeep : ∀ pre r, pre ++ [r] <+: rs → (s.run pre).KeepsIdentity r) :
    (s.run rs).Identified (as ++ s.assignments rs) := by
  induction rs generalizing s as with
  | nil => rw [assignments, List.append_nil]; exact h
  | cons r rs ih =>
    rw [assignments, ← List.append_assoc]
    refine ih (hs.step r) (h.step hs (hkeep [] r ⟨rs, rfl⟩)) fun pre r' hpre => ?_
    exact hkeep (r :: pre) r' (List.cons_prefix_cons.mpr ⟨rfl, hpre⟩)

/-- In the beginning nothing is assigned. -/
theorem Fresh.identified {s : TradeSimulater} (hs : s.Fresh) : s.Identified [] := by
  intro c b hb id
  rw [hs.box hb]
  exact ⟨fun _ h => (nomatch h), fun _ h => (nomatch h), fun f hf => absurd hf List.not_mem_nil⟩

/-! ## Assigned ids are different -/

/-- The counter of exchange ids goes up with every assignment. -/
theorem exchangeOrderId_step {s : TradeSimulater} (hs : s.WF) (r : Request) :
    (s.step r).exchangeOrderId = s.exchangeOrderId + .ofNat (s.assigned r).length := by
  cases step_cases hs r with
  | refused hno es hes heq =>
    -- only an accepted new order is assigned an id
    have hnil : s.assigned r = [] := by
      cases r with
      | add o => rw [assigned, if_neg hno]
      | change o => rfl
      | delete o => rfl
    rw [heq, hnil]
    exact (UInt32.add_zero _).symm
  | served hyes b acts done shown hb hplan hdone hreach hend =>
    rw [hreach.frame.exchangeOrderId]
    cases r with
    | add o => rw [assigned, if_pos hyes]; rfl
    | change o => exact (UInt32.add_zero _).symm
    | delete o => exact (UInt32.add_zero _).symm

/-- The assigned ids count up. -/
theorem assignments_exchangeOrderId {s : TradeSimulater} (hs : s.WF) (rs : List Request) {n : Nat}
    (hn : s.exchangeOrderId = .ofNat n) : (s.assignments rs).map (·.exchangeOrderId) =
      (List.range' (n + 1) (s.assignments rs).length).map (countedText "Order-") := by
  induction rs generalizing s n with
  | nil => rfl
  | cons r rs ih =>
    have hstep := exchangeOrderId_step hs r
    rw [hn, ← UInt32.ofNat_add] at hstep
    rw [assignments, List.map_append, ih (hs.step r) hstep, List.length_append,
      ← List.range'_append_1, List.map_append, Nat.add_right_comm]
    congr 1
    cases r with
    | add o =>
      -- the counter stands at the number of ids assigned before
      by_cases hyes : s.Accepts (.add o)
      · rw [assigned, if_pos hyes]
        simp [pendingOf, hn, countedText]
      · rw [assigned, if_neg hyes]
        rfl
    | change o => rfl
    | delete o => rfl

/-! ## Every run -/

/-- For every run whose accepted `Change`s repeat the exchange id of the order they
    replace: whatever is recorded for a client id carries the exchange id assigned to it
    by its `Add`. As long as the 32 bit counter has not wrapped around, no two accepted
    `Add`s were assigned the same, and what carries the same is of the same client id. -/
theorem exchange_order_id_kept (clock : Nat → Ems.Timestamp) (contracts : List TradeContract)
    (rs : List Request)
    (hkeep : ∀ pre r, pre ++ [r] <+: rs → ((started clock contracts).run pre).KeepsIdentity r) :
    (∀ c b id e, ((started clock contracts).run rs).box c = some b → b.Carries id e →
      assignedTo ((started clock contracts).assignments rs) c id = some e) ∧
    (((started clock contracts).assignments rs).length ≤ 2 ^ 32 →
      (((started clock contracts).assignments rs).map (·.exchangeOrderId)).Nodup ∧
      ∀ c b id c' b' id' e, ((started clock contracts).run rs).box c = some b →
        ((started clock contracts).run rs).box c' = some b' → b.Carries id e →
        b'.Carries id' e → c = c' ∧ id = id') := by
  have hs := WF.started clock contracts
  have hfresh := Fresh.started clock contracts
  have hident := hfresh.identified.run hs rs hkeep
  -- what a box keeps was assigned in the run
  have hcarry : ∀ c b id e, ((started clock contracts).run rs).box c = some b → b.Carries id e →
      assignedTo ((started clock contracts).assignments rs) c id = some e :=
    fun c b id e hb h => h.eq (hident c b hb id)
  refine ⟨hcarry, fun hfew => ?_⟩
  -- below 2^32 assignments the counter has not come round
  have hnodup : (((started clock contracts).assignments rs).map (·.exchangeOrderId)).Nodup := by
    rw [assignments_exchangeOrderId hs rs (n := 0) hfresh.exchangeOrderId]
    exact nodup_countedText _ _ hfew
  refine ⟨hnodup, fun c b id c' b' id' e hb hb' h h' => ?_⟩
  have hmem := mem_of_assignedTo (hcarry c b id e hb h)
  have hmem' := mem_of_assignedTo (hcarry c' b' id' e hb' h')
  have heq := List.inj_on_of_nodup_map hnodup hmem hmem' rfl
  exact ⟨congrArg Assignment.contract heq, congrArg Assignment.clientOrderId heq⟩

/-- A `Change` without an exchange id takes that of its order away. -/
theorem exchange_order_id_lost_by_change :
    ¬ ∀ b e, (sampleRun [.add (limitOrder "x" .buy "1" 8),
        .change (limitOrder "x" .buy "1" 4)]).box "A" = some b → b.Carries "x" e →
      assignedTo ((started (fun _ => {}) sampleContracts).assignments
        [.add (limitOrder "x" .buy "1" 8), .change (limitOrder "x" .buy "1" 4)]) "A" "x" =
          some e := by
  have heval : ((sampleRun [.add (limitOrder "x" .buy "1" 8),
      .change (limitOrder "x" .buy "1" 4)]).box "A").map (fun b =>
        (b.workingOrders["x"]?, (b.heap.cells 1).map (·.exchangeOrderId))) =
      some (some 1, some "") := by
    decide +kernel
  have hassigned : assignedTo ((started (fun _ => {}) sampleContracts).assignments
      [.add (limitOrder "x" .buy "1" 8), .change (limitOrder "x" .buy "1" 4)]) "A" "x" =
        some "Order-1" := by
    decide +kernel
  obtain ⟨b, hb, hv⟩ := Option.map_eq_some_iff.mp heval
  rw [Prod.mk.injEq, Option.map_eq_some_iff] at hv
  obtain ⟨hp, o, ho, hex⟩ := hv
  intro h
  -- the replacing order rests with an empty exchange id
  have := h b "" hb (.inl ⟨1, o, .inl hp, ho, hex⟩)
  rw [hassigned] at this
  exact absurd this (by decide)

/-- A `Change` that repeats the exchange id keeps it in the order and in its fill. -/
theorem exchange_order_id_kept_by_change :
    ∃ b, (sampleRun [.add (limitOrder "s" .sell "1" 5), .add (limitOrder "x" .buy "1" 8),
        .change { limitOrder "x" .buy "1" 4 with exchangeOrderId := "Order-2" }]).box "A" =
          some b ∧ b.workingOrders.contains "x" ∧ b.fillsOf "x" ≠ [] ∧
      ∀ e, b.Carries "x" e → e = "Order-2" := by
  -- the only `change` of the run carries the id that the working order has
  have hkeep : ∀ pre r, pre ++ [r] <+: [.add (limitOrder "s" .sell "1" 5),
      .add (limitOrder "x" .buy "1" 8),
      .change { limitOrder "x" .buy "1" 4 with exchangeOrderId := "Order-2" }] →
        (sampleRun pre).KeepsIdentity r := by
    rintro pre r ⟨rest, hrest⟩
    cases r with
    | add o => trivial
    | delete o => trivial
    | change o =>
      have hpre : pre = [.add (limitOrder "s" .sell "1" 5), .add (limitOrder "x" .buy "1" 8)] ∧
          o = { limitOrder "x" .buy "1" 4 with exchangeOrderId := "Order-2" } := by
        rcases pre with _ | ⟨_, _ | ⟨_, _ | ⟨_, pre⟩⟩⟩ <;> simp_all
      obtain ⟨rfl, rfl⟩ := hpre
      intro _ b p w hb hp hw
      have heval : ((sampleRun [.add (limitOrder "s" .sell "1" 5),
          .add (limitOrder "x" .buy "1" 8)]).box "A").map (fun b =>
            (b.workingOrders["x"]?.bind b.heap.cells).map (·.exchangeOrderId)) =
          some (some "Order-2") := by
        decide +kernel
      have hbox : (sampleRun [.add (limitOrder "s" .sell "1" 5),
          .add (limitOrder "x" .buy "1" 8)]).box "A" = some b := hb
      have hp : b.workingOrders["x"]? = some p := hp
      rw [hbox, Option.map_some, Option.some.injEq, hp, Option.bind_some, hw] at heval
      exact (Option.some.inj heval).symm
  -- one fill is left, and the rest still works
  have heval : ((sampleRun [.add (limitOrder "s" .sell "1" 5), .add (limitOrder "x" .buy "1" 8),
      .change { limitOrder "x" .buy "1" 4 with exchangeOrderId := "Order-2" }]).box "A").map
        (fun b => (b.workingOrders.contains "x", (b.fillsOf "x").length)) = some (true, 1) := by
    decide +kernel
  -- the exchange gave the second order its second id
  have hassigned : assignedTo ((started (fun _ => {}) sampleContracts).assignments
      [.add (limitOrder "s" .sell "1" 5), .add (limitOrder "x" .buy "1" 8),
        .change { limitOrder "x" .buy "1" 4 with exchangeOrderId := "Order-2" }]) "A" "x" =
          some "Order-2" := by
    decide +kernel
  obtain ⟨b, hb, hv⟩ := Option.map_eq_some_iff.mp heval
  rw [Prod.mk.injEq] at hv
  refine ⟨b, hb, hv.1, fun hnil => ?_, fun e he => ?_⟩
  · rw [hnil] at hv
    exact absurd hv.2 (by decide)
  · have := (exchange_order_id_kept (fun _ => {}) sampleContracts _ hkeep).1 "A" b "x" e hb he
    rw [hassigned] at this
    exact (Option.some.inj this).symm

end TradeSimulater

end FixHandler.Trade
