import Mathlib
import FixHandler.Spec.Trade.OrderLife

/-!
# The filled quantity a query reports

The filled quantity of an order is kept twice: in the order, where fills of the
resting side add to it, and as the list of its fills, which a query sums up when
the order is gone. A `Change` goes on with the message of the client and sets
the filled quantity of the order anew from what the replacement trades at once,
so the fills from before are lost in what a query reports, unless nothing is
left of the replacement.

## Key results

- `Ledger.Counted`: the two agree for an id, and fit 64 bits
- `Counted.step`: a request after which an order may be left with earlier fills
  is the only one that can break this
- `query_reports_recorded_fills`: every query of a run without such a request
-/

namespace FixHandler.Trade

open Ems (Order Fill)
open ComparablePrice (Crosses)

namespace Ledger

/-- The quantity filled for an id. -/
def filledTotal (b : Ledger) (id : String) : Nat :=
  ((b.fillsOf id).map (·.fillQuantity.toNat)).sum

/-- An action adds what it fills. -/
theorem filledTotal_apply {b : Ledger} {a : Act} {id : String} (ha : a.incoming ≠ some id) :
    (b.apply a).filledTotal id = b.filledTotal id + a.filled id := by
  rw [filledTotal, fillsOf_apply, List.map_append, List.sum_append, Act.sum_fills ha, filledTotal]

/-- What is recorded of an id agrees with its fills. -/
structure Counted (b : Ledger) (id : String) : Prop where
  working : ∀ o, b.working id = some o → o.filledQuantity.toNat = b.filledTotal id ∧
    b.filledTotal id + o.quantity.toNat < 2 ^ 64
  canceled : ∀ o, b.canceled id = some o → o.filledQuantity.toNat = b.filledTotal id
  fits : b.filledTotal id < 2 ^ 64

/-- A fill of a resting order is added to it. -/
private theorem Counted.trade {b : Ledger} (hb : b.WF) {o w : Order} {f : String} {q : OrderSize}
    {p : OrderPrice} (hg : b.guard (.trade o w f q p)) (ho : o.clientOrderId ≠ w.clientOrderId)
    (h : b.Counted w.clientOrderId) : (b.apply (.trade o w f q p)).Counted w.clientOrderId := by
  obtain ⟨hw, -, hle, -⟩ := hg
  obtain ⟨hfq, hfit⟩ := h.working w hw
  have hne : (Act.trade o w f q p).incoming ≠ some w.clientOrderId :=
    fun heq => ho (Option.some.inj heq)
  have htotal := filledTotal_apply (b := b) hne
  simp only [Act.filled, if_true] at htotal
  have hle := UInt64.le_iff_toNat_le.mp hle
  refine ⟨fun v hv => ?_, fun v hv => ?_, by omega⟩
  · rw [trade_working, if_pos rfl] at hv
    split at hv
    · cases hv
    · cases hv
      have hq := UInt64.toNat_sub_of_le _ _ (UInt64.le_iff_toNat_le.mpr hle)
      -- the sum does not wrap, as all that was filled fits
      have hadd := UInt64.toNat_add w.filledQuantity q
      simp only [reduced]
      omega
  · rw [trade_canceled, hb.disjoint hw] at hv
    cases hv

/-- What the actions of another id do to an id keeps it counted. -/
theorem Counted.apply {b : Ledger} (hb : b.WF) {a : Act} (hg : b.guard a) {id : String}
    (ha : a.incoming ≠ some id) (h : b.Counted id) : (b.apply a).Counted id := by
  have htotal := filledTotal_apply (b := b) ha
  cases a with
  | trade o w f q p =>
    -- the fill is of this order, or of another one
    by_cases hid : w.clientOrderId = id
    · subst hid
      exact h.trade hb hg fun heq => ha (congrArg some heq)
    · simp only [Act.filled, hid, if_false, Nat.add_zero] at htotal
      refine ⟨fun v hv => ?_, fun v hv => ?_, by rw [htotal]; exact h.fits⟩
      · rw [trade_working, if_neg (Ne.symm hid)] at hv
        rw [htotal]
        exact h.working v hv
      · rw [trade_canceled] at hv
        rw [htotal]
        exact h.canceled v hv
  | rest o =>
    have hid : id ≠ o.clientOrderId := fun heq => ha (congrArg some heq.symm)
    refine ⟨fun v hv => ?_, h.canceled, h.fits⟩
    simp only [Ledger.apply, Function.update_of_ne hid] at hv
    exact h.working v hv
  | archive o =>
    have hid : id ≠ o.clientOrderId := fun heq => ha (congrArg some heq.symm)
    refine ⟨h.working, fun v hv => ?_, h.fits⟩
    simp only [Ledger.apply, Function.update_of_ne hid] at hv
    exact h.canceled v hv
  | cancel w =>
    refine ⟨fun v hv => h.working v (working_of_remove hv), fun v hv => ?_, h.fits⟩
    simp only [Ledger.apply, Function.update_apply] at hv
    split at hv
    · next hid =>
      subst hid
      cases hv
      exact (h.working w hg).1
    · exact h.canceled v hv
  | withdraw w => exact ⟨fun v hv => h.working v (working_of_remove hv), h.canceled, h.fits⟩

/-- An order that comes in without earlier fills, or of which nothing is left, is
    counted afterwards. -/
theorem Counted.arrived {b b' : Ledger} {o : Order} {rounds : List Round} {remainder : OrderSize}
    {isDelete : Bool} (h : Arrived b b' o rounds remainder isDelete)
    (htotal : (rounds.map (·.quantity.toNat)).sum + remainder.toNat ≤ o.quantity.toNat)
    (hrem : remainder ≠ 0 →
      (rounds.map (·.quantity.toNat)).sum + remainder.toNat = o.quantity.toNat)
    (hbefore : b.filledTotal o.clientOrderId = 0 ∨
      remainder = 0 ∧ b.filledTotal o.clientOrderId + o.quantity.toNat < 2 ^ 64) :
    b'.Counted o.clientOrderId := by
  obtain ⟨new, hfills, -, hnew⟩ := h.fills
  -- the fills of the order grow by those of its rounds
  have hsum : b'.filledTotal o.clientOrderId =
      b.filledTotal o.clientOrderId + (rounds.map (·.quantity.toNat)).sum := by
    have hnat : new.map (·.fillQuantity.toNat) = rounds.map (·.quantity.toNat) := by
      have := congrArg (List.map UInt64.toNat) hnew
      rwa [List.map_map, List.map_map] at this
    rw [filledTotal, hfills, List.map_append, List.sum_append, hnat, filledTotal]
  have hq := o.quantity.toNat_lt
  -- what is left of an order without earlier fills carries what its rounds filled
  have hleft : remainder ≠ 0 → (remainderOf o remainder).filledQuantity.toNat =
      b'.filledTotal o.clientOrderId := by
    intro h0
    have hle : remainder ≤ o.quantity := UInt64.le_iff_toNat_le.mpr (by omega)
    have hsub := UInt64.toNat_sub_of_le _ _ hle
    have hrem := hrem h0
    have hzero := hbefore.resolve_right fun h => h0 h.1
    simp only [remainderOf]
    omega
  refine ⟨fun v hv => ?_, fun v hv => ?_, by omega⟩
  · rw [h.working] at hv
    split at hv
    · exact nomatch hv
    · next hno =>
      cases hv
      -- an order that rests has something left
      have h0 : remainder ≠ 0 := fun h0 => hno (.inl h0)
      refine ⟨hleft h0, ?_⟩
      have hzero := hbefore.resolve_right fun h => h0 h.1
      show _ + remainder.toNat < _
      omega
  · rw [h.canceled] at hv
    split at hv
    · exact nomatch hv
    · next hno =>
      cases hv
      exact hleft fun h0 => hno (.inl h0)

end Ledger

/-- The quantity an order could trade with: that of all working orders of other ids
    whose price matches its own. -/
def TradeOrderBox.matchable (b : TradeOrderBox) (o : Order) : Nat :=
  ((b.workingWhere fun w => w.clientOrderId != o.clientOrderId &&
    decide (Crosses (priceOf o) (priceOf w))).map (·.quantity.toNat)).sum

namespace TradeSimulater

/-- The quantity of the fills reported for an id of a contract. -/
def sentTotal (s : TradeSimulater) (c id : String) : Nat :=
  ((s.sentFills.filter fun f => f.contract == c && f.clientOrderId == id).map
    (·.fillQuantity.toNat)).sum

/-- A `Change` that loses no fills: there are none yet, or nothing is left of the
    replacement, and all fills together fit 64 bits. -/
def KeepsFills (s : TradeSimulater) : Request → Prop
  | .change o => s.Accepts (.change o) → ∀ b, s.box o.contract = some b →
      b.filledTotal o.clientOrderId = 0 ∨ o.quantity.toNat ≤ b.matchable o ∧
        b.filledTotal o.clientOrderId + o.quantity.toNat < 2 ^ 64
  | _ => True

/-- All orders of all contracts are counted. -/
def Counted (s : TradeSimulater) : Prop :=
  ∀ c b, s.box c = some b → ∀ id, b.ledger.Counted id

/-- If a replacement could trade all it asks for, nothing is left of it. -/
private theorem remainder_eq_zero {b : TradeOrderBox} (hb : b.WF) {p w : Order}
    (hw : b.ledger.working p.clientOrderId = some w) {rounds : List Round} {remainder : OrderSize}
    {isDelete : Bool} (hm : Matching (b.ledger.remove w) p rounds remainder isDelete)
    (hle : p.quantity.toNat ≤ b.matchable p) : remainder = 0 := by
  by_contra hrem
  refine absurd (hm.short hrem _ (TradeOrderBox.nodup_workingWhere hb.toRep _) fun v hv => ?_)
    (Nat.not_lt.mpr hle)
  rw [TradeOrderBox.mem_workingWhere hb.toRep, Bool.and_eq_true, bne_iff_ne,
    decide_eq_true_eq] at hv
  obtain ⟨hv, hne, hcross⟩ := hv
  refine ⟨?_, hcross⟩
  rw [Ledger.remove_working, if_neg, hv]
  rw [(hb.ledger.working hw).id]
  exact hne

/-- One request that loses no fills keeps all orders counted. -/
theorem Counted.step {s : TradeSimulater} (hs : s.WF) {r : Request} (hr : s.KeepsFills r)
    (h : s.Counted) : (s.step r).Counted := by
  intro c b' hb' id
  obtain ⟨b, hb, hstep⟩ := box_step hs r hb'
  have hcount := h c b hb
  have hwf := (hs.box hb).1
  cases hstep with
  | kept hno heq => rw [heq]; exact hcount id
  | served hyes hc acts done hplan hdone hledger hend =>
    subst hc
    have hruns := (hplan.runs hwf.ledger).of_isPrefix hdone
    -- actions on other orders leave the count of this one
    have hother : (∀ a ∈ done, a.incoming ≠ some id) → b'.ledger.Counted id := by
      intro hne
      rw [hledger]
      exact (hruns.invariant_of_forall (I := fun b => b.WF ∧ b.Counted id)
        (fun _ _ hI hg ha => ⟨hI.1.apply hg, hI.2.apply hI.1 hg ha⟩) hne
        ⟨hwf.ledger, hcount id⟩).2
    by_cases hid : id = (s.pendingOf r).clientOrderId
    · subst hid
      cases hplan with
      | @add o _ _ _ hw hcn hf ho hq hcontract hm =>
        obtain ⟨rounds, remainder, harr, hp, hrem⟩ := hm.arrived hw hcn _ hdone
        rw [hledger]
        -- a new id has no fills
        have hzero : b.ledger.filledTotal (s.pendingOf (.add o)).clientOrderId = 0 := by
          rw [Ledger.filledTotal, Ledger.fillsOf, List.filter_eq_nil_iff.mpr]
          · rfl
          · exact fun f hmem => by simpa using hf f hmem
        exact .arrived harr (hm.total_le hp hrem) (hm.total_eq hrem) (.inl hzero)
      | @change o w _ _ _ hw ho hq hcontract hm =>
        rcases List.prefix_cons_iff.mp hdone with rfl | ⟨done', rfl, hdone'⟩
        · rw [hledger]; exact hcount _
        · have hwid := (hwf.ledger.working hw).id
          obtain ⟨rounds, remainder, harr, hp, hrem⟩ := hm.arrived
            (by rw [Ledger.remove_working, if_pos hwid.symm])
            (by rw [Ledger.remove_canceled]; exact hwf.ledger.disjoint hw) _ hdone'
          rw [hledger]
          -- a replaced order had no fills, or nothing of the new one is left
          refine .arrived harr (hm.total_le hp hrem) (hm.total_eq hrem) ?_
          refine (hr hyes b hb).imp id fun hkeeps => ⟨?_, hkeeps.2⟩
          exact hrem.elim id fun h => h.1.trans (remainder_eq_zero hwf hw hm hkeeps.1)
      | delete hw =>
        refine hother fun a ha => ?_
        have := List.mem_singleton.mp (hdone.subset ha)
        subst this
        intro h
        cases h
    · exact hother fun a ha => hplan.incoming hwf.ledger hid a (hdone.subset ha)

/-- The counts are kept along every run whose changes meet the condition. -/
theorem Counted.run {s : TradeSimulater} (hs : s.WF) (h : s.Counted) (rs : List Request)
    (hkeep : ∀ pre r, pre ++ [r] <+: rs → (s.run pre).KeepsFills r) : (s.run rs).Counted := by
  induction rs generalizing s with
  | nil => exact h
  | cons r rs ih =>
    refine ih (hs.step r) (h.step hs (hkeep [] r ⟨rs, rfl⟩)) fun pre r' hpre => ?_
    exact hkeep (r :: pre) r' (List.cons_prefix_cons.mpr ⟨rfl, hpre⟩)

/-- In the beginning nothing was filled. -/
theorem Fresh.counted {s : TradeSimulater} (hs : s.Fresh) : s.Counted := by
  intro c b hb id
  rw [hs.box hb]
  exact ⟨fun _ h => (nomatch h), fun _ h => (nomatch h), by simp [Ledger.filledTotal, Ledger.fillsOf]⟩

/-! ## Queries -/

/-- The fills recorded for an id are those that were reported for it. -/
theorem Sent.filledTotal_eq {s : TradeSimulater} (h : s.Sent) {c : String} {b : TradeOrderBox}
    (hb : s.box c = some b) (id : String) : b.filledTotal id = s.sentTotal c id := by
  rw [TradeOrderBox.filledTotal, TradeOrderBox.fillsOf, (h c b hb).1, List.filter_filter,
    sentTotal]
  simp only [Bool.and_comm]

/-- Whatever is queried while it is working, cancelled or completely filled, the filled
    quantity of the answer is that of the fills recorded for it, and of those sent. -/
def ReportsFills (s : TradeSimulater) : Prop :=
  ∀ c b order, s.box c = some b → order.contract = c → b.orderStatus order.clientOrderId ≠ 4 →
    ∃ res, s.queryResult order = .ok res ∧
      res.filledQuantity.toNat = b.filledTotal order.clientOrderId ∧
      res.filledQuantity.toNat = s.sentTotal c order.clientOrderId

/-- The filled quantity of an order that is found is reported as it is. -/
private theorem queryResult_eq {s : TradeSimulater} (hs : s.WF) {order res : Order}
    {b : TradeOrderBox} (hb : s.box order.contract = some b) (h : b.queryOrder order = .ok res) :
    ∃ res', s.queryResult order = .ok res' ∧ res'.filledQuantity = res.filledQuantity := by
  have hexist : s.contractAssist.isContractExist order.contract = true := by
    show s.contractAssist.contracts.contains order.contract = true
    rw [Std.TreeMap.contains_eq_isSome_getElem?, hs.contract, hb]
    rfl
  simp only [queryResult, hexist, TradeOrderManager.queryOrder, orderBox_eq hb, h, bind,
    Except.bind, pure, Except.pure, Bool.not_true, Bool.false_eq_true, if_false]
  split
  · exact ⟨_, rfl, rfl⟩
  · exact ⟨_, rfl, rfl⟩

/-- Counted orders are reported with all their fills. -/
theorem Counted.reportsFills {s : TradeSimulater} (h : s.Counted) (hs : s.WF) (hsent : s.Sent) :
    s.ReportsFills := by
  rintro _ b order hb rfl hstatus
  have hwf := (hs.box hb).1
  have hcount := h _ b hb order.clientOrderId
  have hreport : ∃ res, b.queryOrder order = .ok res ∧
      res.filledQuantity.toNat = b.filledTotal order.clientOrderId := by
    cases hc : b.ledger.canceled order.clientOrderId with
    | some o => exact ⟨o, TradeOrderBox.queryOrder_canceled hc, hcount.canceled o hc⟩
    | none =>
      -- an order that is done with is answered with the sum of its fills
      cases hw : b.ledger.working order.clientOrderId with
      | some o => exact ⟨_, TradeOrderBox.queryOrder_working hwf hw, (hcount.working o hw).1⟩
      | none =>
        obtain ⟨res, hres, hval⟩ := TradeOrderBox.queryOrder_filled hwf.toRep hc hw
        refine ⟨res, hres, ?_⟩
        have hf : b.fillsOf order.clientOrderId ≠ [] := fun hnil => hstatus (by
          rw [TradeOrderBox.orderStatus_eq hwf.toRep, hc, hw]
          simp [hnil])
        obtain ⟨f, hmem⟩ := List.exists_mem_of_ne_nil _ hf
        -- there is a fill, and it is not empty, so that the sum is positive
        have hone : f.fillQuantity.toNat ≤ b.filledTotal order.clientOrderId :=
          List.le_sum_of_mem (List.mem_map_of_mem (f := fun f => f.fillQuantity.toNat) hmem)
        have hne : f.fillQuantity.toNat ≠ 0 := fun h0 =>
          (hsent _ b hb).2 f (List.mem_of_mem_filter hmem) (UInt64.toNat_inj.mp h0)
        have hfits : b.filledTotal order.clientOrderId < 2 ^ 64 := hcount.fits
        rw [Nat.mod_eq_of_lt hfits, if_neg (by omega)] at hval
        exact hval.2
  obtain ⟨res, hres, hval⟩ := hreport
  obtain ⟨res', hres', heq⟩ := queryResult_eq hs hb hres
  rw [← heq] at hval
  exact ⟨res', hres', hval, hval.trans (hsent.filledTotal_eq hb _)⟩

/-- In every state of a run in which no accepted `Change` loses fills, every query of an
    order that works, is cancelled or is completely filled reports the fills recorded and
    sent for it. -/
theorem query_reports_recorded_fills (clock : Nat → Ems.Timestamp) (contracts : List TradeContract)
    (rs : List Request)
    (hkeep : ∀ pre r, pre ++ [r] <+: rs → ((started clock contracts).run pre).KeepsFills r) :
    ∀ pre, pre <+: rs → ((started clock contracts).run pre).ReportsFills := by
  intro pre hpre
  have hs := WF.started clock contracts
  have hfresh := Fresh.started clock contracts
  refine Counted.reportsFills (hfresh.counted.run hs pre fun pre' r h => ?_) (hs.run pre)
    (hfresh.sent.run hs pre)
  exact hkeep pre' r (h.trans hpre)

/-- A buy order is partially filled and replaced by one that rests: the report starts
    again from zero. -/
theorem query_forgets_fills_of_replaced_order :
    ¬ (sampleRun [.add (limitOrder "s" .sell "1" 5), .add (limitOrder "x" .buy "1" 8),
      .change (limitOrder "x" .buy "1" 4)]).ReportsFills := by
  have heval : ((sampleRun [.add (limitOrder "s" .sell "1" 5), .add (limitOrder "x" .buy "1" 8),
      .change (limitOrder "x" .buy "1" 4)]).box "A").map (fun b =>
        (b.orderStatus "x", b.filledTotal "x")) = some (2, 5) := by
    decide +kernel
  have hquery : ((sampleRun [.add (limitOrder "s" .sell "1" 5), .add (limitOrder "x" .buy "1" 8),
      .change (limitOrder "x" .buy "1" 4)]).queryResult (limitOrder "x" .buy "1" 4)).map
        (·.filledQuantity) = .ok 0 := by
    decide +kernel
  obtain ⟨b, hb, hv⟩ := Option.map_eq_some_iff.mp heval
  rw [Prod.mk.injEq] at hv
  intro h
  -- the answer says 0 where 5 were filled
  obtain ⟨res, hres, hval, -⟩ := h "A" b (limitOrder "x" .buy "1" 4) hb rfl (by
    show b.orderStatus "x" ≠ 4
    rw [hv.1]
    decide)
  have hval : res.filledQuantity.toNat = b.filledTotal "x" := hval
  rw [hres] at hquery
  have hzero : res.filledQuantity = 0 := Except.ok.inj hquery
  rw [hv.2, hzero] at hval
  exact absurd hval (by decide)

/-- A partially filled buy order is replaced by one that is filled at once: the report is
    of all nine. -/
theorem query_reports_fills_before_and_after_change :
    ∃ res, (sampleRun [.add (limitOrder "s" .sell "1" 5), .add (limitOrder "x" .buy "1" 8),
        .add (limitOrder "t" .sell "2" 4), .change (limitOrder "x" .buy "2" 4)]).queryResult
          (limitOrder "x" .buy "2" 4) = .ok res ∧ res.filledQuantity = 9 := by
  have hkeep : ∀ pre r, pre ++ [r] <+: [.add (limitOrder "s" .sell "1" 5),
      .add (limitOrder "x" .buy "1" 8), .add (limitOrder "t" .sell "2" 4),
      .change (limitOrder "x" .buy "2" 4)] → (sampleRun pre).KeepsFills r := by
    rintro pre r ⟨rest, hrest⟩
    cases r with
    | add o => trivial
    | delete o => trivial
    | change o =>
      -- the change comes last, when five are filled and four are offered at its price
      have hpre : pre = [.add (limitOrder "s" .sell "1" 5), .add (limitOrder "x" .buy "1" 8),
          .add (limitOrder "t" .sell "2" 4)] ∧ o = limitOrder "x" .buy "2" 4 := by
        rcases pre with _ | ⟨_, _ | ⟨_, _ | ⟨_, _ | ⟨_, pre⟩⟩⟩⟩ <;> simp_all
      obtain ⟨rfl, rfl⟩ := hpre
      intro _ b hb
      have heval : ((sampleRun [.add (limitOrder "s" .sell "1" 5),
          .add (limitOrder "x" .buy "1" 8), .add (limitOrder "t" .sell "2" 4)]).box "A").map
            (fun b => (b.filledTotal "x", b.matchable (limitOrder "x" .buy "2" 4))) =
          some (5, 4) := by
        decide +kernel
      have hbox : (sampleRun [.add (limitOrder "s" .sell "1" 5),
          .add (limitOrder "x" .buy "1" 8), .add (limitOrder "t" .sell "2" 4)]).box "A" =
          some b := hb
      rw [hbox, Option.map_some, Option.some.injEq, Prod.mk.injEq] at heval
      have hfilled : b.filledTotal (limitOrder "x" .buy "2" 4).clientOrderId = 5 := heval.1
      rw [hfilled, heval.2]
      exact .inr (by decide)
  have hspec := query_reports_recorded_fills (fun _ => {}) sampleContracts _ hkeep _ List.prefix_rfl
  have heval : ((sampleRun [.add (limitOrder "s" .sell "1" 5), .add (limitOrder "x" .buy "1" 8),
      .add (limitOrder "t" .sell "2" 4), .change (limitOrder "x" .buy "2" 4)]).box "A").map
        (fun b => (b.orderStatus "x", b.filledTotal "x")) = some (3, 9) := by
    decide +kernel
  obtain ⟨b, hb, hv⟩ := Option.map_eq_some_iff.mp heval
  rw [Prod.mk.injEq] at hv
  obtain ⟨res, hres, hval, -⟩ := hspec "A" b (limitOrder "x" .buy "2" 4) hb rfl (by
    show b.orderStatus "x" ≠ 4
    rw [hv.1]
    decide)
  refine ⟨res, hres, UInt64.toNat_inj.mp ?_⟩
  have hval : res.filledQuantity.toNat = b.filledTotal "x" := hval
  rw [hval, hv.2]
  rfl

end TradeSimulater

end FixHandler.Trade
