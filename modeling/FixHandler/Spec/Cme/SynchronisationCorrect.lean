import Mathlib
import FixHandler.ForStd.List
import FixHandler.Native.Cme.GlobexCommunicator

/-!
# Waiting for the status of the initial orders

`Start` waits until the status of every initial order has been reported. An order is taken off the
list in the last of the branches that look at the status of a report, so that an order that is
partly or completely filled, or whose trade was cancelled, is waited for forever, and the answer
on a filled order is given to the strategy as a fill.

## Key results

- `orderResponse_orders`: what one report takes off the list
- `synchronised_iff`: the reports after which the list is right
-/

namespace FixHandler.Cme

open Exchange (SingleOrderReport OrderReport)

/-- The answer to a question for the status of an order -/
def Exchange.OrderReport.isStatusReport (r : OrderReport) : Bool :=
  r.messageType == executionReport && r.singleReport.execType == 'I'

/-- The status of an order has been reported. -/
def answered (reports : List OrderReport) (clientOrderId : String) : Bool :=
  reports.any fun r => r.isStatusReport && r.singleReport.clOrderId == clientOrderId

/-- The initial orders that are waited for are those whose status has not been reported, and no
    report of a status is taken for a fill. -/
structure Synchronised (initOrders : List Ems.Order) (reports : List OrderReport) : Prop where
  waiting_eq : ∀ before after, reports = before ++ after →
    waiting initOrders before = initOrders.filter fun o => !answered before o.clientOrderId
  ends : (∀ o ∈ initOrders, answered reports o.clientOrderId = true) →
    waiting initOrders reports = []
  no_fill : ∀ before r after, reports = before ++ r :: after → r.isStatusReport = true →
    ∀ fill, .onFill fill ∉ (orderResponse (waiting initOrders before) r).1

/-- The report is given to the strategy as a fill. -/
def Exchange.SingleOrderReport.IsFillNotice (r : SingleOrderReport) : Prop :=
  (r.orderStatus = '1' ∨ r.orderStatus = '2') ∧ (Assist.toPbTime r.transactTime).isSome = true

/-- The report is given to the strategy as the status of an order. -/
def Exchange.SingleOrderReport.IsOrderNotice (r : SingleOrderReport) : Prop :=
  r.orderStatus ≠ 'H' ∧ r.orderStatus ≠ '1' ∧ r.orderStatus ≠ '2' ∧
    (Assist.toPbTime r.transactTime).isSome = true

/-! ## One report -/

section Step

variable {initOrders : List Ems.Order} {r : OrderReport}

/-- A status report is an execution report of the type I. -/
theorem isStatusReport_iff :
    r.isStatusReport = true ↔ r.messageType = executionReport ∧ r.singleReport.execType = 'I' := by
  simp [Exchange.OrderReport.isStatusReport]

/-- A fill can be made of a report whose time can be read. -/
theorem isSome_fillOfReport {r : SingleOrderReport} :
    (fillOfReport r).isSome = (Assist.toPbTime r.transactTime).isSome := by
  unfold fillOfReport
  cases Assist.toPbTime r.transactTime with
  | none => rfl
  | some t => rfl

/-- So can an order. -/
theorem isSome_orderOfReport {r : SingleOrderReport} :
    (orderOfReport r).isSome = (Assist.toPbTime r.transactTime).isSome := by
  unfold orderOfReport
  cases Assist.toPbTime r.transactTime with
  | none => rfl
  | some t => rfl

/-- The answer on an order that is neither filled nor cancelled takes the order off. -/
theorem orders_of_answer (hr : r.isStatusReport = true) (hnotice : r.singleReport.IsOrderNotice) :
    (orderResponse initOrders r).2 = onOrderStatusSent initOrders r.singleReport.clOrderId := by
  obtain ⟨htype, hexec⟩ := isStatusReport_iff.mp hr
  obtain ⟨hcancel, hpartly, hfilled, htime⟩ := hnotice
  rw [← isSome_orderOfReport] at htime
  obtain ⟨order, horder⟩ := Option.isSome_iff_exists.mp htime
  unfold orderResponse
  simp only [htype, hexec, hcancel, hpartly, hfilled, horder]
  rfl

/-- No other report takes an order off. -/
theorem orders_of_other (h : ¬ (r.isStatusReport = true ∧ r.singleReport.IsOrderNotice)) :
    (orderResponse initOrders r).2 = initOrders := by
  unfold orderResponse
  dsimp only
  -- the branches of the source in their order
  split_ifs with hready hmass hcancel hfill hstatus
  · rfl
  · rfl
  · rfl
  · cases fillOfReport r.singleReport <;> rfl
  · -- the only branch in which an order is taken off
    cases horder : orderOfReport r.singleReport with
    | none => rfl
    | some order =>
      have htime : (orderOfReport r.singleReport).isSome = true := by rw [horder]; rfl
      rw [isSome_orderOfReport] at htime
      refine absurd ⟨isStatusReport_iff.mpr hstatus, ?_⟩ h
      exact ⟨fun heq => hcancel ⟨hstatus.1, heq⟩, fun heq => hfill ⟨hstatus.1, .inl heq⟩,
        fun heq => hfill ⟨hstatus.1, .inr heq⟩, htime⟩
  · cases orderOfReport r.singleReport <;> rfl

/-- A report of a status is given to the strategy as a fill if it is a fill notice. -/
theorem onFill_mem_iff (hr : r.isStatusReport = true) :
    (∃ fill, .onFill fill ∈ (orderResponse initOrders r).1) ↔ r.singleReport.IsFillNotice := by
  obtain ⟨htype, hexec⟩ := isStatusReport_iff.mp hr
  unfold orderResponse
  dsimp only
  rw [htype, if_neg (by decide), if_neg (by decide)]
  -- a cancel, a fill, an answer, or nothing
  split_ifs with hcancel hfill hstatus
  · refine iff_of_false (fun ⟨fill, h⟩ => nomatch h) fun h => ?_
    rcases h.1 with heq | heq
    · exact absurd (hcancel.2.symm.trans heq) (by decide)
    · exact absurd (hcancel.2.symm.trans heq) (by decide)
  · unfold SingleOrderReport.IsFillNotice
    rw [← isSome_fillOfReport]
    cases fillOfReport r.singleReport with
    | none => exact iff_of_false (fun ⟨fill, h⟩ => nomatch h) fun h => nomatch h.2
    | some fill => exact iff_of_true ⟨fill, List.mem_cons_self⟩ ⟨hfill.2, rfl⟩
  · refine iff_of_false ?_ fun h => hfill ⟨rfl, h.1⟩
    cases orderOfReport r.singleReport with
    | none => exact fun ⟨fill, h⟩ => nomatch h
    | some order => exact fun ⟨fill, h⟩ => nomatch List.mem_singleton.mp h
  · exact absurd ⟨rfl, hexec⟩ hstatus

end Step

/-! ## Sequences of reports -/

section Reports

variable {initOrders : List Ems.Order} {reports : List OrderReport}

/-- The last report may take one more order off. -/
theorem waiting_concat (r : OrderReport) :
    waiting initOrders (reports ++ [r]) = (orderResponse (waiting initOrders reports) r).2 := by
  rw [waiting, List.foldl_append]
  rfl

/-- The last report may answer one more order. -/
theorem answered_concat (r : OrderReport) (id : String) :
    answered (reports ++ [r]) id =
      (answered reports id || (r.isStatusReport && r.singleReport.clOrderId == id)) := by
  rw [answered, List.any_append, List.any_cons, List.any_nil, Bool.or_false]
  rfl

/-- The reports that are dealt with: a report of a status is no fill notice, and takes the order
    off the list if the order is waited for. -/
def Orderly (initOrders : List Ems.Order) (reports : List OrderReport) : Prop :=
  ∀ before r after, reports = before ++ r :: after → r.isStatusReport = true →
    ¬ r.singleReport.IsFillNotice ∧
    (r.singleReport.IsOrderNotice ∨ ∀ o ∈ initOrders,
      o.clientOrderId = r.singleReport.clOrderId → answered before o.clientOrderId = true)

/-- The first reports of an orderly list are orderly. -/
theorem Orderly.of_append {after : List OrderReport} (h : Orderly initOrders (reports ++ after)) :
    Orderly initOrders reports := by
  rintro before r rest rfl hr
  exact h before r (rest ++ after) (by rw [List.append_assoc, List.cons_append]) hr

/-- In an orderly list the orders wait that have no answer. -/
theorem Orderly.waiting_eq (hnd : (initOrders.map (·.clientOrderId)).Nodup)
    (h : Orderly initOrders reports) :
    waiting initOrders reports = initOrders.filter fun o => !answered reports o.clientOrderId := by
  induction reports using List.reverseRecOn with
  | nil => exact (List.filter_eq_self.mpr fun o _ => rfl).symm
  | append_singleton reports r ih =>
    have hpfx : Orderly initOrders reports := h.of_append
    rw [waiting_concat]
    by_cases hanswer : r.isStatusReport = true ∧ r.singleReport.IsOrderNotice
    · rw [orders_of_answer hanswer.1 hanswer.2, ih hpfx, onOrderStatusSent,
        List.eraseP_eq_filter ((List.filter_sublist.map _).nodup hnd), List.filter_filter]
      refine List.filter_congr fun o _ => ?_
      rw [answered_concat, hanswer.1, Bool.true_and, Bool.not_or, Bool.and_comm, bne, BEq.comm]
    · rw [orders_of_other hanswer, ih hpfx]
      refine List.filter_congr fun o ho => ?_
      rw [answered_concat]
      cases hr : r.isStatusReport with
      | false => rw [Bool.false_and, Bool.or_false]
      | true =>
        -- the order has been taken off before
        have hbefore := (h reports r [] rfl hr).2.resolve_left fun hnotice => hanswer ⟨hr, hnotice⟩
        by_cases hid : r.singleReport.clOrderId = o.clientOrderId
        · rw [hbefore o ho hid.symm, Bool.true_or]
        · rw [beq_eq_false_iff_ne.mpr hid, Bool.and_false, Bool.or_false]

/-- If the synchronisation is right, the reports are orderly. -/
theorem Synchronised.orderly (h : Synchronised initOrders reports) : Orderly initOrders reports := by
  rintro before r after rfl hr
  refine ⟨fun hfill => ?_, ?_⟩
  · obtain ⟨fill, hmem⟩ : ∃ fill, .onFill fill ∈ (orderResponse (waiting initOrders before) r).1 :=
      (onFill_mem_iff hr).mpr hfill
    exact h.no_fill before r after rfl hr fill hmem
  · by_contra hnot
    rw [not_or] at hnot
    obtain ⟨hnotice, hanswered⟩ := hnot
    push Not at hanswered
    obtain ⟨o, ho, hid, hbefore⟩ := hanswered
    -- the order is still waited for, although its status has been reported
    have hkept : o ∈ waiting initOrders (before ++ [r]) := by
      rw [waiting_concat, orders_of_other fun h => hnotice h.2, h.waiting_eq before _ rfl,
        List.mem_filter]
      exact ⟨ho, by rw [Bool.eq_false_iff.mpr hbefore]; rfl⟩
    rw [h.waiting_eq (before ++ [r]) after (by rw [List.append_assoc]; rfl), List.mem_filter,
      answered_concat, hr, Bool.true_and, beq_iff_eq.mpr hid.symm, Bool.or_true] at hkept
    exact nomatch hkept.2

/-- The list of the initial orders is right after every report, and no report of a status is
    given to the strategy as a fill, exactly if every report of a status is none of a fill or of
    a cancelled trade, and its time can be read; or if it is not given to the strategy, and its
    order is not waited for. -/
theorem synchronised_iff (hnd : (initOrders.map (·.clientOrderId)).Nodup)
    (reports : List OrderReport) :
    Synchronised initOrders reports ↔ Orderly initOrders reports := by
  refine ⟨Synchronised.orderly, fun h => ⟨?_, ?_, ?_⟩⟩
  · rintro before after rfl
    exact h.of_append.waiting_eq hnd
  · intro hall
    rw [h.waiting_eq hnd, List.filter_eq_nil_iff]
    intro o ho
    rw [hall o ho]
    exact Bool.false_ne_true
  · rintro before r after rfl hr fill hmem
    exact (h before r after rfl hr).1 ((onFill_mem_iff hr).mp ⟨fill, hmem⟩)

end Reports

/-- An order that is partly filled -/
def partlyFilled : OrderReport where
  messageType := "8"
  singleReport := { execType := 'I', clOrderId := "c1", orderStatus := '1' }

/-- The answer on a partly filled order is given to the strategy as a fill, and the order is
    waited for still. -/
theorem partly_filled_waits : ¬ Synchronised [{ clientOrderId := "c1" }] [partlyFilled] := by
  intro h
  have hends := h.ends (by decide)
  exact absurd hends (by decide +kernel)

/-- The answer on a working order ends the wait. -/
theorem synchronised_iff_working :
    Synchronised [{ clientOrderId := "c1" }]
        [{ messageType := "8", singleReport := { execType := 'I', clOrderId := "c1" } }] ↔
      Orderly [{ clientOrderId := "c1" }]
        [{ messageType := "8", singleReport := { execType := 'I', clOrderId := "c1" } }] :=
  synchronised_iff (by decide) _

end FixHandler.Cme
