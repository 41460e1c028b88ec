import Mathlib
import FixHandler.ForStd.Guarded
import FixHandler.ForStd.List
import FixHandler.Spec.Trade.Price

/-!
# What an order box is for

A `Ledger` is the purpose of an order box without its pointers: which orders of
a contract work, in which order they queue at each price, which are cancelled,
and which fills are recorded. `Ledger.machine` says what may happen to it, one
action at a time, and when. Nothing here is translated from the source; that an
order box does what the actions say is proved in `OrderBoxCorrect`.

## Key results

- `Ledger.WF.apply`: the ledger stays well formed under every allowed action
- `Ledger.Uncrossed.apply`: no allowed action crosses the book
- `Ledger.total_apply`: what every action does to the quantity at a price
- `Matching.runs`: a complete matching of an incoming order, followed by resting
  or cancelling what is left of it, is a run of the machine
-/

namespace FixHandler.Trade

open Ems (Order Fill)
open ComparablePrice (Crosses)

/-- The orders of one contract. -/
structure Ledger where
  contract : String
  working : String → Option Order := fun _ => none
  queue : ComparablePrice → List String := fun _ => []
  canceled : String → Option Order := fun _ => none
  fills : List Fill := []

/-- The fill that is recorded for one party of a trade. -/
def fillOf (o : Order) (fillId : String) (quantity : OrderSize) (price : OrderPrice) : Fill where
  fillId := fillId
  fillPrice := (toRealPrice price).toString
  fillQuantity := quantity
  account := o.account
  clientOrderId := o.clientOrderId
  exchangeOrderId := o.exchangeOrderId
  contract := o.contract
  buySell := o.buySell

/-- A working order after a fill that leaves something of it. -/
def reduced (w : Order) (quantity : OrderSize) : Order :=
  { w with quantity := w.quantity - quantity, filledQuantity := w.filledQuantity + quantity }

/-- A fill does not rename an order. -/
@[simp] theorem reduced_clientOrderId (w : Order) (q : OrderSize) :
    (reduced w q).clientOrderId = w.clientOrderId := rfl

/-- A fill does not move an order to another price. -/
@[simp] theorem priceOf_reduced (w : Order) (q : OrderSize) : priceOf (reduced w q) = priceOf w :=
  rfl

/-- The things that happen to the orders of a contract. -/
inductive Act where
  /-- an incoming order trades with a working one -/
  | trade (incoming working : Order) (fillId : String) (quantity : OrderSize) (price : OrderPrice)
  /-- an order starts to rest -/
  | rest (o : Order)
  /-- an order is recorded as cancelled that never rested -/
  | archive (o : Order)
  /-- a working order is cancelled -/
  | cancel (w : Order)
  /-- a working order makes way for its replacement -/
  | withdraw (w : Order)

namespace Ledger

/-- Take an order out of the working orders and out of its queue. -/
def remove (b : Ledger) (w : Order) : Ledger :=
  { b with
    working := Function.update b.working w.clientOrderId none
    queue := Function.update b.queue (priceOf w)
      ((b.queue (priceOf w)).filter (· != w.clientOrderId)) }

/-- What an action does to the orders. -/
def apply (b : Ledger) : Act → Ledger
  | .trade o w fillId q p =>
    let b' := if w.quantity = q then b.remove w
      else { b with working := Function.update b.working w.clientOrderId (some (reduced w q)) }
    { b' with fills := b.fills ++ [fillOf o fillId q p, fillOf w fillId q p] }
  | .rest o =>
    { b with
      working := Function.update b.working o.clientOrderId (some { o with status := .working })
      queue := Function.update b.queue (priceOf o) (b.queue (priceOf o) ++ [o.clientOrderId]) }
  | .archive o =>
    { b with
      canceled := Function.update b.canceled o.clientOrderId (some { o with status := .cancelled }) }
  | .cancel w =>
    { b.remove w with
      canceled := Function.update b.canceled w.clientOrderId (some { w with status := .cancelled }) }
  | .withdraw w => b.remove w

/-- When an action may happen. An order may only rest when nothing that works
    would trade with it. -/
def guard (b : Ledger) : Act → Prop
  | .trade o w _ q _ => b.working w.clientOrderId = some w ∧ q ≠ 0 ∧ q ≤ w.quantity ∧
      Crosses (priceOf o) (priceOf w) ∧ Sound o ∧ o.contract = b.contract
  | .rest o => Sound o ∧ o.quantity ≠ 0 ∧ o.contract = b.contract ∧
      b.working o.clientOrderId = none ∧ b.canceled o.clientOrderId = none ∧
      ∀ id w, b.working id = some w → ¬ Crosses (priceOf o) (priceOf w)
  | .archive o => b.working o.clientOrderId = none ∧ b.canceled o.clientOrderId = none
  | .cancel w => b.working w.clientOrderId = some w
  | .withdraw w => b.working w.clientOrderId = some w

/-- The ledger as a guarded machine. -/
def machine : Guarded Ledger Act where
  guard := guard
  apply := apply

/-- The machine applies actions as the ledger does. -/
@[simp] theorem machine_apply (b : Ledger) (a : Act) : machine.apply b a = b.apply a := rfl

/-- The machine allows what the ledger allows. -/
@[simp] theorem machine_guard (b : Ledger) (a : Act) : machine.guard b a = b.guard a := rfl

/-- Taking an order out keeps the contract. -/
@[simp] theorem remove_contract (b : Ledger) (w : Order) : (b.remove w).contract = b.contract := rfl

/-- Taking an order out keeps what is cancelled. -/
@[simp] theorem remove_canceled (b : Ledger) (w : Order) : (b.remove w).canceled = b.canceled := rfl

/-- Taking an order out keeps the fills. -/
@[simp] theorem remove_fills (b : Ledger) (w : Order) : (b.remove w).fills = b.fills := rfl

/-- Only the order that is taken out works no more. -/
theorem remove_working (b : Ledger) (w : Order) (id : String) :
    (b.remove w).working id = if id = w.clientOrderId then none else b.working id := by
  simp [remove, Function.update_apply]

/-- Only the queue at the price of the order is shortened. -/
theorem remove_queue (b : Ledger) (w : Order) (cp : ComparablePrice) :
    (b.remove w).queue cp =
      if cp = priceOf w then (b.queue cp).filter (· != w.clientOrderId) else b.queue cp := by
  by_cases h : cp = priceOf w
  · subst h; simp [remove]
  · simp [remove, h]

/-- No action changes the contract. -/
@[simp] theorem apply_contract (b : Ledger) (a : Act) : (b.apply a).contract = b.contract := by
  cases a with
  | trade o w f q p => simp only [apply]; split <;> rfl
  | _ => rfl

/-- Neither does a sequence of them. -/
@[simp] theorem exec_contract (b : Ledger) (as : List Act) :
    (machine.exec b as).contract = b.contract := by
  induction as generalizing b with
  | nil => rfl
  | cons a as ih => simp [ih]

/-- Of the working orders a trade touches only the one that rests. -/
theorem trade_working (b : Ledger) (o w : Order) (f : String) (q : OrderSize) (p : OrderPrice)
    (id : String) : (b.apply (.trade o w f q p)).working id =
      if id = w.clientOrderId then (if w.quantity = q then none else some (reduced w q))
      else b.working id := by
  simp only [apply]
  split
  · exact b.remove_working w id
  · simp [Function.update_apply]

/-- A trade cancels nothing. -/
@[simp] theorem trade_canceled (b : Ledger) (o w : Order) (f : String) (q : OrderSize)
    (p : OrderPrice) : (b.apply (.trade o w f q p)).canceled = b.canceled := by
  simp only [apply]
  split <;> rfl

/-- A trade records two fills, the incoming party's first. -/
@[simp] theorem trade_fills (b : Ledger) (o w : Order) (f : String) (q : OrderSize)
    (p : OrderPrice) : (b.apply (.trade o w f q p)).fills =
      b.fills ++ [fillOf o f q p, fillOf w f q p] := by
  simp only [apply]

/-! ## Well-formed ledgers -/

/-- A working order of the contract under its id. -/
structure Live (contract id : String) (o : Order) : Prop extends Sound o where
  id : o.clientOrderId = id
  contract : o.contract = contract
  quantity : o.quantity ≠ 0
  status : o.status = .working

/-- Every id stands for one order at most, which is queued at its price and nowhere else. -/
structure WF (b : Ledger) : Prop where
  working : ∀ {id o}, b.working id = some o → Live b.contract id o
  canceled : ∀ {id o}, b.canceled id = some o → o.clientOrderId = id ∧ o.status = .cancelled
  disjoint : ∀ {id o}, b.working id = some o → b.canceled id = none
  queued : ∀ {id cp}, id ∈ b.queue cp ↔ ∃ o, b.working id = some o ∧ priceOf o = cp
  nodup : ∀ cp, (b.queue cp).Nodup

/-- The ledger of a contract without orders. -/
theorem WF.empty (contract : String) : WF { contract } where
  working h := nomatch h
  canceled h := nomatch h
  disjoint h := nomatch h
  queued := by simp
  nodup := by simp

/-- Without one of its orders a ledger is well formed. -/
theorem WF.remove {b : Ledger} (hb : b.WF) {w : Order} (hw : b.working w.clientOrderId = some w) :
    (b.remove w).WF where
  working {id o} h := by
    rw [remove_working] at h
    split at h
    · exact nomatch h
    · exact hb.working h
  canceled h := hb.canceled h
  disjoint {id o} h := by
    rw [remove_working] at h
    split at h
    · exact nomatch h
    · exact hb.disjoint h
  queued {id cp} := by
    rw [remove_working, remove_queue]
    by_cases hid : id = w.clientOrderId
    · subst hid
      -- it was queued at its own price only
      have : w.clientOrderId ∈ b.queue cp → cp = priceOf w := fun h => by
        obtain ⟨o, ho, rfl⟩ := hb.queued.mp h
        rw [hw] at ho
        cases ho; rfl
      by_cases hcp : cp = priceOf w
      · simp [hcp]
      · simp only [hcp, if_false, if_true]
        simpa using fun h => hcp (this h)
    · rw [if_neg hid, ← hb.queued]
      split
      · simp [hid]
      · rfl
  nodup cp := by
    rw [remove_queue]
    split
    · exact (hb.nodup cp).filter _
    · exact hb.nodup cp

/-- A fill that leaves something of a working order changes it in place. -/
private theorem WF.reduce {b : Ledger} (hb : b.WF) {w : Order} {q : OrderSize}
    (hw : b.working w.clientOrderId = some w) (hle : q ≤ w.quantity) (hq : w.quantity ≠ q) :
    WF { b with working := Function.update b.working w.clientOrderId (some (reduced w q)) } where
  working {id o} h := by
    simp only [Function.update_apply] at h
    split at h
    · next hid =>
      cases h
      have hl := hb.working hw
      refine { hl with id := hid.symm, quantity := fun h0 => hq ?_ }
      have h0 : w.quantity - q = 0 := h0
      -- what is left is not zero, as less than all of it was filled
      have := UInt64.toNat_sub_of_le _ _ hle
      rw [h0] at this
      have hle := UInt64.le_iff_toNat_le.mp hle
      apply UInt64.toNat_inj.mp
      simp only [UInt64.toNat_zero] at this
      omega
    · exact hb.working h
  canceled h := hb.canceled h
  disjoint {id o} h := by
    simp only [Function.update_apply] at h
    split at h
    · next hid => subst hid; exact hb.disjoint hw
    · exact hb.disjoint h
  queued {id cp} := by
    simp only [Function.update_apply]
    rw [hb.queued]
    split
    · next hid => subst hid; simp [hw]
    · rfl
  nodup := hb.nodup

/-- An order that starts to rest is put behind the others at its price. -/
private theorem WF.rest {b : Ledger} (hb : b.WF) {o : Order} (h : b.guard (.rest o)) :
    (b.apply (.rest o)).WF := by
  obtain ⟨hs, hq, hc, hw, hcn, -⟩ := h
  -- its id is new, so that no queue has it
  have hfresh : ∀ cp, o.clientOrderId ∉ b.queue cp := fun cp h => by
    obtain ⟨o', ho', -⟩ := hb.queued.mp h
    rw [hw] at ho'
    exact nomatch ho'
  constructor
  case working =>
    intro id o' h
    simp only [apply, Function.update_apply] at h
    split at h
    · next hid =>
      cases h
      exact ⟨⟨hs.priced, hs.side, hs.typed, hs.market⟩, hid.symm, hc, hq, rfl⟩
    · exact hb.working h
  case canceled => exact hb.canceled
  case disjoint =>
    intro id o' h
    simp only [apply, Function.update_apply] at h
    split at h
    · next hid => subst hid; exact hcn
    · exact hb.disjoint h
  case queued =>
    intro id cp
    simp only [apply, Function.update_apply]
    by_cases hid : id = o.clientOrderId
    · subst hid
      -- the status does not move it to another price
      have hp : priceOf { o with status := .working } = priceOf o := rfl
      by_cases hcp : cp = priceOf o
      · simp [hcp, hp]
      · simp [hcp, hp, hfresh cp, Ne.symm hcp]
    · rw [if_neg hid, ← hb.queued]
      by_cases hcp : cp = priceOf o
      · simp [hcp, hid]
      · simp [hcp]
  case nodup =>
    intro cp
    simp only [apply, Function.update_apply]
    split
    · exact List.nodup_append.mpr ⟨hb.nodup _, by simp, by
        intro x hx y hy
        simp only [List.mem_singleton] at hy
        rintro rfl
        exact hfresh _ (hy ▸ hx)⟩
    · exact hb.nodup cp

/-- Every allowed action leaves a well-formed ledger well formed. -/
theorem WF.apply {b : Ledger} (hb : b.WF) {a : Act} (h : b.guard a) : (b.apply a).WF := by
  cases a with
  | trade o w f q p =>
    -- the resting order is used up, or changed in place
    obtain ⟨hw, -, hle, -⟩ := h
    have hwf : WF (if w.quantity = q then b.remove w
        else { b with working := Function.update b.working w.clientOrderId (some (reduced w q)) }) := by
      split
      · exact hb.remove hw
      · next hne => exact hb.reduce hw hle hne
    exact { hwf with }
  | rest o => exact hb.rest h
  | archive o =>
    obtain ⟨hw, -⟩ := h
    refine { hb with canceled := ?_, disjoint := ?_ }
    · intro id o' h'
      simp only [Ledger.apply, Function.update_apply] at h'
      split at h'
      · next hid => cases h'; exact ⟨hid.symm, rfl⟩
      · exact hb.canceled h'
    · intro id o' h'
      -- the order that is recorded does not work, so that the two tables stay disjoint
      have hid : id ≠ o.clientOrderId := fun hid => by
        have h' : b.working id = some o' := h'
        rw [hid, hw] at h'
        exact nomatch h'
      simp only [Ledger.apply, Function.update_apply, hid, if_false]
      exact hb.disjoint h'
  | cancel w =>
    -- a cancelled order is taken out first, and then recorded
    have hr := hb.remove h
    refine { hr with canceled := ?_, disjoint := ?_ }
    · intro id o' h'
      simp only [Ledger.apply, Function.update_apply] at h'
      split at h'
      · next hid => cases h'; exact ⟨hid.symm, rfl⟩
      · exact hb.canceled h'
    · intro id o' h'
      have hid : id ≠ w.clientOrderId := fun hid => by
        have h' : (b.remove w).working id = some o' := h'
        simp [remove_working, hid] at h'
      simp only [Ledger.apply, Function.update_apply, hid, if_false]
      exact hr.disjoint h'
  | withdraw w => exact hb.remove h

/-- Along a run the ledger stays well formed. -/
theorem WF.exec {b : Ledger} (hb : b.WF) {as : List Act} (h : machine.Runs b as) :
    (machine.exec b as).WF :=
  h.invariant (fun _ _ hb h => hb.apply h) hb

/-! ## The book stays uncrossed -/

/-- No two working orders would trade with each other. -/
def Uncrossed (b : Ledger) : Prop :=
  ∀ ⦃id w id' w'⦄, b.working id = some w → b.working id' = some w' →
    ¬ Crosses (priceOf w) (priceOf w')

/-- Taking an order out crosses nothing. -/
theorem Uncrossed.remove {b : Ledger} (h : b.Uncrossed) (w : Order) : (b.remove w).Uncrossed := by
  intro id v id' v' hv hv'
  rw [remove_working] at hv hv'
  split at hv
  · exact nomatch hv
  · split at hv'
    · exact nomatch hv'
    · exact h hv hv'

/-- Every working order after a trade has the price of one that worked before. -/
private theorem trade_working_price {b : Ledger} {o w : Order} {f : String} {q : OrderSize}
    {p : OrderPrice} (hw : b.working w.clientOrderId = some w) {id : String} {v : Order}
    (hv : (b.apply (.trade o w f q p)).working id = some v) :
    ∃ u, b.working id = some u ∧ priceOf v = priceOf u := by
  rw [trade_working] at hv
  split at hv
  · next hid =>
    subst hid
    -- the order that rests is gone, or has kept its price
    split at hv
    · exact nomatch hv
    · cases hv; exact ⟨w, hw, rfl⟩
  · exact ⟨v, hv, rfl⟩

/-- No allowed action crosses the book: only `rest` adds an order, and its guard
    asks that nothing would trade with it. -/
theorem Uncrossed.apply {b : Ledger} (h : b.Uncrossed) {a : Act} (hg : b.guard a) :
    (b.apply a).Uncrossed := by
  cases a with
  | trade o w f q p =>
    intro id v id' v' hv hv'
    -- a trade leaves prices only that worked before
    obtain ⟨u, hu, hp⟩ := trade_working_price hg.1 hv
    obtain ⟨u', hu', hp'⟩ := trade_working_price hg.1 hv'
    rw [hp, hp']
    exact h hu hu'
  | rest o =>
    obtain ⟨-, -, -, -, -, hno⟩ := hg
    have hp : priceOf { o with status := .working } = priceOf o := rfl
    intro id v id' v' hv hv' hc
    simp only [Ledger.apply, Function.update_apply] at hv hv'
    split at hv <;> split at hv'
    · cases hv; cases hv'; exact hc.1 rfl
    · cases hv; exact hno _ _ hv' hc
    · cases hv'; exact hno _ _ hv hc.symm
    · exact h hv hv' hc
  | archive o => exact h
  | cancel w => exact h.remove w
  | withdraw w => exact h.remove w

theorem Uncrossed.exec {b : Ledger} (h : b.Uncrossed) {as : List Act} (hr : machine.Runs b as) :
    (machine.exec b as).Uncrossed :=
  hr.invariant (fun _ _ h hg => h.apply hg) h

/-! ## The quantity at a price -/

/-- The quantity an id has working. -/
def sizeOf (b : Ledger) (id : String) : Nat :=
  (b.working id).elim 0 (·.quantity.toNat)

/-- The quantity that works at a price. -/
def total (b : Ledger) (cp : ComparablePrice) : Nat :=
  ((b.queue cp).map b.sizeOf).sum

theorem sizeOf_of_working {b : Ledger} {id : String} {o : Order} (h : b.working id = some o) :
    b.sizeOf id = o.quantity.toNat := by
  simp [sizeOf, h]

theorem total_eq_zero_iff {b : Ledger} (hb : b.WF) {cp : ComparablePrice} :
    b.total cp = 0 ↔ b.queue cp = [] := by
  constructor
  · intro h
    rw [List.eq_nil_iff_forall_not_mem]
    intro id hid
    obtain ⟨o, ho, -⟩ := hb.queued.mp hid
    have hz : b.sizeOf id = 0 := by
      have := List.le_sum_of_mem (List.mem_map_of_mem (f := b.sizeOf) hid)
      unfold total at h
      omega
    rw [sizeOf_of_working ho] at hz
    exact (hb.working ho).quantity (UInt64.toNat_inj.mp hz)
  · intro h
    simp [total, h]

/-- The quantity an action takes off a price. -/
def taken (cp : ComparablePrice) : Act → Nat
  | .trade _ w _ q _ => if cp = priceOf w then q.toNat else 0
  | .cancel w => if cp = priceOf w then w.quantity.toNat else 0
  | .withdraw w => if cp = priceOf w then w.quantity.toNat else 0
  | _ => 0

/-- The quantity an action adds to a price. -/
def added (cp : ComparablePrice) : Act → Nat
  | .rest o => if cp = priceOf o then o.quantity.toNat else 0
  | _ => 0

/-- Taking a working order out takes its quantity off its price, and nothing off the others. -/
theorem total_remove {b : Ledger} (hb : b.WF) {w : Order} (hw : b.working w.clientOrderId = some w)
    (cp : ComparablePrice) :
    (b.remove w).total cp + (if cp = priceOf w then w.quantity.toNat else 0) = b.total cp := by
  -- the other orders keep their sizes
  have hsize : ∀ id ∈ b.queue cp, id ≠ w.clientOrderId → (b.remove w).sizeOf id = b.sizeOf id := by
    intro id _ hid
    simp [sizeOf, remove_working, hid]
  unfold total
  rw [remove_queue]
  by_cases hcp : cp = priceOf w
  · rw [if_pos hcp, if_pos hcp, ← sizeOf_of_working hw]
    exact List.sum_map_filter_ne (hb.nodup cp) (hb.queued.mpr ⟨w, hw, hcp.symm⟩) hsize
  · rw [if_neg hcp, if_neg hcp, Nat.add_zero]
    congr 1
    apply List.map_congr_left
    intro id hid
    apply hsize id hid
    -- the order is not queued at another price
    rintro rfl
    obtain ⟨o, ho, rfl⟩ := hb.queued.mp hid
    rw [hw] at ho
    cases ho
    exact hcp rfl

/-- A fill that leaves something takes its quantity off the price. -/
private theorem total_reduce {b : Ledger} (hb : b.WF) {w : Order} {q : OrderSize}
    (hw : b.working w.clientOrderId = some w) (hle : q ≤ w.quantity) (cp : ComparablePrice) :
    total { b with working := Function.update b.working w.clientOrderId (some (reduced w q)) } cp +
      (if cp = priceOf w then q.toNat else 0) = b.total cp := by
  have hsize : ∀ id, id ≠ w.clientOrderId →
      sizeOf { b with working := Function.update b.working w.clientOrderId (some (reduced w q)) } id
        = b.sizeOf id := by
    intro id hid
    simp [sizeOf, hid]
  -- only the filled order has become smaller
  have hown : sizeOf
      { b with working := Function.update b.working w.clientOrderId (some (reduced w q)) }
      w.clientOrderId + q.toNat = b.sizeOf w.clientOrderId := by
    rw [sizeOf_of_working hw, sizeOf_of_working (o := reduced w q) (by simp)]
    have := UInt64.toNat_sub_of_le _ _ hle
    have := UInt64.le_iff_toNat_le.mp hle
    simp only [reduced]
    omega
  unfold total
  by_cases hcp : cp = priceOf w
  · have := List.sum_map_change (hb.nodup cp) (hb.queued.mpr ⟨w, hw, hcp.symm⟩)
      (fun id _ hid => hsize id hid)
    rw [if_pos hcp]
    simp only at this ⊢
    omega
  · rw [if_neg hcp, Nat.add_zero]
    congr 1
    apply List.map_congr_left
    intro id hid
    apply hsize
    rintro rfl
    obtain ⟨o, ho, rfl⟩ := hb.queued.mp hid
    rw [hw] at ho
    cases ho
    exact hcp rfl

/-- What every allowed action does to the quantity at a price. -/
theorem total_apply {b : Ledger} (hb : b.WF) {a : Act} (h : b.guard a) (cp : ComparablePrice) :
    (b.apply a).total cp + taken cp a = b.total cp + added cp a := by
  cases a with
  | trade o w f q p =>
    obtain ⟨hw, -, hle, -⟩ := h
    -- the working order is used up, or reduced
    by_cases hq : w.quantity = q
    · subst hq
      simp only [apply, if_true]
      exact total_remove hb hw cp
    · simp only [apply, hq, if_false]
      exact total_reduce hb hw hle cp
  | rest o =>
    obtain ⟨-, -, -, hw, -, -⟩ := h
    -- the order that starts to rest was not queued anywhere
    have hsize : ∀ cp, ∀ id ∈ b.queue cp, (b.apply (.rest o)).sizeOf id = b.sizeOf id := by
      intro cp id hid
      have hne : id ≠ o.clientOrderId := by
        rintro rfl
        obtain ⟨o', ho', -⟩ := hb.queued.mp hid
        rw [hw] at ho'
        exact nomatch ho'
      simp [sizeOf, apply, hne]
    have hown : (b.apply (.rest o)).sizeOf o.clientOrderId = o.quantity.toNat :=
      sizeOf_of_working (o := { o with status := .working }) (by simp [apply])
    simp only [taken, added, Nat.add_zero]
    unfold total
    by_cases hcp : cp = priceOf o
    · -- at its own price it is put behind the others
      have hq : (b.apply (.rest o)).queue cp = b.queue cp ++ [o.clientOrderId] := by
        simp [apply, hcp]
      rw [hq, if_pos hcp, List.map_append, List.sum_append, List.map_congr_left (hsize cp)]
      simp [hown]
    · have hq : (b.apply (.rest o)).queue cp = b.queue cp := by simp [apply, hcp]
      rw [hq, if_neg hcp, List.map_congr_left (hsize cp), Nat.add_zero]
  | archive o => rfl
  | cancel w => exact total_remove hb h cp
  | withdraw w => exact total_remove hb h cp

/-- A run adds to a price at most what its actions add. -/
theorem total_exec_le {b : Ledger} (hb : b.WF) {as : List Act} (h : machine.Runs b as)
    (cp : ComparablePrice) :
    (machine.exec b as).total cp ≤ b.total cp + (as.map (added cp)).sum := by
  induction as generalizing b with
  | nil => simp
  | cons a as ih =>
    have hstep := total_apply hb h.1 cp
    have hrest := ih (hb.apply h.1) h.2
    rw [Guarded.exec_cons, machine_apply, List.map_cons, List.sum_cons]
    omega

end Ledger

/-! ## Matching an incoming order -/

/-- A trade that is going to happen: the working order as it is now, and the
    quantity and price agreed. -/
structure Round where
  working : Order
  quantity : OrderSize
  price : OrderPrice

/-- The text of a fill id. -/
def fillIdText (n : UInt32) : String := "Fill-" ++ n.toNat.repr

/-- The rounds of an incoming order as actions; the fill ids count up. -/
def trades (o : Order) : UInt32 → List Round → List Act
  | _, [] => []
  | n, r :: rounds =>
    .trade o r.working (fillIdText (n + 1)) r.quantity r.price :: trades o (n + 1) rounds

/-- What is left of an incoming order after its rounds. -/
def remainderOf (o : Order) (remainder : OrderSize) : Order :=
  { o with filledQuantity := o.quantity - remainder, quantity := remainder }

/-- What is left of an order has its id. -/
@[simp] theorem remainderOf_clientOrderId (o : Order) (r : OrderSize) :
    (remainderOf o r).clientOrderId = o.clientOrderId := rfl

/-- What is left of an order has its price. -/
@[simp] theorem priceOf_remainderOf (o : Order) (r : OrderSize) :
    priceOf (remainderOf o r) = priceOf o := rfl

/-- What happens to the part of an incoming order that did not trade. -/
def leftover (o : Order) (remainder : OrderSize) (isDelete : Bool) : List Act :=
  if remainder = 0 then []
  else if isDelete then [.archive (remainderOf o remainder)]
  else [.rest (remainderOf o remainder)]

/-- A complete matching of an incoming order against a ledger: every round is a
    legal trade with a different working order, the quantities add up, something is
    left only where all it would trade with is not enough, and if that may rest then
    everything it would trade with is used up. -/
structure Matching (b : Ledger) (o : Order) (rounds : List Round) (remainder : OrderSize)
    (isDelete : Bool) : Prop where
  nodup : (rounds.map (·.working.clientOrderId)).Nodup
  working : ∀ r ∈ rounds, b.working r.working.clientOrderId = some r.working
  crosses : ∀ r ∈ rounds, Crosses (priceOf o) (priceOf r.working)
  quantity : ∀ r ∈ rounds, r.quantity ≠ 0 ∧ r.quantity ≤ r.working.quantity
  total : (rounds.map (·.quantity.toNat)).sum + remainder.toNat = o.quantity.toNat
  exhausted : remainder ≠ 0 → isDelete = false → ∀ id w, b.working id = some w →
    Crosses (priceOf o) (priceOf w) → ∃ r ∈ rounds, r.working = w ∧ r.quantity = w.quantity
  short : remainder ≠ 0 → ∀ ws : List Order, (ws.map (·.clientOrderId)).Nodup →
    (∀ w ∈ ws, b.working w.clientOrderId = some w ∧ Crosses (priceOf o) (priceOf w)) →
    (ws.map (·.quantity.toNat)).sum < o.quantity.toNat

/-- A matching may be given up as a whole, with nothing left to rest. -/
theorem Matching.nothing {b : Ledger} {o : Order} {rounds : List Round} {remainder : OrderSize}
    {isDelete : Bool} (h : Matching b o rounds remainder isDelete) (hr : remainder ≠ 0) :
    Matching b o [] o.quantity true where
  nodup := List.nodup_nil
  working := by simp
  crosses := by simp
  quantity := by simp
  total := by simp
  exhausted := by simp
  short _ := h.short hr

namespace Ledger

/-- Rounds cancel nothing. -/
@[simp] theorem exec_trades_canceled (b : Ledger) (o : Order) (n : UInt32) (rounds : List Round) :
    (machine.exec b (trades o n rounds)).canceled = b.canceled := by
  induction rounds generalizing b n with
  | nil => rfl
  | cons r rounds ih => simp [trades, ih]

/-- Rounds leave the working orders alone that have no part in them. -/
theorem exec_trades_working_of_ne (b : Ledger) (o : Order) (n : UInt32) {rounds : List Round}
    {id : String} (h : ∀ r ∈ rounds, r.working.clientOrderId ≠ id) :
    (machine.exec b (trades o n rounds)).working id = b.working id := by
  induction rounds generalizing b n with
  | nil => rfl
  | cons r rounds ih =>
    simp only [trades, Guarded.exec_cons, machine_apply]
    rw [ih _ _ fun r' hr' => h r' (List.mem_cons_of_mem _ hr'), trade_working,
      if_neg (h r List.mem_cons_self).symm]

/-- After rounds with different working orders, each is reduced by its round. -/
theorem exec_trades_working (b : Ledger) (o : Order) (n : UInt32) {rounds : List Round}
    (hnd : (rounds.map (·.working.clientOrderId)).Nodup) {r : Round} (hr : r ∈ rounds) :
    (machine.exec b (trades o n rounds)).working r.working.clientOrderId =
      if r.working.quantity = r.quantity then none else some (reduced r.working r.quantity) := by
  induction rounds generalizing b n with
  | nil => exact nomatch hr
  | cons r' rounds ih =>
    simp only [List.map_cons, List.nodup_cons] at hnd
    simp only [trades, Guarded.exec_cons, machine_apply]
    -- its own round reduces it, and the others have no part in it
    rcases List.mem_cons.mp hr with rfl | hr
    · rw [exec_trades_working_of_ne, trade_working, if_pos rfl]
      intro r' hr' heq
      exact hnd.1 (List.mem_map.mpr ⟨r', hr', heq⟩)
    · exact ih _ _ hnd.2 hr

/-- Rounds with different working orders are a run. -/
theorem runs_trades {b : Ledger} {o : Order} (ho : Sound o) (hcontract : o.contract = b.contract)
    (n : UInt32) {rounds : List Round}
    (hnd : (rounds.map (·.working.clientOrderId)).Nodup)
    (hw : ∀ r ∈ rounds, b.working r.working.clientOrderId = some r.working)
    (hc : ∀ r ∈ rounds, Crosses (priceOf o) (priceOf r.working))
    (hq : ∀ r ∈ rounds, r.quantity ≠ 0 ∧ r.quantity ≤ r.working.quantity) :
    machine.Runs b (trades o n rounds) := by
  induction rounds generalizing b n with
  | nil => trivial
  | cons r rounds ih =>
    simp only [List.map_cons, List.nodup_cons] at hnd
    have hr := List.mem_cons_self (a := r) (l := rounds)
    -- the first round is allowed, and the working orders of the others are as they were
    refine ⟨⟨hw r hr, (hq r hr).1, (hq r hr).2, hc r hr, ho, hcontract⟩,
      ih (by rw [machine_apply, apply_contract]; exact hcontract) (n + 1) hnd.2 ?_ ?_ ?_⟩
    · intro r' hr'
      have hne : r'.working.clientOrderId ≠ r.working.clientOrderId := fun heq =>
        hnd.1 (List.mem_map.mpr ⟨r', hr', heq⟩)
      rw [machine_apply, trade_working, if_neg hne]
      exact hw r' (List.mem_cons_of_mem _ hr')
    · exact fun r' hr' => hc r' (List.mem_cons_of_mem _ hr')
    · exact fun r' hr' => hq r' (List.mem_cons_of_mem _ hr')

end Ledger

/-- Whether an order is sound depends on its price, side and type. -/
theorem Sound.congr {o o' : Order} (h : Sound o) (hp : o'.price = o.price)
    (hb : o'.buySell = o.buySell) (ht : o'.orderType = o.orderType) : Sound o' := by
  have hof : ComparablePrice.ofOrder o' = ComparablePrice.ofOrder o := by
    simp [ComparablePrice.ofOrder, hp, hb]
  have hpr : priceOf o' = priceOf o := by simp [priceOf, hof]
  exact ⟨by rw [hof, hpr]; exact h.priced, by rw [hb]; exact h.side, by rw [ht]; exact h.typed,
    by rw [ht, hpr]; exact h.market⟩

/-- Carrying out a complete matching is a run: what is left of the order rests only
    where nothing would trade with it. -/
theorem Matching.runs {b : Ledger} {o : Order} {rounds : List Round} {remainder : OrderSize}
    {isDelete : Bool} (h : Matching b o rounds remainder isDelete) (n : UInt32) (hb : b.WF)
    (ho : Sound o) (hc : o.contract = b.contract)
    (hw : b.working o.clientOrderId = none) (hcn : b.canceled o.clientOrderId = none) :
    Ledger.machine.Runs b (trades o n rounds ++ leftover o remainder isDelete) := by
  -- an order does not trade with itself, as its id does not work
  have hne : ∀ r ∈ rounds, r.working.clientOrderId ≠ o.clientOrderId := by
    intro r hr heq
    have := h.working r hr
    rw [heq, hw] at this
    exact nomatch this
  have hw' : (Ledger.machine.exec b (trades o n rounds)).working o.clientOrderId = none := by
    rw [Ledger.exec_trades_working_of_ne b o n hne, hw]
  rw [Guarded.runs_append]
  refine ⟨Ledger.runs_trades ho hc n h.nodup h.working h.crosses h.quantity, ?_⟩
  unfold leftover
  split
  · trivial
  · next hrem =>
    split
    · -- a remainder that is cancelled only needs a free id
      exact ⟨⟨hw', by simpa using hcn⟩, trivial⟩
    · next hdel =>
      refine ⟨⟨ho.congr rfl rfl rfl, hrem, by rw [Ledger.exec_contract]; exact hc,
        hw', by simpa using hcn, ?_⟩, trivial⟩
      -- a remainder that rests must not cross what still works
      intro id w hid hcross
      rw [priceOf_remainderOf] at hcross
      by_cases hin : ∃ r ∈ rounds, r.working.clientOrderId = id
      · -- the order took part in a round, so it is what that round left of it
        obtain ⟨r, hr, rfl⟩ := hin
        rw [Ledger.exec_trades_working b o n h.nodup hr] at hid
        split at hid
        · exact nomatch hid
        · next hpart =>
          cases hid
          obtain ⟨r', hr', hw'', hq'⟩ := h.exhausted hrem (by simpa using hdel) _ _
            (h.working r hr) (h.crosses r hr)
          have : r' = r := List.inj_on_of_nodup_map h.nodup hr' hr (by rw [hw''])
          subst this
          exact hpart hq'.symm
      · -- it took no part, so it would have been used up
        have hout : ∀ r ∈ rounds, r.working.clientOrderId ≠ id := fun r hr heq => hin ⟨r, hr, heq⟩
        rw [Ledger.exec_trades_working_of_ne b o n hout] at hid
        obtain ⟨r, hr, rfl, -⟩ := h.exhausted hrem (by simpa using hdel) _ _ hid hcross
        exact hin ⟨r, hr, (hb.working hid).id⟩

end FixHandler.Trade
