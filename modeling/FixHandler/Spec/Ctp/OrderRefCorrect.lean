import Mathlib
import FixHandler.ForStd.EachStep
import FixHandler.ForStd.TreeMap
import FixHandler.Native.Ctp.TraderSpi

/-!
# The references of orders at the CTP gateway

A reference is written as decimal text and read back as it was. If no login reports a reference that
is below one that was used, the references of the orders that are inserted increase; the map from
references to client ids then holds each of them for good, and reports and cancellations find them.
A fill is an exception: it does not show an empty client id, but a text in its place.

## Key results

- `itoa_eq`: the decimal text of a number
- `mem_index_iff`: the map holds the orders that were inserted
- `references_identify`: reports and cancellations are about the orders they refer to
-/

namespace FixHandler.Ctp

open Ems
open Cxx (atoi)

/-! ## Numbers as text -/

/-- The character of a digit -/
theorem ofNat_digit {d : Nat} (hd : d < 10) : Char.ofNat (d + '0'.toNat) = d.digitChar := by
  interval_cases d <;> rfl

/-- The loop of `itoa` makes the decimal digits from the last to the first. -/
theorem itoaDigits_eq (val : Nat) : itoaDigits val = (Nat.toDigits 10 val).reverse := by
  induction val using itoaDigits.induct with
  | case1 val _ ih =>
    unfold itoaDigits
    dsimp only
    rw [ofNat_digit (Nat.mod_lt val (by decide))]
    by_cases hrest : 0 < val / 10
    · have hval := Nat.toDigits_of_base_le (b := 10) (n := val) (by decide) (by omega)
      rw [if_pos hrest, hval, List.reverse_append, List.reverse_singleton, List.singleton_append]
      exact congrArg _ (ih hrest)
    · rw [if_neg hrest, Nat.toDigits_of_lt_base (by omega), Nat.mod_eq_of_lt (by omega),
        List.reverse_singleton]

/-- The bits of a number are the number, or the number and a power of 2. -/
theorem toNat_toUInt32_emod (n : Int32) : (n.toUInt32.toNat : Int) = n.toInt % 2 ^ 32 := by
  have h : n.toInt = (n.toUInt32.toNat : Int).bmod (2 ^ 32) :=
    BitVec.toInt_eq_toNat_bmod n.toBitVec
  have hlt := n.toUInt32.toNat_lt
  rw [h, Int.bmod_def]
  omega

/-- The digits that are written are those of the absolute value, also for the least number. -/
theorem toNat_itoa (val : Int32) :
    (if val < 0 then (-val.toInt64).toInt32 else val).toUInt32.toNat = val.toInt.natAbs := by
  have hlower := val.le_toInt
  have hupper := val.toInt_lt
  have hzero : (0 : Int32).toInt = 0 := rfl
  -- the least value is negated to itself, and its unsigned reading is the absolute value all the
  -- same
  by_cases hneg : val < 0
  · have hnat := toNat_toUInt32_emod (-val.toInt64).toInt32
    rw [Int64.toInt_toInt32, Int64.toInt_neg, Int32.toInt_toInt64] at hnat
    rw [Int32.lt_iff_toInt_lt] at hneg
    rw [if_pos (Int32.lt_iff_toInt_lt.mpr hneg)]
    rw [Int.bmod_def, Int.bmod_def] at hnat
    omega
  · have hnat := toNat_toUInt32_emod val
    rw [if_neg hneg]
    rw [Int32.lt_iff_toInt_lt] at hneg
    omega

/-- The text is the decimal one. -/
theorem itoa_eq (val : Int32) : itoa val = toString val.toInt := by
  have hdigits := itoaDigits_eq val.toInt.natAbs
  have hne : itoaDigits val.toInt.natAbs ≠ [] := by
    rw [hdigits, ne_eq, List.reverse_eq_nil_iff]
    exact Nat.toDigits_ne_nil
  -- the loop that turns the digits round starts behind the sign
  have hloop (sign : List Char) :
      (sign ++ itoaDigits val.toInt.natAbs).reverseLoop sign.length
        ((sign ++ itoaDigits val.toInt.natAbs).length - 1) =
      sign ++ val.toInt.natAbs.repr.toList := by
    have h := List.reverseLoop_eq (itoaDigits val.toInt.natAbs) hne sign []
    rw [List.append_nil, List.append_nil, hdigits, List.reverse_reverse] at h
    rw [List.length_append, hdigits, h, Nat.repr_eq_ofList_toDigits, String.toList_ofList]
  have hzero : (0 : Int32).toInt = 0 := rfl
  unfold itoa
  dsimp only
  rw [toNat_itoa, hloop]
  -- with and without a sign
  cases hval : val.toInt with
  | ofNat m =>
    have hneg : ¬ val < 0 := by
      rw [Int32.lt_iff_toInt_lt, hval, hzero]
      exact Int.not_lt.mpr (Int.natCast_nonneg m)
    rw [if_neg hneg, List.nil_append, String.ofList_toList]
    rfl
  | negSucc m =>
    have hneg : val < 0 := by
      rw [Int32.lt_iff_toInt_lt, hval, hzero]
      exact Int.negSucc_lt_zero m
    rw [if_pos hneg, String.ofList_append, String.ofList_toList]
    rfl

/-- A reference is read back. -/
theorem atoi_itoa (val : Int32) : atoi (itoa val) = val := by
  rw [itoa_eq]
  exact Cxx.atoi_toString val

/-! ## Runs -/

variable {account : Account}

/-- The last event of a run -/
theorem run_append (s : State) (events : List Event) (event : Event) :
    s.run account (events ++ [event]) = (s.run account events).step account event :=
  List.foldl_append

/-- The requests of two parts of a run -/
theorem requests_append (s : State) (events events' : List Event) :
    s.requests account (events ++ events') =
      s.requests account events ++ (s.run account events).requests account events' := by
  induction events generalizing s with
  | nil => rfl
  | cons event events ih =>
    rw [List.cons_append, State.requests, State.requests, ih, List.append_assoc]
    rfl

/-- The request of the last event -/
theorem requests_append_singleton (s : State) (events : List Event) (event : Event) :
    s.requests account (events ++ [event]) =
      s.requests account events ++ (s.run account events).request account event := by
  rw [requests_append, State.requests, State.requests, List.append_nil]

/-- No login reports a reference that is below one that was used, and references are below
    `2 ^ 31 - 1`. -/
def InOrder (account : Account) (s : State) : List Event → Prop :=
  List.EachStep fun before event =>
    match event with
    | .onRspUserLogin maxOrderRef errorID => errorID = 0 →
      (atoi maxOrderRef).toInt < 2 ^ 31 - 1 ∧
        ∀ request ∈ s.requests account before, atoi request.2.orderRef ≤ atoi maxOrderRef
    | .reqOrderInsert _ => (s.run account before).maxOrderRef.toInt < 2 ^ 31 - 1

/-- What holds after some calls of what was inserted -/
structure Indexed (account : Account) (s₀ : State) (events : List Event) : Prop where
  written : ∀ request ∈ s₀.requests account events,
    itoa (atoi request.2.orderRef) = request.2.orderRef
  below : ∀ request ∈ s₀.requests account events,
    (atoi request.2.orderRef).toInt < (s₀.run account events).maxOrderRef.toInt
  increasing : (s₀.requests account events).Pairwise fun earlier later =>
    (atoi earlier.2.orderRef).toInt < (atoi later.2.orderRef).toInt
  index : ∀ orderRef clientOrderId,
    (s₀.run account events).clientOrdersIndex[orderRef]? = some clientOrderId ↔
      ∃ request ∈ s₀.requests account events,
        atoi request.2.orderRef = orderRef ∧ request.1.clientOrderId = clientOrderId

/-- The reference is raised below its greatest value. -/
theorem toInt_succ {n : Int32} (h : n.toInt < 2 ^ 31 - 1) : (n + 1).toInt = n.toInt + 1 := by
  have hlower := n.le_toInt
  have hone : (1 : Int32).toInt = 1 := rfl
  rw [Int32.toInt_add, hone, Int.bmod_def]
  omega

/-- A login moves the reference upwards. -/
theorem Indexed.onRspUserLogin {s₀ : State} {events : List Event} {maxOrderRef : String}
    {errorID : Int32} (h : Indexed account s₀ events)
    (horder : errorID = 0 → (atoi maxOrderRef).toInt < 2 ^ 31 - 1 ∧
      ∀ request ∈ s₀.requests account events, atoi request.2.orderRef ≤ atoi maxOrderRef) :
    Indexed account s₀ (events ++ [.onRspUserLogin maxOrderRef errorID]) := by
  -- a login sends no order and leaves the index
  have hrequests : s₀.requests account (events ++ [.onRspUserLogin maxOrderRef errorID]) =
      s₀.requests account events :=
    (requests_append_singleton s₀ events _).trans (List.append_nil _)
  have hindex : (s₀.run account (events ++ [.onRspUserLogin maxOrderRef errorID])).clientOrdersIndex
      = (s₀.run account events).clientOrdersIndex := by
    rw [run_append, State.step, State.onRspUserLogin]
    split <;> rfl
  constructor
  · rw [hrequests]
    exact h.written
  · intro request hrequest
    rw [hrequests] at hrequest
    rw [run_append, State.step, State.onRspUserLogin]
    by_cases herror : errorID = 0
    · -- the reference of the new session is above all that were used
      obtain ⟨hlt, hall⟩ := horder herror
      have hle := Int32.le_iff_toInt_le.mp (hall request hrequest)
      rw [if_pos herror]
      dsimp only
      rw [toInt_succ hlt]
      omega
    · rw [if_neg herror]
      exact h.below request hrequest
  · rw [hrequests]
    exact h.increasing
  · intro orderRef clientOrderId
    rw [hrequests, hindex]
    exact h.index orderRef clientOrderId

/-- An order that is inserted gets a new reference. -/
theorem Indexed.reqOrderInsert {s₀ : State} {events : List Event} {order : Order}
    (h : Indexed account s₀ events) (hlt : (s₀.run account events).maxOrderRef.toInt < 2 ^ 31 - 1) :
    Indexed account s₀ (events ++ [.reqOrderInsert order]) := by
  -- the order is sent with the reference that comes next
  have hrequests : s₀.requests account (events ++ [.reqOrderInsert order]) =
      s₀.requests account events ++
        [(order, inputOrder account order (s₀.run account events).maxOrderRef)] :=
    requests_append_singleton s₀ events _
  have hstate : s₀.run account (events ++ [.reqOrderInsert order]) = {
      clientOrdersIndex := (s₀.run account events).clientOrdersIndex.insert
        (s₀.run account events).maxOrderRef order.clientOrderId
      maxOrderRef := (s₀.run account events).maxOrderRef + 1 } :=
    run_append s₀ events _
  -- the reference is read back from its text
  have hread : atoi (inputOrder account order (s₀.run account events).maxOrderRef).orderRef =
      (s₀.run account events).maxOrderRef :=
    atoi_itoa _
  constructor
  · rw [hrequests]
    intro request hrequest
    rcases List.mem_append.mp hrequest with hold | hnew
    · exact h.written request hold
    · rw [List.mem_singleton.mp hnew]
      dsimp only
      rw [hread]
      rfl
  · rw [hrequests, hstate]
    intro request hrequest
    dsimp only
    rw [toInt_succ hlt]
    rcases List.mem_append.mp hrequest with hold | hnew
    · have hbelow := h.below request hold
      omega
    · rw [List.mem_singleton.mp hnew]
      dsimp only
      rw [hread]
      omega
  · -- the new reference is above those sent before
    rw [hrequests, List.pairwise_append]
    refine ⟨h.increasing, List.pairwise_singleton _ _, fun request hrequest new hnew => ?_⟩
    rw [List.mem_singleton.mp hnew]
    dsimp only
    rw [hread]
    exact h.below request hrequest
  · intro orderRef clientOrderId
    rw [hrequests, hstate]
    dsimp only
    rw [Std.TreeMap.getElem?_insert_if]
    by_cases heq : orderRef = (s₀.run account events).maxOrderRef
    · rw [if_pos heq, Option.some_inj]
      constructor
      · intro hid
        exact ⟨_, List.mem_append_right _ List.mem_cons_self, hread.trans heq.symm, hid⟩
      · rintro ⟨request, hrequest, href, hid⟩
        rcases List.mem_append.mp hrequest with hold | hnew
        · -- the reference was not used before
          have hbelow := h.below request hold
          rw [href, heq] at hbelow
          exact absurd hbelow (Int.lt_irrefl _)
        · rw [List.mem_singleton.mp hnew] at hid
          exact hid
    · -- under any other reference the index says what it said
      rw [if_neg heq, h.index]
      constructor
      · rintro ⟨request, hrequest, hsame⟩
        exact ⟨request, List.mem_append_left _ hrequest, hsame⟩
      · rintro ⟨request, hrequest, href, hid⟩
        rcases List.mem_append.mp hrequest with hold | hnew
        · exact ⟨request, hold, href, hid⟩
        · rw [List.mem_singleton.mp hnew] at href
          exact absurd (href.symm.trans hread) heq

/-- Nothing was requested and nothing is indexed. -/
theorem indexed_nil (s : State) (hempty : s.clientOrdersIndex = ∅) : Indexed account s [] where
  written := fun _ h => nomatch h
  below := fun _ h => nomatch h
  increasing := List.Pairwise.nil
  index orderRef clientOrderId := by
    rw [State.run, List.foldl_nil, hempty, Std.TreeMap.getElem?_emptyc]
    exact ⟨(nomatch ·), fun ⟨_, h, _⟩ => nomatch h⟩

/-- Over a run from an empty map -/
theorem indexed {s : State} (hempty : s.clientOrdersIndex = ∅) {events : List Event}
    (h : InOrder account s events) : Indexed account s events := by
  induction events using List.reverseRecOn with
  | nil => exact indexed_nil s hempty
  | append_singleton events event ih =>
    obtain ⟨hbefore, hevent⟩ := List.eachStep_append_singleton.mp h
    cases event with
    | onRspUserLogin maxOrderRef errorID => exact (ih hbefore).onRspUserLogin hevent
    | reqOrderInsert order => exact (ih hbefore).reqOrderInsert hevent

/-! ## Reports and cancellations -/

/-- A report with this reference is sent with the id of the order, as far as its time can be read;
    a fill shows the id of the exchange and the reference in place of an empty id. -/
structure Identified (s : State) (order : Order) (orderRef : String) : Prop where
  onInsertOrder : ∀ p errorID, p.orderRef = orderRef →
    (s.onInsertOrder p errorID).clientOrderId = order.clientOrderId
  onActionOrder : ∀ p, p.orderRef = orderRef →
    (s.onActionOrder p).clientOrderId = order.clientOrderId
  onOrder : ∀ p, p.orderRef = orderRef →
    (s.onOrder p).map (·.clientOrderId) = p.submitTime.map fun _ => order.clientOrderId
  onFill : order.clientOrderId ≠ "" → ∀ p, p.orderRef = orderRef →
    (s.onFill p).map (·.clientOrderId) = p.time.map fun _ => order.clientOrderId
  onFill_of_empty : order.clientOrderId = "" → ∀ p, p.orderRef = orderRef →
    (s.onFill p).map (·.clientOrderId) = p.time.map fun _ => p.orderSysID ++ "|" ++ orderRef
  onQryOrder : ∀ p, p.orderRef = orderRef →
    (s.onQryOrder p).map (·.clientOrderId) = p.submitTime.map fun _ => order.clientOrderId
  onQryTrade : ∀ p, p.orderRef = orderRef →
    (s.onQryTrade p).map (·.clientOrderId) = p.time.map fun _ => order.clientOrderId

/-- A report with an indexed reference has its client id. -/
theorem clientOrderId_of_index {s : State} {orderRef clientOrderId : String}
    (h : s.clientOrdersIndex[atoi orderRef]? = some clientOrderId) (unknown : String) :
    s.clientOrderId orderRef unknown = clientOrderId := by
  unfold State.clientOrderId
  rw [h, Option.getD_some]

/-- What is found under a reference is shown. -/
theorem identified_of_index {s : State} {order : Order} {orderRef : String}
    (h : s.clientOrdersIndex[atoi orderRef]? = some order.clientOrderId) :
    Identified s order orderRef where
  onInsertOrder p errorID hp := by
    unfold State.onInsertOrder
    rw [hp]
    exact clientOrderId_of_index h _
  onActionOrder p hp := by
    unfold State.onActionOrder
    rw [hp]
    exact clientOrderId_of_index h _
  onOrder p hp := by
    unfold State.onOrder
    rw [hp, clientOrderId_of_index h]
    cases p.submitTime <;> rfl
  onFill hne p hp := by
    unfold State.onFill
    rw [hp, clientOrderId_of_index h]
    dsimp only
    rw [if_neg hne]
    cases p.time <;> rfl
  -- the empty id is taken for an unknown one
  onFill_of_empty hempty p hp := by
    unfold State.onFill
    rw [hp, clientOrderId_of_index h]
    dsimp only
    rw [if_pos hempty]
    cases p.time <;> rfl
  onQryOrder p hp := by
    unfold State.onQryOrder
    rw [hp, clientOrderId_of_index h]
    cases p.submitTime <;> rfl
  onQryTrade p hp := by
    unfold State.onQryTrade
    rw [hp, clientOrderId_of_index h]
    cases p.time <;> rfl

/-- A cancellation carries the reference of the only order with its id. -/
theorem Indexed.reqOrderAction {s₀ : State} {events : List Event} (h : Indexed account s₀ events)
    {order inserted : Order} {field : InputOrderField}
    (honly : (s₀.requests account events).filter
      (fun request => request.1.clientOrderId == order.clientOrderId) = [(inserted, field)]) :
    ∃ action, (s₀.run account events).reqOrderAction account order = some action ∧
      action.orderRef = field.orderRef := by
  have hmem : (inserted, field) ∈ s₀.requests account events ∧
      inserted.clientOrderId = order.clientOrderId := by
    have hfilter := List.mem_filter.mp (honly ▸ List.mem_singleton_self (inserted, field))
    exact ⟨hfilter.1, eq_of_beq hfilter.2⟩
  -- the order is in the index, so the search ends with an entry
  have hindex := (h.index (atoi field.orderRef) order.clientOrderId).mpr
    ⟨_, hmem.1, rfl, hmem.2⟩
  unfold State.reqOrderAction
  cases hfind : (s₀.run account events).clientOrdersIndex.toList.find?
      (fun item => item.2 == order.clientOrderId) with
  | none =>
    have hentry := Std.TreeMap.mem_toList_iff_getElem?_eq_some.mpr hindex
    exact absurd (beq_self_eq_true _) (List.find?_eq_none.mp hfind _ hentry)
  | some item =>
    have hid : item.2 = order.clientOrderId := by
      have hbeq := List.find?_some hfind
      exact eq_of_beq hbeq
    have hitem := Std.TreeMap.mem_toList_iff_getElem?_eq_some.mp (List.mem_of_find?_eq_some hfind)
    obtain ⟨request, hrequest, href, hclient⟩ := (h.index item.1 item.2).mp hitem
    -- the order that is found is the one that was inserted
    have hsame : request ∈ [(inserted, field)] := by
      rw [← honly, List.mem_filter]
      exact ⟨hrequest, by rw [hclient, hid]; exact beq_self_eq_true _⟩
    rw [List.mem_singleton.mp hsame] at href
    refine ⟨_, rfl, ?_⟩
    dsimp only
    rw [← href]
    exact h.written _ hmem.1

/-- The references of the orders that are inserted in a run are all different, the map keeps what it
    holds and has every order, reports are about the orders they refer to, and so is a cancellation
    for an id that was used once. -/
theorem references_identify {s₀ : State} (hempty : s₀.clientOrdersIndex = ∅) {events : List Event}
    (h : InOrder account s₀ events) :
    ((s₀.requests account events).Pairwise fun earlier later =>
      earlier.2.orderRef ≠ later.2.orderRef) ∧
    (∀ before, before <+: events → ∀ (orderRef : Int32) (clientOrderId : String),
      (s₀.run account before).clientOrdersIndex[orderRef]? = some clientOrderId →
        (s₀.run account events).clientOrdersIndex[orderRef]? = some clientOrderId) ∧
    (∀ request ∈ s₀.requests account events,
      (s₀.run account events).clientOrdersIndex[atoi request.2.orderRef]? =
          some request.1.clientOrderId ∧
        Identified (s₀.run account events) request.1 request.2.orderRef) ∧
    ∀ order inserted field, (s₀.requests account events).filter
        (fun request => request.1.clientOrderId == order.clientOrderId) = [(inserted, field)] →
      ∃ action, (s₀.run account events).reqOrderAction account order = some action ∧
        action.orderRef = field.orderRef := by
  have hindexed := indexed hempty h
  refine ⟨hindexed.increasing.imp fun hlt heq => ?_, ?_, fun request hrequest => ?_,
    fun order inserted field => hindexed.reqOrderAction⟩
  · rw [heq] at hlt
    exact Int.lt_irrefl _ hlt
  · -- an entry of a first part stands for a request, which the whole run has too
    rintro before ⟨after, rfl⟩ orderRef clientOrderId hbefore
    have hpfx := indexed hempty (h.of_prefix (List.prefix_append before after))
    obtain ⟨request, hrequest, hsame⟩ := (hpfx.index orderRef clientOrderId).mp hbefore
    refine (hindexed.index orderRef clientOrderId).mpr ⟨request, ?_, hsame⟩
    rw [requests_append]
    exact List.mem_append_left _ hrequest
  · have hindex := (hindexed.index _ _).mpr ⟨request, hrequest, rfl, rfl⟩
    exact ⟨hindex, identified_of_index hindex⟩

/-- Two logins, and an order after each of them -/
def twoLogins : List Event :=
  [.onRspUserLogin "41" 0, .reqOrderInsert { clientOrderId := "a" }, .onRspUserLogin "50" 0,
    .reqOrderInsert { clientOrderId := "b" }]

/-- The second of two sessions, the reference of which goes on at 51 -/
theorem references_identify_twoLogins :
    ∃ action, (State.run {} { maxOrderRef := 0 } twoLogins).reqOrderAction {}
      { clientOrderId := "b" } = some action ∧ action.orderRef = "51" := by
  let s₀ : State := { maxOrderRef := 0 }
  have hlogin : InOrder {} s₀ ([] ++ [.onRspUserLogin "41" 0]) :=
    List.eachStep_append_singleton.mpr ⟨List.eachStep_nil, fun _ =>
      ⟨by decide +kernel, fun _ hrequest => nomatch hrequest⟩⟩
  have hinsert : InOrder {} s₀ ([.onRspUserLogin "41" 0] ++
      [.reqOrderInsert { clientOrderId := "a" }]) :=
    List.eachStep_append_singleton.mpr ⟨hlogin, by decide +kernel⟩
  -- the second session starts above the reference that was used
  have hagain : InOrder {} s₀ ([.onRspUserLogin "41" 0, .reqOrderInsert { clientOrderId := "a" }] ++
      [.onRspUserLogin "50" 0]) := by
    refine List.eachStep_append_singleton.mpr ⟨hinsert, fun _ =>
      ⟨by decide +kernel, fun request hrequest => ?_⟩⟩
    have hread : atoi request.2.orderRef = 42 := by
      rw [List.mem_singleton.mp hrequest]
      exact atoi_itoa 42
    rw [hread]
    decide +kernel
  have horder : InOrder {} s₀ ([.onRspUserLogin "41" 0, .reqOrderInsert { clientOrderId := "a" },
      .onRspUserLogin "50" 0] ++ [.reqOrderInsert { clientOrderId := "b" }]) :=
    List.eachStep_append_singleton.mpr ⟨hagain, by decide +kernel⟩
  obtain ⟨action, haction, href⟩ := (references_identify rfl horder).2.2.2 { clientOrderId := "b" }
    { clientOrderId := "b" } (inputOrder {} { clientOrderId := "b" } 51) rfl
  refine ⟨action, haction, href.trans ?_⟩
  show itoa 51 = "51"
  rw [itoa_eq]
  rfl

/-- The fill of an order with an empty id -/
theorem fill_of_empty_id :
    let events : List Event := [.onRspUserLogin "0" 0, .reqOrderInsert { clientOrderId := "" }]
    let s₀ : State := { maxOrderRef := 0 }
    InOrder {} s₀ events ∧
      (s₀.requests {} events).map (fun request => (request.1.clientOrderId, request.2.orderRef)) =
        [("", "1")] ∧
      ((s₀.run {} events).onFill {
        orderRef := "1", orderSysID := "S1", tradeDate := "20170301", tradeTime := "09:30:00" }).map
        (·.clientOrderId) = some "S1|1" := by
  refine ⟨?_, ?_, by decide +kernel⟩
  · -- the login and the order are in order
    have hlogin : InOrder {} { maxOrderRef := 0 } ([] ++ [.onRspUserLogin "0" 0]) :=
      List.eachStep_append_singleton.mpr ⟨List.eachStep_nil, fun _ =>
        ⟨by decide +kernel, fun _ hrequest => nomatch hrequest⟩⟩
    exact (List.eachStep_append_singleton (l := [Event.onRspUserLogin "0" 0])).mpr
      ⟨hlogin, by decide +kernel⟩
  · show [("", itoa 1)] = [("", "1")]
    rw [itoa_eq]
    rfl

end FixHandler.Ctp
