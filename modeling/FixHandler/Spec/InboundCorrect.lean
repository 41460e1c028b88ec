import Mathlib
import FixHandler.ForStd.Except
import FixHandler.Native.StrategyCommunicator

/-!
# Requests that cannot be processed

An order that is checked has a side, a type and a price that begins with a digit, so that only a
price out of the range of a `double` ends the gateway; a time in force of `TIF_None` is not checked
and has the order rejected. A cancel is not checked at all: one without a price ends the gateway.

## Key results

- `createOrder_ok_iff`: the orders that can be converted
- `safe_iff`: the frames that are processed
-/

namespace FixHandler.Strategy

open Ems
open Cme (StrategyOrder Thrown createOrder convertIfSet convertBuySell convertTif convertOrderType)

/-- What a request that holds an order is given as its answer -/
def Sent.IsAnswer : Sent → Prop
  | .rejectOrder order => order.status = some .rejected
  | .orderMassStatus _ => False
  | .orderMassAction _ => False
  | _ => True

/-- A frame is processed: nothing leaves the call, an order is sent once or rejected once, and an
    order that is checked, or cancelled, can be converted. -/
structure Safe (parse : List UInt8 → Option StrategyOrder) (type : UInt8) (rest : List UInt8) :
    Prop where
  returns : (orderRequest parse (type :: rest)).2 = none
  answered : type ∈ [49, 50, 51, 52] →
    ∃ sent, (orderRequest parse (type :: rest)).1 = [sent] ∧ sent.IsAnswer
  checked : type ∈ [49, 51, 52] → ∀ order, parse rest = some order → checkOrder order = .ok () →
    ∃ converted, createOrder order = .ok converted
  cancelled : type = 50 → ∀ order, parse rest = some order →
    ∃ converted, createOrder order = .ok converted

/-- The frames that are processed -/
def Processable (parse : List UInt8 → Option StrategyOrder) (type : UInt8) (rest : List UInt8) :
    Prop :=
  (type ∈ [49, 51, 52] → ∀ order, parse rest = some order → checkOrder order = .ok () →
    order.tif ≠ some .none ∧ Cxx.stod (order.price.getD "") ≠ .error (.outOfRange "stod")) ∧
  (type = 50 → ∀ order, parse rest = some order →
    order.buySell ≠ some .none ∧ order.tif ≠ some .none ∧ order.orderType ≠ some .none ∧
      ∃ price, Cxx.stod (order.price.getD "") = .ok price) ∧
  (type ∈ [53, 54] → 21 ≤ rest.length)

/-! ## Conversion -/

/-- A field that is not set is not converted. -/
theorem convertIfSet_ok_iff {α : Type} {convert : α → Except Thrown Char} {o : Option α} :
    (∃ c, convertIfSet convert o = .ok c) ↔ ∀ a ∈ o, ∃ c, convert a = .ok c := by
  cases o with
  | none => exact iff_of_true ⟨_, rfl⟩ fun a ha => nomatch ha
  | some a => exact ⟨fun h b hb => Option.some_inj.mp hb ▸ h, fun h => h a rfl⟩

/-- Every side but the unknown one is converted. -/
theorem convertBuySell_ok_iff {side : BuySell} :
    (∃ c, convertBuySell side = .ok c) ↔ side ≠ .none := by
  cases side <;> simp [convertBuySell]

/-- Every time in force but the unknown one is converted. -/
theorem convertTif_ok_iff {tif : TimeInForce} : (∃ c, convertTif tif = .ok c) ↔ tif ≠ .none := by
  cases tif <;> simp [convertTif]

/-- Every order type but the unknown one is converted. -/
theorem convertOrderType_ok_iff {type : Ems.OrderType} :
    (∃ c, convertOrderType type = .ok c) ↔ type ≠ .none := by
  cases type <;> simp [convertOrderType]

/-- The field is not set to the value. -/
theorem forall_mem_ne_iff {α : Type} {o : Option α} {x : α} :
    (∀ a ∈ o, a ≠ x) ↔ o ≠ some x := by
  cases o with
  | none => simp
  | some a => simp

/-- An order can be converted if its price is a number and what is set of its side, its time in
    force and its type is not `None`. -/
theorem createOrder_ok_iff (order : StrategyOrder) :
    (∃ converted, createOrder order = .ok converted) ↔
      order.buySell ≠ some .none ∧ order.tif ≠ some .none ∧ order.orderType ≠ some .none ∧
        ∃ price, Cxx.stod (order.price.getD "") = .ok price := by
  constructor
  · -- each of the four conversions returned
    rintro ⟨converted, h⟩
    unfold createOrder at h
    obtain ⟨side, hside, h⟩ := Except.bind_eq_ok.mp h
    obtain ⟨price, hprice, h⟩ := Except.bind_eq_ok.mp h
    obtain ⟨timeInForce, htif, h⟩ := Except.bind_eq_ok.mp h
    obtain ⟨orderType, htype, -⟩ := Except.bind_eq_ok.mp h
    refine ⟨forall_mem_ne_iff.mp fun a ha => convertBuySell_ok_iff.mp ?_,
      forall_mem_ne_iff.mp fun a ha => convertTif_ok_iff.mp ?_,
      forall_mem_ne_iff.mp fun a ha => convertOrderType_ok_iff.mp ?_,
      price, Except.mapError_eq_ok.mp hprice⟩
    · exact convertIfSet_ok_iff.mp ⟨side, hside⟩ a ha
    · exact convertIfSet_ok_iff.mp ⟨timeInForce, htif⟩ a ha
    · exact convertIfSet_ok_iff.mp ⟨orderType, htype⟩ a ha
  · -- where each conversion returns, so does the whole
    rintro ⟨hside, htif, htype, price, hprice⟩
    obtain ⟨side, hside⟩ := convertIfSet_ok_iff.mpr fun a ha =>
      convertBuySell_ok_iff.mpr (forall_mem_ne_iff.mpr hside a ha)
    obtain ⟨timeInForce, htif⟩ := convertIfSet_ok_iff.mpr fun a ha =>
      convertTif_ok_iff.mpr (forall_mem_ne_iff.mpr htif a ha)
    obtain ⟨orderType, htype⟩ := convertIfSet_ok_iff.mpr fun a ha =>
      convertOrderType_ok_iff.mpr (forall_mem_ne_iff.mpr htype a ha)
    unfold createOrder
    rw [hside, Except.mapError_eq_ok.mpr hprice, htif, htype]
    exact ⟨_, rfl⟩

/-- A field that passes its check is set and valid. -/
theorem checkField_ok {α : Type} {field : Option α} {valid : α → Bool} {missing invalid : String}
    {u : Unit} (h : checkField field valid missing invalid = .ok u) :
    ∃ a, field = some a ∧ valid a = true := by
  unfold checkField at h
  cases field with
  | none => exact nomatch h
  | some a =>
    refine ⟨a, rfl, ?_⟩
    by_contra hvalid
    dsimp only at h
    rw [if_neg hvalid] at h
    exact nomatch h

/-- What is checked -/
theorem checkOrder_ok {order : StrategyOrder} (h : checkOrder order = .ok ()) :
    order.buySell ≠ some .none ∧ order.orderType ≠ some .none ∧
      ∃ price, order.price = some price ∧ Assist.isPriceValid price = true := by
  unfold checkOrder at h
  obtain ⟨_, -, h⟩ := Except.bind_eq_ok.mp h
  obtain ⟨_, -, h⟩ := Except.bind_eq_ok.mp h
  obtain ⟨_, hside, h⟩ := Except.bind_eq_ok.mp h
  obtain ⟨_, hprice, h⟩ := Except.bind_eq_ok.mp h
  obtain ⟨_, -, htype⟩ := Except.bind_eq_ok.mp h
  obtain ⟨side, hside, hsideValid⟩ := checkField_ok hside
  obtain ⟨type, htype, htypeValid⟩ := checkField_ok htype
  refine ⟨fun hnone => ?_, fun hnone => ?_, checkField_ok hprice⟩
  · cases hside.symm.trans hnone
    exact nomatch hsideValid
  · cases htype.symm.trans hnone
    exact nomatch htypeValid

/-- A valid price begins with a digit. -/
theorem head_of_isPriceValid {price : String} (h : Assist.isPriceValid price = true) :
    ∃ c, price.toList.head? = some c ∧ c.isDigit = true := by
  unfold Assist.isPriceValid at h
  dsimp only at h
  split at h
  · next first last hfirst hlast =>
    simp only [Bool.and_eq_true] at h
    exact ⟨first, hfirst, h.1.1.1⟩
  · exact nomatch h

/-- An order that is checked can be converted, unless its time in force is `None` or its price is
    out of range. -/
theorem createOrder_ok_iff_of_checkOrder {order : StrategyOrder} (h : checkOrder order = .ok ()) :
    (∃ converted, createOrder order = .ok converted) ↔
      order.tif ≠ some .none ∧ Cxx.stod (order.price.getD "") ≠ .error (.outOfRange "stod") := by
  obtain ⟨hside, htype, price, hprice, hvalid⟩ := checkOrder_ok h
  obtain ⟨c, hfirst, hdigit⟩ := head_of_isPriceValid hvalid
  rw [createOrder_ok_iff, hprice]
  -- a price that passes its check starts with a digit, so only its range is left
  have hnumber : (∃ value, Cxx.stod price = .ok value) ↔
      Cxx.stod price ≠ .error (.outOfRange "stod") := by
    cases hstod : Cxx.stod price with
    | ok value => exact iff_of_true ⟨value, rfl⟩ fun h => nomatch h
    | error e =>
      refine iff_of_false (fun ⟨value, h⟩ => nomatch h) fun hrange => hrange ?_
      rcases Cxx.stod_error hstod with rfl | rfl
      · exact absurd hstod (Cxx.stod_ne_invalidArgument hfirst hdigit)
      · rfl
  constructor
  · rintro ⟨-, htif, -, hvalue⟩
    exact ⟨htif, hnumber.mp hvalue⟩
  · rintro ⟨htif, hrange⟩
    exact ⟨hside, htif, htype, hnumber.mpr hrange⟩

/-! ## Frames -/

/-- A request that fails with an `InvalidOrder` is answered, as is one that is sent. -/
theorem answer_returns {order : StrategyOrder} {process : Except Thrown Sent}
    (hsent : ∀ sent, process = .ok sent → sent.IsAnswer)
    (hstd : ∀ e, process ≠ .error (.std e)) :
    (answer order process).2 = none ∧
      ∃ sent, (answer order process).1 = [sent] ∧ sent.IsAnswer := by
  cases process with
  | ok sent => exact ⟨rfl, sent, rfl, hsent sent rfl⟩
  | error e =>
    cases e with
    | invalidOrder what => exact ⟨rfl, _, rfl, rfl⟩
    | std e => exact absurd rfl (hstd e)

/-- What is sent for a converted order is an answer. -/
theorem map_isAnswer {x : Except Thrown Cme.Exchange.Order} {send : Cme.Exchange.Order → Sent}
    (hsend : ∀ converted, (send converted).IsAnswer) {sent : Sent} (h : x.map send = .ok sent) :
    sent.IsAnswer := by
  cases x with
  | error e => exact nomatch h
  | ok converted => exact Except.ok.inj h ▸ hsend converted

/-- A check throws no standard exception. -/
theorem checkField_std {α : Type} {field : Option α} {valid : α → Bool} {missing invalid : String}
    {e : Cxx.Exception} : checkField field valid missing invalid ≠ .error (.std e) := by
  unfold checkField
  cases field with
  | none => exact fun h => nomatch h
  | some a =>
    dsimp only
    split
    · exact fun h => nomatch h
    · exact fun h => nomatch h

/-- A check fails with an `InvalidOrder`. -/
theorem checkOrder_std {order : StrategyOrder} {e : Cxx.Exception} :
    checkOrder order ≠ .error (.std e) := by
  unfold checkOrder
  intro h
  repeat
    rcases Except.bind_eq_error.mp h with h | ⟨_, -, h⟩
    · exact checkField_std h
  exact checkField_std h

section Requests

variable {parse : List UInt8 → Option StrategyOrder} {rest : List UInt8}
  {send : Cme.Exchange.Order → Sent}

/-- A request whose orders can be converted is answered. -/
theorem request_returns {process : StrategyOrder → Except Thrown Sent}
    (hsent : ∀ order sent, process order = .ok sent → sent.IsAnswer)
    (hstd : ∀ order, parse rest = some order → ∀ e, process order ≠ .error (.std e)) :
    (request parse rest process).2 = none ∧
      ∃ sent, (request parse rest process).1 = [sent] ∧ sent.IsAnswer := by
  unfold request
  cases hparse : parse rest with
  | none => exact answer_returns (fun _ h => nomatch h) fun e h => nomatch h
  | some order => exact answer_returns (hsent order) (hstd order hparse)

/-- A request that is checked is answered, if the orders that are checked can be converted. -/
theorem checked_returns (hsend : ∀ converted, (send converted).IsAnswer)
    (h : ∀ order, parse rest = some order → checkOrder order = .ok () →
      ∃ converted, createOrder order = .ok converted) :
    (request parse rest fun order => do
        checkOrder order
        (createOrder order).map send).2 = none ∧
      ∃ sent, (request parse rest fun order => do
        checkOrder order
        (createOrder order).map send).1 = [sent] ∧ sent.IsAnswer := by
  refine request_returns (fun order sent hsent => ?_) fun order hparse e he => ?_
  · obtain ⟨_, -, hsent⟩ := Except.bind_eq_ok.mp hsent
    exact map_isAnswer hsend hsent
  · -- an order that fails its check is rejected, which is an answer too
    cases hcheck : checkOrder order with
    | error e' =>
      rw [hcheck] at he
      cases Except.error.inj he
      exact checkOrder_std hcheck
    | ok u =>
      obtain ⟨converted, hconverted⟩ := h order hparse hcheck
      rw [hcheck, hconverted] at he
      exact nomatch he

/-- A cancel is answered, if it can be converted. -/
theorem cancel_returns (hsend : ∀ converted, (send converted).IsAnswer)
    (h : ∀ order, parse rest = some order → ∃ converted, createOrder order = .ok converted) :
    (request parse rest fun order => (createOrder order).map send).2 = none ∧
      ∃ sent, (request parse rest fun order => (createOrder order).map send).1 = [sent] ∧
        sent.IsAnswer := by
  refine request_returns (fun order sent hsent => map_isAnswer hsend hsent)
    fun order hparse e he => ?_
  obtain ⟨converted, hconverted⟩ := h order hparse
  rw [hconverted] at he
  exact nomatch he

/-- A mass request is processed if it has the byte for its type. -/
theorem mass_returns {send : Cme.Exchange.MassOrder → Sent} {order : StrategyOrder} :
    (answer order ((Cme.createMassOrder rest).map send)).2 = none ↔ 21 ≤ rest.length := by
  unfold Cme.createMassOrder
  cases hbyte : rest[20]? with
  | none =>
    rw [List.getElem?_eq_none_iff] at hbyte
    exact iff_of_false (fun h => nomatch h) (by omega)
  | some reqType =>
    have hlength := (List.getElem?_eq_some_iff.mp hbyte).1
    exact iff_of_true rfl (by omega)

end Requests

/-- The digit of a type -/
theorem type_eq {type k : UInt8} (h : (type - 49).toNat = k.toNat) : type = k + 49 := by
  rw [← UInt8.toNat_inj.mp h, UInt8.sub_add_cancel]

/-- A frame is processed exactly if an order that is checked has a time in force other than `None`
    and a price in range, an order that is cancelled can be converted, and a mass request has the
    byte for its type. -/
theorem safe_iff (parse : List UInt8 → Option StrategyOrder) (type : UInt8) (rest : List UInt8) :
    Safe parse type rest ↔ Processable parse type rest := by
  -- behind the check the conversion needs less
  have hchecked : (type ∈ [49, 51, 52] → ∀ order, parse rest = some order →
        checkOrder order = .ok () → ∃ converted, createOrder order = .ok converted) ↔
      (type ∈ [49, 51, 52] → ∀ order, parse rest = some order → checkOrder order = .ok () →
        order.tif ≠ some .none ∧ Cxx.stod (order.price.getD "") ≠ .error (.outOfRange "stod")) :=
    forall_congr' fun _ => forall_congr' fun order => forall_congr' fun _ =>
      forall_congr' fun hcheck => createOrder_ok_iff_of_checkOrder hcheck
  have hcancelled : (type = 50 → ∀ order, parse rest = some order →
        ∃ converted, createOrder order = .ok converted) ↔
      (type = 50 → ∀ order, parse rest = some order → order.buySell ≠ some .none ∧
        order.tif ≠ some .none ∧ order.orderType ≠ some .none ∧
          ∃ price, Cxx.stod (order.price.getD "") = .ok price) :=
    forall_congr' fun _ => forall_congr' fun order => forall_congr' fun _ =>
      createOrder_ok_iff order
  unfold Processable
  rw [← hchecked, ← hcancelled]
  constructor
  · intro h
    refine ⟨h.checked, h.cancelled, fun hmass => ?_⟩
    -- a mass action depends on its own condition
    have hreturns := h.returns
    rcases List.mem_cons.mp hmass with rfl | hmass
    · exact mass_returns.mp hreturns
    · cases List.mem_singleton.mp hmass
      exact mass_returns.mp hreturns
  · rintro ⟨hchecked, hcancelled, hmass⟩
    -- one case for every type that the communicator reads from the first byte
    have hboth : (orderRequest parse (type :: rest)).2 = none ∧
        (type ∈ [49, 50, 51, 52] →
          ∃ sent, (orderRequest parse (type :: rest)).1 = [sent] ∧ sent.IsAnswer) := by
      unfold orderRequest
      dsimp only
      split
      · next heq =>
        obtain rfl := type_eq (k := 0) heq
        have h := checked_returns (fun converted =>
          show (Sent.newOrderSingle converted).IsAnswer from trivial) (hchecked (by decide))
        exact ⟨h.1, fun _ => h.2⟩
      · next heq =>
        obtain rfl := type_eq (k := 1) heq
        have h := cancel_returns (fun converted =>
          show (Sent.orderCancel converted).IsAnswer from trivial) (hcancelled rfl)
        exact ⟨h.1, fun _ => h.2⟩
      · next heq =>
        obtain rfl := type_eq (k := 2) heq
        have h := checked_returns (fun converted =>
          show (Sent.orderCancelReplace converted).IsAnswer from trivial) (hchecked (by decide))
        exact ⟨h.1, fun _ => h.2⟩
      · next heq =>
        obtain rfl := type_eq (k := 3) heq
        have h := checked_returns (fun converted =>
          show (Sent.orderStatus converted).IsAnswer from trivial) (hchecked (by decide))
        exact ⟨h.1, fun _ => h.2⟩
      · next heq =>
        obtain rfl := type_eq (k := 4) heq
        exact ⟨mass_returns.mpr (hmass (by decide)), fun h => absurd h (by decide)⟩
      · next heq =>
        obtain rfl := type_eq (k := 5) heq
        exact ⟨mass_returns.mpr (hmass (by decide)), fun h => absurd h (by decide)⟩
      · -- any other type is not answered at all
        next h0 h1 h2 h3 _ _ =>
        refine ⟨rfl, fun horder => ?_⟩
        simp only [List.mem_cons, List.not_mem_nil, or_false] at horder
        rcases horder with rfl | rfl | rfl | rfl
        · exact absurd rfl h0
        · exact absurd rfl h1
        · exact absurd rfl h2
        · exact absurd rfl h3
    exact ⟨hboth.1, hboth.2, hchecked, hcancelled⟩

/-- The fields of an order message that are texts of ASCII characters: of each its key, its length,
    which is below 128, and its characters -/
def parseTexts : Nat → List UInt8 → StrategyOrder → Option StrategyOrder
  | _, [], order => some order
  | fuel + 1, key :: length :: rest, order =>
    let text := String.ofList ((rest.take length.toNat).map fun b => Char.ofNat b.toNat)
    let rest' := rest.drop length.toNat
    if rest.length < length.toNat then none
    else match key with
      | 10 => parseTexts fuel rest' { order with clientOrderId := text }
      | 74 => parseTexts fuel rest' { order with account := some text }
      | 82 => parseTexts fuel rest' { order with contract := some text }
      | 98 => parseTexts fuel rest' { order with price := some text }
      | _ => none
  | _, _, _ => none

/-- Reads an order message as it is serialized, with the client's id first, if all its fields are
    such texts. -/
def parseTextOrder (data : List UInt8) : Option StrategyOrder :=
  if data.head? = some 10 then parseTexts data.length data { clientOrderId := "" } else none

/-- A cancel of the order `c1` for the contract `ES`, without a price -/
private def bareCancel : List UInt8 := [10, 2, 99, 49, 82, 2, 69, 83]

example : parseTextOrder bareCancel = some { clientOrderId := "c1", contract := some "ES" } := by
  decide +kernel

/-- The missing price of a cancel ends the gateway. -/
theorem bare_cancel_leaves : ¬ Safe parseTextOrder 50 bareCancel := by
  intro h
  exact absurd h.returns (by decide +kernel)

end FixHandler.Strategy
