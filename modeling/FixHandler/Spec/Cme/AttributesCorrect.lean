import Mathlib
import FixHandler.ForStd.Except
import FixHandler.Native.Cme.OrderManager
import FixHandler.Native.StrategyCommunicator
import FixHandler.Spec.InboundCorrect

/-!
# The attributes of an order on its way out and back

A report repeats fields of the request. What the strategy is given has the attributes of its order,
if the quantity has no more than 15 digits (a larger one is written with an exponent, which is not
read), and unless it is an FAK order for one: the smallest quantity to be filled is 1 then, as it is
for an FOK order for one.

## Key results

- `processOrderResult_eq`: what a report is read as, given that its other fields can be read
- `returned_iff`: the orders whose attributes come back
-/

namespace FixHandler.Cme.OrderManager

open Cxx (Binary64)
open Ems FixMessage Exchange
open Strategy (checkOrder checkField_ok)

/-- The fields of a request that a report repeats -/
def echoed : List Nat :=
  [Field.side, Field.ordType, Field.timeInForce, Field.minQty, Field.orderQty, Field.securityDesc,
    Field.clOrdId]

/-- A report repeats the fields, or leaves them out where the request does. -/
def Echoes (request report : FieldMap) : Prop := ∀ tag ∈ echoed, report[tag]? = request[tag]?

/-- The fields that are not repeated -/
def withoutEchoed (message : FieldMap) : FieldMap :=
  echoed.foldl (fun message tag => message.erase tag) message

/-- The report of no fill, nor of a fill that is taken back: its other fields can be read. -/
def NonFill (message : FieldMap) : Prop :=
  ∃ rest, processOrderResult executionReport (withoutEchoed message) = .ok rest ∧
    rest.orderStatus ≠ '1' ∧ rest.orderStatus ≠ '2' ∧ rest.orderStatus ≠ 'H' ∧
    ∃ time, Assist.toPbTime rest.transactTime = some time

/-- The attributes that an order has in common with the order of the strategy -/
structure SameAttributes (strategyOrder : StrategyOrder) (order : Ems.Order) : Prop where
  clientOrderId : order.clientOrderId = strategyOrder.clientOrderId
  contract : some order.contract = strategyOrder.contract
  buySell : some order.buySell = strategyOrder.buySell
  orderType : some order.orderType = strategyOrder.orderType
  tif : some order.tif = strategyOrder.tif
  quantity : some order.quantity = strategyOrder.quantity

/-- Whatever report repeats the request, the strategy is given its order again. -/
def Returned (strategyOrder : StrategyOrder) (request : FieldMap) : Prop :=
  ∀ message, Echoes request message → NonFill message →
    ∃ report, processOrderResult executionReport message = .ok report ∧
      ∀ initOrders, ∃ order, SameAttributes strategyOrder order ∧
        (orderResponse initOrders ⟨executionReport, report⟩).1 = [.onOrder order]

/-! ## Fields that are not repeated -/

/-- The echoed fields are gone, and the others are as they were. -/
theorem getElem?_withoutEchoed (message : FieldMap) (tag : Nat) :
    (withoutEchoed message)[tag]? = if tag ∈ echoed then none else message[tag]? := by
  unfold withoutEchoed
  induction echoed generalizing message with
  | nil => rfl
  | cons t tags ih =>
    rw [List.foldl_cons, ih]
    by_cases hmem : tag ∈ tags
    · rw [if_pos hmem, if_pos (List.mem_cons_of_mem t hmem)]
    · rw [if_neg hmem, Std.TreeMap.getElem?_erase]
      by_cases heq : t = tag
      · rw [if_pos (Nat.compare_eq_eq.mpr heq), if_pos (heq ▸ List.mem_cons_self)]
      · rw [if_neg (mt Nat.compare_eq_eq.mp heq), if_neg]
        rw [List.mem_cons, not_or]
        exact ⟨Ne.symm heq, hmem⟩

/-- What is picked depends on the one field alone. -/
theorem tryPickValue_congr {α : Type} {read : String → Option α} {a : α} {m m' : FieldMap}
    {tag : Nat} (h : m[tag]? = m'[tag]?) :
    tryPickValue read a m tag = tryPickValue read a m' tag := by
  unfold tryPickValue
  rw [h]

/-- What is picked depends on the one field alone. -/
theorem tryPickString_congr {m m' : FieldMap} {tag : Nat} (h : m[tag]? = m'[tag]?) :
    tryPickString m tag = tryPickString m' tag := by
  unfold tryPickString
  rw [h]

/-- What is picked depends on the one field alone. -/
theorem tryPickInt_congr {α : Type} {cast : List Char → Option α} {zero : α} {m m' : FieldMap}
    {tag : Nat} (h : m[tag]? = m'[tag]?) :
    tryPickInt cast zero m tag = tryPickInt cast zero m' tag := by
  unfold tryPickInt
  rw [tryPickString_congr h]

/-- The reason of a rejection is not among the echoed fields. -/
theorem rejReason_not_mem (messageType : String) (execType : Char) :
    rejReason messageType execType ∉ echoed := by
  unfold rejReason
  split
  · decide
  · split
    · decide
    · decide

/-- If the other fields of a report can be read, it is read but for the fields of the request. -/
theorem processOrderResult_eq {messageType : String} {message : FieldMap}
    {rest : SingleOrderReport}
    (hrest : processOrderResult messageType (withoutEchoed message) = .ok rest) :
    processOrderResult messageType message = (do
      let orderType ← tryPickChar message Field.ordType
      let side ← tryPickChar message Field.side
      let timeInForce ← tryPickChar message Field.timeInForce
      let minQty ← tryPickInt lexicalCast64 0 message Field.minQty
      let orderQty ← tryPickDouble message Field.orderQty
      return { rest with
        clOrderId := tryPickString message Field.clOrdId
        orderType := orderType
        side := side
        securityDesc := tryPickString message Field.securityDesc
        timeInForce := timeInForce
        minQty := minQty
        orderQty := orderQty.toUInt64 }) := by
  -- the other fields are read as without the echoed ones
  have hfield {tag : Nat} (h : tag ∉ echoed) : (withoutEchoed message)[tag]? = message[tag]? := by
    rw [getElem?_withoutEchoed, if_neg h]
  unfold processOrderResult at hrest
  obtain ⟨execType, hexecType, hrest⟩ := Except.bind_eq_ok.mp hrest
  obtain ⟨orderStatus, horderStatus, hrest⟩ := Except.bind_eq_ok.mp hrest
  obtain ⟨_, -, hrest⟩ := Except.bind_eq_ok.mp hrest
  obtain ⟨_, -, hrest⟩ := Except.bind_eq_ok.mp hrest
  obtain ⟨_, hresponseTo, hrest⟩ := Except.bind_eq_ok.mp hrest
  obtain ⟨_, -, hrest⟩ := Except.bind_eq_ok.mp hrest
  obtain ⟨_, -, hrest⟩ := Except.bind_eq_ok.mp hrest
  obtain ⟨cumQty, hcumQty, hrest⟩ := Except.bind_eq_ok.mp hrest
  obtain ⟨leavesQty, hleavesQty, hrest⟩ := Except.bind_eq_ok.mp hrest
  obtain ⟨_, -, hrest⟩ := Except.bind_eq_ok.mp hrest
  obtain ⟨price, hprice, hrest⟩ := Except.bind_eq_ok.mp hrest
  obtain ⟨lastPx, hlastPx, hrest⟩ := Except.bind_eq_ok.mp hrest
  obtain ⟨lastQty, hlastQty, hrest⟩ := Except.bind_eq_ok.mp hrest
  obtain ⟨_, hreason, hrest⟩ := Except.bind_eq_ok.mp hrest
  rw [tryPickChar, tryPickValue_congr (hfield (by decide))] at hexecType horderStatus hresponseTo
  rw [tryPickDouble, tryPickValue_congr (hfield (by decide))]
    at hcumQty hleavesQty hprice hlastPx
  rw [tryPickInt_congr (hfield (by decide))] at hlastQty
  rw [tryPickInt_congr (hfield (rejReason_not_mem _ _))] at hreason
  -- all of them were read, so that the report is complete
  cases Except.pure_eq_ok.mp hrest
  have hstring (tag : Nat) (h : tag ∉ echoed) :
      tryPickString (withoutEchoed message) tag = tryPickString message tag :=
    tryPickString_congr (hfield h)
  rw [hstring Field.account (by decide), hstring Field.orderId (by decide),
    hstring Field.execId (by decide), hstring Field.text (by decide),
    hstring Field.transactTime (by decide)]
  unfold processOrderResult tryPickChar tryPickDouble
  simp only [hexecType, horderStatus, hresponseTo, hcumQty, hleavesQty, hprice, hlastPx, hlastQty,
    Except.ok_bind, hreason]

/-! ## Characters -/

/-- A character of one byte is read as it was written, unless it is the one that is not written. -/
theorem read_write_char {c : Char} (hsize : c.utf8Size = 1) (hzero : c ≠ '\x00') :
    CharConvertor.read (CharConvertor.write c) = some c := by
  unfold CharConvertor.write CharConvertor.read
  rw [if_neg hzero, String.toList_singleton]
  dsimp only
  rw [if_pos hsize]

/-- The characters of a request are read again, and stand for what they were made of. -/
theorem convertBuySell_eq {side : BuySell} {c : Char} (h : convertBuySell side = .ok c) :
    CharConvertor.read (CharConvertor.write c) = some c ∧ buySellOfChar c = side := by
  cases side with
  | none => exact nomatch h
  | buy =>
    cases h
    exact ⟨read_write_char (by decide) (by decide), rfl⟩
  | sell =>
    cases h
    exact ⟨read_write_char (by decide) (by decide), rfl⟩

/-- The character of an order type is read back as this type. -/
theorem convertOrderType_eq {type : Ems.OrderType} {c : Char} (h : convertOrderType type = .ok c) :
    CharConvertor.read (CharConvertor.write c) = some c ∧ orderTypeOfChar c = type := by
  cases type with
  | none => exact nomatch h
  | limit =>
    cases h
    exact ⟨read_write_char (by decide) (by decide), rfl⟩
  | market =>
    cases h
    exact ⟨read_write_char (by decide) (by decide), rfl⟩

/-- FOK has the character of FAK. -/
theorem convertTif_eq {tif : TimeInForce} {c : Char} (h : convertTif tif = .ok c) :
    c ≠ '\x00' ∧ CharConvertor.read (CharConvertor.write c) = some c ∧
      tifOfChar c = if tif = .fok then .fak else tif := by
  cases tif with
  | none => exact nomatch h
  | fak =>
    cases h
    exact ⟨by decide, read_write_char (by decide) (by decide), rfl⟩
  | fok =>
    cases h
    exact ⟨by decide, read_write_char (by decide) (by decide), rfl⟩
  | gfd =>
    cases h
    exact ⟨by decide, read_write_char (by decide) (by decide), rfl⟩
  | gtc =>
    cases h
    exact ⟨by decide, read_write_char (by decide) (by decide), rfl⟩

/-! ## The request -/

variable {settings : Settings} {now : String} {order : Exchange.Order}

/-- The fields of the request that are repeated -/
theorem createNewOrderSingle42_echoed (settings : Settings) (now : String)
    (order : Exchange.Order) :
    let request := createNewOrderSingle42 settings now order
    request[Field.side]? = some (CharConvertor.write order.side) ∧
      request[Field.ordType]? = some (CharConvertor.write order.orderType) ∧
      request[Field.timeInForce]? =
        (if order.timeInForce ≠ '\x00' then some (CharConvertor.write order.timeInForce) else none) ∧
      request[Field.minQty]? =
        (if order.minQty ≠ 0 then some (DoubleConvertor.write (.ofNat order.minQty.toNat))
        else none) ∧
      request[Field.orderQty]? = some (DoubleConvertor.write (.ofNat order.orderQty.toNat)) ∧
      request[Field.securityDesc]? = some order.securityDesc ∧
      request[Field.clOrdId]? = some order.clOrderId := by
  unfold createNewOrderSingle42
  simp [getElem?_setField, getElem?_setFieldIf, Field.account, Field.clOrdId, Field.handlInst,
    Field.orderQty, Field.ordType, Field.side, Field.symbol, Field.timeInForce, Field.minQty,
    Field.transactTime, Field.securityDesc, Field.securityType, Field.customerOrFirm, Field.ctiCode,
    Field.correlationClOrdId, Field.manualOrderIndicator, Field.price]

/-- A written character is picked again. -/
theorem tryPickChar_of_write {message : FieldMap} {tag : Nat} {c : Char}
    (h : message[tag]? = some (CharConvertor.write c))
    (hc : CharConvertor.read (CharConvertor.write c) = some c) :
    tryPickChar message tag = .ok c := by
  unfold tryPickChar tryPickValue
  rw [h]
  dsimp only
  rw [hc]

/-- A quantity is read again if it has 15 digits at most. -/
theorem tryPickDouble_of_write {message : FieldMap} {tag : Nat} {n : UInt64}
    (h : message[tag]? = some (DoubleConvertor.write (.ofNat n.toNat))) :
    tryPickDouble message tag =
      if n.toNat < 10 ^ 15 then .ok (.fin n.toNat)
      else .error (.incorrectDataFormat tag (DoubleConvertor.write (.ofNat n.toNat))) := by
  unfold tryPickDouble tryPickValue
  rw [h]
  dsimp only
  rw [DoubleConvertor.read_write_ofNat n.toNat_lt]
  by_cases hlt : n.toNat < 10 ^ 15
  · rw [if_pos hlt, if_pos hlt]
  · rw [if_neg hlt, if_neg hlt]

/-- A size that a double holds is cast back to itself. -/
theorem toUInt64_natCast (n : UInt64) : Binary64.toUInt64 (.fin n.toNat) = n := by
  unfold Binary64.toUInt64
  dsimp only
  rw [if_pos ⟨Nat.cast_nonneg _, by exact_mod_cast n.toNat_lt⟩, ← Int.cast_natCast,
    Rat.floor_intCast, Int.toNat_natCast, UInt64.ofNat_toNat]

/-- The smallest quantity to be filled is read again, 0 if it is not sent. -/
theorem tryPickInt_of_write {message : FieldMap} {tag : Nat} {n : UInt64}
    (h : message[tag]? =
      if n ≠ 0 then some (DoubleConvertor.write (.ofNat n.toNat)) else none)
    (hlt : n.toNat < 10 ^ 15) : tryPickInt lexicalCast64 0 message tag = .ok n := by
  unfold tryPickInt tryPickString
  by_cases hzero : n = 0
  · rw [h, if_neg (not_not.mpr hzero), hzero]
    rfl
  · have hne : n.toNat.repr ≠ "" := fun heq =>
      Cxx.Text.repr_ne_nil n.toNat (by rw [heq]; rfl)
    rw [h, if_pos hzero, Option.getD_some, DoubleConvertor.write_ofNat_small hlt]
    dsimp only
    rw [if_neg hne, lexicalCast64_repr]

/-! ## The order of the strategy -/

variable {strategyOrder : StrategyOrder}

/-- What is set in an order that is checked -/
theorem checkOrder_set (h : checkOrder strategyOrder = .ok ()) :
    ∃ contract side quantity type, strategyOrder.contract = some contract ∧
      strategyOrder.buySell = some side ∧ strategyOrder.quantity = some quantity ∧
      strategyOrder.orderType = some type := by
  unfold checkOrder at h
  obtain ⟨_, -, h⟩ := Except.bind_eq_ok.mp h
  obtain ⟨_, hcontract, h⟩ := Except.bind_eq_ok.mp h
  obtain ⟨_, hside, h⟩ := Except.bind_eq_ok.mp h
  obtain ⟨_, -, h⟩ := Except.bind_eq_ok.mp h
  obtain ⟨_, hquantity, htype⟩ := Except.bind_eq_ok.mp h
  obtain ⟨contract, hcontract, -⟩ := checkField_ok hcontract
  obtain ⟨side, hside, -⟩ := checkField_ok hside
  obtain ⟨quantity, hquantity, -⟩ := checkField_ok hquantity
  obtain ⟨type, htype, -⟩ := checkField_ok htype
  exact ⟨contract, side, quantity, type, hcontract, hside, hquantity, htype⟩

/-- The smallest quantity to be filled -/
def minQtyOf (tif : TimeInForce) (quantity : UInt64) : UInt64 :=
  match tif with
  | .fok => quantity
  | .fak => 1
  | _ => 0

/-- The order that is sent, where everything is set -/
theorem createOrder_eq {contract : String} {side : BuySell} {quantity : UInt64}
    {type : Ems.OrderType} {tif : TimeInForce} (hcontract : strategyOrder.contract = some contract)
    (hside : strategyOrder.buySell = some side) (hquantity : strategyOrder.quantity = some quantity)
    (htype : strategyOrder.orderType = some type) (htif : strategyOrder.tif = some tif)
    (h : createOrder strategyOrder = .ok order) :
    convertBuySell side = .ok order.side ∧ convertOrderType type = .ok order.orderType ∧
      convertTif tif = .ok order.timeInForce ∧ order.minQty = minQtyOf tif quantity ∧
      order.orderQty = quantity ∧ order.securityDesc = contract ∧
      order.clOrderId = strategyOrder.clientOrderId := by
  unfold createOrder at h
  rw [hcontract, hside, hquantity, htype, htif] at h
  -- the side, the type and the time in force are converted in turn
  obtain ⟨c, hc, h⟩ := Except.bind_eq_ok.mp h
  obtain ⟨_, -, h⟩ := Except.bind_eq_ok.mp h
  obtain ⟨t, ht, h⟩ := Except.bind_eq_ok.mp h
  obtain ⟨o, ho, h⟩ := Except.bind_eq_ok.mp h
  cases Except.pure_eq_ok.mp h
  refine ⟨hc, ho, ht, ?_, rfl, rfl, rfl⟩
  cases tif <;> rfl

/-! ## The report -/

/-- What the strategy is given for a report that is no fill -/
theorem orderResponse_of_nonFill {r : SingleOrderReport} (initOrders : List Ems.Order)
    (hpart : r.orderStatus ≠ '1') (hfill : r.orderStatus ≠ '2') (hcancel : r.orderStatus ≠ 'H') :
    (orderResponse initOrders ⟨executionReport, r⟩).1 =
      match orderOfReport r with
      | none => []
      | some given => [.onOrder given] := by
  unfold orderResponse
  dsimp only
  rw [if_neg (by decide), if_neg (by decide), if_neg (fun h => hcancel h.2), if_neg]
  · cases orderOfReport r with
    | none => rfl
    | some given =>
      dsimp only
      split <;> rfl
  · exact fun h => h.2.elim hpart hfill

/-- The report that has no other fields -/
def onlyEchoed (request : FieldMap) : FieldMap :=
  echoed.foldl
    (fun message tag =>
      match request[tag]? with
      | some text => message.insert tag text
      | none => message.erase tag)
    ∅

/-- The least answer has the echoed fields of the request, and no others. -/
theorem getElem?_onlyEchoed (request : FieldMap) (tag : Nat) :
    (onlyEchoed request)[tag]? = if tag ∈ echoed then request[tag]? else none := by
  -- by induction on the tags, with any message to start from
  suffices h : ∀ message : FieldMap, (echoed.foldl
      (fun message tag =>
        match request[tag]? with
        | some text => message.insert tag text
        | none => message.erase tag) message)[tag]? =
      if tag ∈ echoed then request[tag]? else message[tag]? by
    rw [onlyEchoed, h, Std.TreeMap.getElem?_emptyc]
  induction echoed with
  | nil => exact fun message => rfl
  | cons t tags ih =>
    intro message
    -- one tag is copied, or taken out where the request has none
    have hstep : (match request[t]? with
        | some text => message.insert t text
        | none => message.erase t)[tag]? = if t = tag then request[tag]? else message[tag]? := by
      by_cases heq : t = tag
      · rw [if_pos heq, heq]
        cases hrequest : request[tag]? with
        | none => exact Std.TreeMap.getElem?_erase_self
        | some text => exact Std.TreeMap.getElem?_insert_self
      · rw [if_neg heq]
        cases request[t]? with
        | none => rw [Std.TreeMap.getElem?_erase, if_neg (mt Nat.compare_eq_eq.mp heq)]
        | some text => rw [Std.TreeMap.getElem?_insert, if_neg (mt Nat.compare_eq_eq.mp heq)]
    rw [List.foldl_cons, ih]
    by_cases hmem : tag ∈ tags
    · rw [if_pos hmem, if_pos (List.mem_cons_of_mem t hmem)]
    · rw [if_neg hmem]
      refine hstep.trans ?_
      by_cases heq : t = tag
      · rw [if_pos heq, if_pos (heq ▸ List.mem_cons_self)]
      · rw [if_neg heq, if_neg]
        rw [List.mem_cons, not_or]
        exact ⟨Ne.symm heq, hmem⟩

/-- It echoes the request. -/
theorem echoes_onlyEchoed (request : FieldMap) : Echoes request (onlyEchoed request) := by
  intro tag htag
  rw [getElem?_onlyEchoed, if_pos htag]

/-- A report without any other field is no fill. -/
theorem nonFill_onlyEchoed (request : FieldMap) : NonFill (onlyEchoed request) := by
  have hnone (tag : Nat) : (withoutEchoed (onlyEchoed request))[tag]? = none := by
    rw [getElem?_withoutEchoed, getElem?_onlyEchoed]
    by_cases htag : tag ∈ echoed
    · rw [if_pos htag]
    · rw [if_neg htag, if_neg htag]
  -- fields that are missing are read as empty
  have hchar (tag : Nat) : tryPickChar (withoutEchoed (onlyEchoed request)) tag = .ok '\x00' := by
    unfold tryPickChar tryPickValue
    rw [hnone]
  have hdouble (tag : Nat) :
      tryPickDouble (withoutEchoed (onlyEchoed request)) tag = .ok (.fin 0) := by
    unfold tryPickDouble tryPickValue
    rw [hnone]
  have hstring (tag : Nat) : tryPickString (withoutEchoed (onlyEchoed request)) tag = "" := by
    unfold tryPickString
    rw [hnone]
    rfl
  have hint {α : Type} (cast : List Char → Option α) (zero : α) (tag : Nat) :
      tryPickInt cast zero (withoutEchoed (onlyEchoed request)) tag = .ok zero := by
    unfold tryPickInt
    rw [hstring, if_pos rfl]
  have hempty : processOrderResult executionReport (withoutEchoed (onlyEchoed request)) = .ok {
      execType := '\x00', clOrderId := "", orderStatus := '\x00', orderType := '\x00'
      side := '\x00', timeInForce := '\x00', cumQty := Binary64.toUInt64 (.fin 0)
      leavesQty := Binary64.toUInt64 (.fin 0), orderQty := Binary64.toUInt64 (.fin 0) } := by
    unfold processOrderResult
    simp only [hchar, hdouble, hint, Except.ok_bind, hstring]
    rfl
  exact ⟨_, hempty, by decide, by decide, by decide, _, rfl⟩

/-- A report with the values of an order -/
def reported (rest : SingleOrderReport) (order : Exchange.Order) : SingleOrderReport :=
  { rest with
    clOrderId := order.clOrderId
    orderType := order.orderType
    side := order.side
    securityDesc := order.securityDesc
    timeInForce := order.timeInForce
    minQty := order.minQty
    orderQty := order.orderQty }

/-- A report that repeats a request of at most 15 digits is read with the values of the order. -/
theorem processOrderResult_small {message : FieldMap} {rest : SingleOrderReport}
    {side : BuySell} {type : Ems.OrderType} {tif : TimeInForce}
    (hside : convertBuySell side = .ok order.side)
    (htype : convertOrderType type = .ok order.orderType)
    (htif : convertTif tif = .ok order.timeInForce)
    (hmin : order.minQty = minQtyOf tif order.orderQty)
    (hecho : Echoes (createNewOrderSingle42 settings now order) message)
    (hrest : processOrderResult executionReport (withoutEchoed message) = .ok rest)
    (hlt : order.orderQty.toNat < 10 ^ 15) :
    processOrderResult executionReport message = .ok (reported rest order) := by
  obtain ⟨hsideField, htypeField, htifField, hminField, hqtyField, hdesc, hid⟩ :=
    createNewOrderSingle42_echoed settings now order
  have hfield {tag : Nat} {text : Option String} (htag : tag ∈ echoed)
      (h : (createNewOrderSingle42 settings now order)[tag]? = text) : message[tag]? = text :=
    (hecho tag htag).trans h
  obtain ⟨htifZero, htifRead, -⟩ := convertTif_eq htif
  rw [if_pos htifZero] at htifField
  -- the least quantity is at most the quantity
  have hminLt : order.minQty.toNat < 10 ^ 15 := by
    rw [hmin]
    unfold minQtyOf
    split
    · exact hlt
    · decide
    · decide
  rw [processOrderResult_eq hrest,
    tryPickChar_of_write (hfield (by decide) htypeField) (convertOrderType_eq htype).1,
    tryPickChar_of_write (hfield (by decide) hsideField) (convertBuySell_eq hside).1,
    tryPickChar_of_write (hfield (by decide) htifField) htifRead,
    tryPickInt_of_write (hfield (by decide) hminField) hminLt,
    tryPickDouble_of_write (hfield (by decide) hqtyField), if_pos hlt]
  simp only [Except.ok_bind, toUInt64_natCast, tryPickString, hfield (by decide) hdesc,
    hfield (by decide) hid, Option.getD_some]
  rfl

/-- A quantity of more digits cannot be read. -/
theorem processOrderResult_large {message : FieldMap} {report : SingleOrderReport}
    (hecho : Echoes (createNewOrderSingle42 settings now order) message)
    (hreport : processOrderResult executionReport message = .ok report) :
    order.orderQty.toNat < 10 ^ 15 := by
  by_contra hlarge
  have hqtyField := (createNewOrderSingle42_echoed settings now order).2.2.2.2.1
  -- a larger quantity is written with an exponent, which is not read
  have hread := tryPickDouble_of_write ((hecho Field.orderQty (by decide)).trans hqtyField)
  rw [if_neg hlarge] at hread
  unfold processOrderResult at hreport
  obtain ⟨_, -, hreport⟩ := Except.bind_eq_ok.mp hreport
  obtain ⟨_, -, hreport⟩ := Except.bind_eq_ok.mp hreport
  obtain ⟨_, -, hreport⟩ := Except.bind_eq_ok.mp hreport
  obtain ⟨_, -, hreport⟩ := Except.bind_eq_ok.mp hreport
  obtain ⟨_, -, hreport⟩ := Except.bind_eq_ok.mp hreport
  obtain ⟨_, -, hreport⟩ := Except.bind_eq_ok.mp hreport
  obtain ⟨_, -, hreport⟩ := Except.bind_eq_ok.mp hreport
  obtain ⟨_, -, hreport⟩ := Except.bind_eq_ok.mp hreport
  obtain ⟨_, -, hreport⟩ := Except.bind_eq_ok.mp hreport
  obtain ⟨_, hqty, -⟩ := Except.bind_eq_ok.mp hreport
  exact nomatch hread.symm.trans hqty

/-- An FAK order comes back as an FOK order if all of it is the smallest quantity to be filled. -/
theorem tif_eq_iff {tif : TimeInForce} {c : Char} {quantity : UInt64}
    (htif : convertTif tif = .ok c) :
    (if tifOfChar c = .fak ∧ quantity = minQtyOf tif quantity then .fok else tifOfChar c) = tif ↔
      ¬ (tif = .fak ∧ quantity = 1) := by
  rw [(convertTif_eq htif).2.2]
  cases tif with
  | none => exact nomatch htif
  | fok => simp [minQtyOf]
  | gfd => simp
  | gtc => simp
  | fak =>
    by_cases hone : quantity = 1
    · simp [minQtyOf, hone]
    · simp [minQtyOf, hone]

/-- What the strategy is given for such a report -/
theorem orderResponse_reported {rest : SingleOrderReport} {side : BuySell} {type : Ems.OrderType}
    {tif : TimeInForce} {time : Timestamp} (hside : convertBuySell side = .ok order.side)
    (htype : convertOrderType type = .ok order.orderType)
    (htif : convertTif tif = .ok order.timeInForce)
    (hmin : order.minQty = minQtyOf tif order.orderQty)
    (hpart : rest.orderStatus ≠ '1') (hfill : rest.orderStatus ≠ '2')
    (hcancel : rest.orderStatus ≠ 'H') (htime : Assist.toPbTime rest.transactTime = some time) :
    ∃ given : Ems.Order,
      (∀ initOrders, (orderResponse initOrders ⟨executionReport, reported rest order⟩).1 =
        [.onOrder given]) ∧
      given.clientOrderId = order.clOrderId ∧ given.contract = order.securityDesc ∧
      given.buySell = side ∧ given.orderType = type ∧ given.quantity = order.orderQty ∧
      (given.tif = tif ↔ ¬ (tif = .fak ∧ order.orderQty = 1)) := by
  obtain ⟨given, hgiven⟩ : ∃ given, orderOfReport (reported rest order) = some given := by
    unfold orderOfReport
    rw [show (reported rest order).transactTime = rest.transactTime from rfl, htime]
    exact ⟨_, rfl⟩
  refine ⟨given, fun initOrders => ?_, ?_⟩
  · rw [orderResponse_of_nonFill (r := reported rest order) initOrders hpart hfill hcancel,
      hgiven]
  · unfold orderOfReport at hgiven
    rw [show (reported rest order).transactTime = rest.transactTime from rfl, htime] at hgiven
    cases hgiven
    refine ⟨rfl, rfl, (convertBuySell_eq hside).2, (convertOrderType_eq htype).2, rfl, ?_⟩
    -- the time in force comes back unless fill-and-kill is taken for fill-or-kill
    rw [← tif_eq_iff htif, ← hmin]
    rfl

/-- If the order comes back from the report that has no other fields, its quantity is small, and it
    is no FAK order for one. -/
theorem small_of_given {side : BuySell} {type : Ems.OrderType} {tif : TimeInForce}
    (hside : convertBuySell side = .ok order.side)
    (htype : convertOrderType type = .ok order.orderType)
    (htif : convertTif tif = .ok order.timeInForce)
    (hmin : order.minQty = minQtyOf tif order.orderQty) (hset : strategyOrder.tif = some tif)
    (h : Returned strategyOrder (createNewOrderSingle42 settings now order)) :
    order.orderQty.toNat < 10 ^ 15 ∧ ¬ (tif = .fak ∧ order.orderQty = 1) := by
  -- the least answer is enough to see it
  obtain ⟨report, hreport, hall⟩ := h _ (echoes_onlyEchoed _) (nonFill_onlyEchoed _)
  obtain ⟨same, hsame, hgiven⟩ := hall []
  obtain ⟨rest, hrest, hpart, hfill, hcancel, time, htime⟩ :=
    nonFill_onlyEchoed (createNewOrderSingle42 settings now order)
  have hlt := processOrderResult_large (echoes_onlyEchoed _) hreport
  rw [processOrderResult_small hside htype htif hmin (echoes_onlyEchoed _) hrest hlt] at hreport
  rw [← Except.ok.inj hreport] at hgiven
  obtain ⟨given, hresponse, -, -, -, -, -, htifGiven⟩ := orderResponse_reported hside htype htif
    hmin hpart hfill hcancel htime
  rw [hresponse, List.cons.injEq, Report.onOrder.injEq] at hgiven
  refine ⟨hlt, htifGiven.mp ?_⟩
  rw [hgiven.1]
  exact Option.some_inj.mp (hsame.tif.trans hset)

/-- The attributes of an order come back if its quantity has no more than 15 digits, unless it is an
    FAK order for one. -/
theorem returned_iff (settings : Settings) (now : String) {strategyOrder : StrategyOrder}
    {order : Exchange.Order} (hcheck : checkOrder strategyOrder = .ok ())
    (htif : strategyOrder.tif ∈ [some .gfd, some .gtc, some .fak, some .fok])
    (hcreate : createOrder strategyOrder = .ok order) :
    Returned strategyOrder (createNewOrderSingle42 settings now order) ↔
      (strategyOrder.quantity.getD 0).toNat < 10 ^ 15 ∧
        ¬ (strategyOrder.tif = some .fak ∧ strategyOrder.quantity = some 1) := by
  obtain ⟨contract, side, quantity, type, hcontract, hside, hquantity, htype⟩ :=
    checkOrder_set hcheck
  -- the time in force has a value, as the order was accepted
  obtain ⟨tif, htifSet⟩ : ∃ tif, strategyOrder.tif = some tif := by
    cases h : strategyOrder.tif with
    | none =>
      rw [h] at htif
      exact absurd htif (by decide)
    | some tif => exact ⟨tif, rfl⟩
  obtain ⟨hsideChar, htypeChar, htifChar, hmin, hqty, hdesc, hid⟩ :=
    createOrder_eq hcontract hside hquantity htype htifSet hcreate
  rw [← hqty] at hmin hquantity
  rw [hquantity, htifSet, Option.getD_some, Option.some_inj, Option.some_inj]
  constructor
  · -- what comes back is the order only where its texts are read as they were
    exact small_of_given hsideChar htypeChar htifChar hmin htifSet
  · rintro ⟨hlt, hfak⟩ message hecho ⟨rest, hrest, hpart, hfill, hcancel, time, htime⟩
    obtain ⟨given, hresponse, hidGiven, hdescGiven, hsideGiven, htypeGiven, hqtyGiven, htifGiven⟩ :=
      orderResponse_reported hsideChar htypeChar htifChar hmin hpart hfill hcancel htime
    refine ⟨reported rest order,
      processOrderResult_small hsideChar htypeChar htifChar hmin hecho hrest hlt,
      fun initOrders => ⟨given, ?_, hresponse initOrders⟩⟩
    exact {
      clientOrderId := hidGiven.trans hid
      contract := by rw [hdescGiven, hdesc, hcontract]
      buySell := by rw [hsideGiven, hside]
      orderType := by rw [htypeGiven, htype]
      tif := by rw [htifGiven.mpr hfak, htifSet]
      quantity := by rw [hqtyGiven, hquantity] }

/-- An order for `quantity` contracts -/
def limitOrder (tif : TimeInForce) (quantity : UInt64) : StrategyOrder where
  clientOrderId := "c-1"
  contract := some "GEH0"
  buySell := some .buy
  price := some "97.5"
  quantity := some quantity
  tif := some tif
  orderType := some .limit

/-- The settings of a gateway -/
def gateway : Settings where
  account := "A"
  manualFlag := false
  securityType := "FUT"
  customerFlag := 1
  ctiCode := "2"

/-- What is sent for an order at 97.5 -/
def sentOrder (tif : TimeInForce) (quantity : UInt64) (timeInForce : Char) : Exchange.Order where
  clOrderId := "c-1"
  symbol := "GEH0"
  securityDesc := "GEH0"
  side := '1'
  price := .fin (mkRat 195 2)
  orderQty := quantity
  timeInForce := timeInForce
  minQty := minQtyOf tif quantity
  orderType := '2'
  orderId := ""
  origClOrderId := "c-1"

/-- An order over three comes back whole. -/
theorem returned_fok_three :
    Returned (limitOrder .fok 3) (createNewOrderSingle42 gateway "20170101-00:00:00.000"
      (sentOrder .fok 3 '3')) := by
  have hcheck : checkOrder (limitOrder .fok 3) = .ok () := by decide +kernel
  have hcreate : createOrder (limitOrder .fok 3) = .ok (sentOrder .fok 3 '3') := by decide +kernel
  exact (returned_iff gateway _ hcheck (by decide) hcreate).mpr (by decide)

/-- An FAK order for one contract comes back as an FOK order. -/
theorem fak_one_not_returned :
    checkOrder (limitOrder .fak 1) = .ok () ∧
      createOrder (limitOrder .fak 1) = .ok (sentOrder .fak 1 '3') ∧
      ¬ Returned (limitOrder .fak 1) (createNewOrderSingle42 gateway "20170101-00:00:00.000"
        (sentOrder .fak 1 '3')) := by
  refine ⟨by decide +kernel, by decide +kernel, fun h => ?_⟩
  have hside : convertBuySell .buy = .ok (sentOrder .fak 1 '3').side := rfl
  have htype : convertOrderType .limit = .ok (sentOrder .fak 1 '3').orderType := rfl
  have htif : convertTif .fak = .ok (sentOrder .fak 1 '3').timeInForce := rfl
  exact (small_of_given hside htype htif rfl rfl h).2 (by decide)

end FixHandler.Cme.OrderManager
