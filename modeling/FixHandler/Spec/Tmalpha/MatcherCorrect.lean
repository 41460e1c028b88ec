import Mathlib
import FixHandler.ForStd.Except
import FixHandler.ForStd.TreeMap
import FixHandler.Native.Tmalpha.ReplayOrderMatcher

/-!
# What the matcher does with an order

The comparisons of a request, and what each request leaves behind. A run is a list of
calls; `Reached` says in which states it can be.

## Key results

- `isPriceMatching_eq`, `hasRematching_cases`: when an order is filled, and at what price
- `add_sat`, `change_sat`, `delete_sat`: the ends of a request
- `rematchFrom_sat`: the rule for the loop over the working orders
-/

namespace FixHandler.Tmalpha

open Cxx (Binary64 Exception)
open Ems (Order Fill Timestamp)

namespace ReplayOrderMatcher

/-! ## Prices -/

/-- The best price of the other side. -/
def bestOpposite (o : Order) (l2 : Dms.L2) : Option Binary64 :=
  match o.buySell with
  | .buy => l2.offer.head?.map (·.price)
  | .sell => l2.bid.head?.map (·.price)
  | .none => none

/-- Whether the price `p` of an order matches the opposite price `best`. -/
def crosses (o : Order) (best p : Binary64) : Bool :=
  match o.buySell with
  | .buy => best.le p
  | .sell => p.le best
  | .none => false

/-- Matching compares with the best opposite price, and takes it. -/
theorem isPriceMatching_eq (o : Order) (l2 : Dms.L2) :
    isPriceMatching o l2 = match bestOpposite o l2 with
      | none => .ok (false, o)
      | some best => (isMatching o (crosses o best)).map fun matched =>
          (matched, if matched then { o with price := best.toString } else o) := by
  unfold isPriceMatching bestOpposite
  cases hside : o.buySell with
  | none => rfl
  | buy =>
    cases l2.offer with
    | nil => rfl
    | cons best rest =>
      -- the test is the comparison with the best price of the other side
      have htest : crosses o best.price = (best.price.le ·) := by
        funext p
        rw [crosses, hside]
      simp only [List.head?_cons, Option.map_some, htest]
      cases isMatching o (best.price.le ·) <;> rfl
  | sell =>
    cases l2.bid with
    | nil => rfl
    | cons best rest =>
      have htest : crosses o best.price = (·.le best.price) := by
        funext p
        rw [crosses, hside]
      simp only [List.head?_cons, Option.map_some, htest]
      cases isMatching o (·.le best.price) <;> rfl

/-- An order that would be filled against the market data. -/
def Marketable (o : Order) (l2 : Dms.L2) : Prop := ∃ o', isPriceMatching o l2 = .ok (true, o')

instance (o : Order) (l2 : Dms.L2) : Decidable (Marketable o l2) :=
  match h : isPriceMatching o l2 with
  | .ok (true, o') => .isTrue ⟨o', h⟩
  | .ok (false, _) => .isFalse fun ⟨_, h'⟩ => nomatch h.symm.trans h'
  | .error _ => .isFalse fun ⟨_, h'⟩ => nomatch h.symm.trans h'

/-- A market order, or a price that crosses the best opposite one. -/
theorem isMatching_iff {o : Order} {test : Binary64 → Bool} :
    isMatching o test = .ok true ↔
      o.orderType = .market ∨ o.orderType ≠ .market ∧ ∃ p, Cxx.stod o.price = .ok p ∧ test p = true := by
  unfold isMatching
  by_cases hmarket : o.orderType = .market
  · rw [if_pos (by rw [hmarket]; rfl)]
    exact iff_of_true rfl (.inl hmarket)
  · rw [if_neg (by rwa [beq_iff_eq])]
    cases hprice : Cxx.stod o.price with
    | error e => simp [hmarket, Except.map]
    | ok p => simp [hmarket, Except.map]

/-- An order matches at the best price of the other side. -/
theorem isPriceMatching_true {o o' : Order} {l2 : Dms.L2} :
    isPriceMatching o l2 = .ok (true, o') ↔
      ∃ best, bestOpposite o l2 = some best ∧ isMatching o (crosses o best) = .ok true ∧
        o' = { o with price := best.toString } := by
  rw [isPriceMatching_eq]
  cases hbest : bestOpposite o l2 with
  | none => simp
  | some best =>
    simp only [Option.some_inj, exists_eq_left']
    generalize isMatching o (crosses o best) = matched
    cases matched with
    | error e => simp [Except.map]
    | ok matched => cases matched <;> simp [Except.map, eq_comm]

/-- An order that does not match is left as it is. -/
theorem isPriceMatching_false {o o' : Order} {l2 : Dms.L2}
    (h : isPriceMatching o l2 = .ok (false, o')) : o' = o := by
  rw [isPriceMatching_eq] at h
  cases hbest : bestOpposite o l2 with
  | none =>
    rw [hbest] at h
    cases h
    rfl
  | some best =>
    simp only [hbest] at h
    generalize isMatching o (crosses o best) = matched at h
    cases matched with
    | error e => exact nomatch h
    | ok matched =>
      cases matched <;> cases h
      rfl

/-- An order is marketable if it matches the best price. -/
theorem marketable_iff {o : Order} {l2 : Dms.L2} :
    Marketable o l2 ↔ ∃ best, bestOpposite o l2 = some best ∧
      isMatching o (crosses o best) = .ok true := by
  unfold Marketable
  constructor
  · rintro ⟨o', h⟩
    obtain ⟨best, hbest, hmatch, -⟩ := isPriceMatching_true.mp h
    exact ⟨best, hbest, hmatch⟩
  · rintro ⟨best, hbest, hmatch⟩
    exact ⟨_, isPriceMatching_true.mpr ⟨best, hbest, hmatch, rfl⟩⟩

/-- An order that was tested and does not match is not marketable. -/
theorem not_marketable_of_false {o o' : Order} {l2 : Dms.L2}
    (h : isPriceMatching o l2 = .ok (false, o')) : ¬ Marketable o l2 := by
  rintro ⟨o'', h'⟩
  rw [h] at h'
  exact nomatch h'

/-- The side, the type and the price of an order are all that matters. -/
theorem marketable_congr {o o' : Order} {l2 : Dms.L2} (hside : o'.buySell = o.buySell)
    (htype : o'.orderType = o.orderType) (hprice : o'.price = o.price) :
    Marketable o' l2 ↔ Marketable o l2 := by
  have hcrosses : crosses o' = crosses o := by
    funext best p
    rw [crosses, crosses, hside]
  rw [marketable_iff, marketable_iff]
  unfold bestOpposite isMatching
  rw [hside, htype, hprice, hcrosses]

/-! ## Rematching an order -/

/-- The prices of the own side. -/
def ownPrices (o : Order) (l2 : Dms.L2) : List Dms.DataPoint :=
  match o.buySell with
  | .buy => l2.bid
  | .sell => l2.offer
  | .none => []

/-- Whether the first price is better than the second one for the side of an order. -/
def better (o : Order) (a b : Binary64) : Bool :=
  match o.buySell with
  | .sell => a.lt b
  | _ => b.lt a

/-- An order is filled at its own price, which is at least as good as the best one of its
    side. -/
def PositionReached (o : Order) (l2 : Dms.L2) : Prop :=
  ∃ best rest p, ownPrices o l2 = best :: rest ∧ Cxx.stod o.price = .ok p ∧
    better o best.price p = false

/-- The position test leaves the order, and finds it reached only if its price is not behind the
    best. -/
theorem isPositionReached_cases {s : ReplayOrderMatcher} {info info' : OrderInfo}
    {prices : List Dms.DataPoint} {size : UInt32} {compare : Binary64 → Binary64 → Bool}
    {reached : Bool} (h : s.isPositionReached info prices size compare = .ok (reached, info')) :
    info'.order = info.order ∧
      (reached = true → ∃ best rest p, prices = best :: rest ∧
        Cxx.stod info.order.price = .ok p ∧ compare best.price p = false) := by
  unfold isPositionReached at h
  cases prices with
  | nil =>
    cases h
    exact ⟨rfl, fun h => nomatch h⟩
  | cons best rest =>
    obtain ⟨p, hp, h⟩ := Except.bind_eq_ok.mp h
    -- a better price than that of the order is quoted, so its turn has not come
    by_cases hbetter : compare best.price p = true
    · rw [if_pos hbetter] at h
      cases h
      exact ⟨rfl, fun h => nomatch h⟩
    · have hbest := Bool.eq_false_iff.mpr hbetter
      rw [if_neg hbetter] at h
      split at h
      · cases h
        -- the order is better than the best price
        exact ⟨rfl, fun _ => ⟨best, rest, p, rfl, hp, hbest⟩⟩
      · split at h
        · cases h
          exact ⟨rfl, fun h => nomatch h⟩
        · cases h
          exact ⟨rfl, fun _ => ⟨best, rest, p, rfl, hp, hbest⟩⟩

/-- The ends of rematching an order: without market data, unmatched, matched with the best
    opposite price, or filled at its own price. -/
theorem hasRematching_cases {s : ReplayOrderMatcher} {info info' : OrderInfo} {filled : Bool}
    (h : s.hasRematching info = .ok (filled, info')) :
    (s.currentStates[info.order.contract]? = none ∧ filled = false ∧ info' = info) ∨
    ∃ state, s.currentStates[info.order.contract]? = some state ∧
      (filled = true ∧ (∃ o', isPriceMatching info.order state.l2 = .ok (true, o') ∧
          info'.order = o') ∨
        isPriceMatching info.order state.l2 = .ok (false, info.order) ∧ info'.order = info.order ∧
          (filled = true → PositionReached info.order state.l2)) := by
  unfold hasRematching at h
  cases hstate : s.currentStates[info.order.contract]? with
  | none =>
    rw [hstate] at h
    cases h
    exact .inl ⟨rfl, rfl, rfl⟩
  | some state =>
    rw [hstate] at h
    refine .inr ⟨state, rfl, ?_⟩
    obtain ⟨⟨matched, o'⟩, hmatch, h⟩ := Except.bind_eq_ok.mp h
    cases matched with
    | true =>
      cases h
      exact .inl ⟨rfl, o', hmatch, rfl⟩
    | false =>
      -- without a match the place in the queue decides
      have ho' := isPriceMatching_false hmatch
      subst ho'
      refine .inr ⟨hmatch, ?_⟩
      have h : (match info.order.buySell with
        | .buy => s.isPositionReached info state.l2.bid state.bidVolumn fun a b => b.lt a
        | .sell => s.isPositionReached info state.l2.offer state.askVolumn fun a b => a.lt b
        | .none => .ok (false, info)) = .ok (filled, info') := h
      cases hside : info.order.buySell with
      | none =>
        rw [hside] at h
        cases h
        exact ⟨rfl, fun h => nomatch h⟩
      | buy =>
        rw [hside] at h
        obtain ⟨hsame, hreached⟩ := isPositionReached_cases h
        refine ⟨hsame, fun hfilled => ?_⟩
        obtain ⟨best, rest, p, hprices, hp, hbest⟩ := hreached hfilled
        exact ⟨best, rest, p, by rw [ownPrices, hside]; exact hprices, hp,
          by rw [better, hside]; exact hbest⟩
      | sell =>
        rw [hside] at h
        obtain ⟨hsame, hreached⟩ := isPositionReached_cases h
        refine ⟨hsame, fun hfilled => ?_⟩
        obtain ⟨best, rest, p, hprices, hp, hbest⟩ := hreached hfilled
        exact ⟨best, rest, p, by rw [ownPrices, hside]; exact hprices, hp,
          by rw [better, hside]; exact hbest⟩

/-- Rematching changes nothing of an order but its price. -/
theorem hasRematching_order {s : ReplayOrderMatcher} {info info' : OrderInfo} {filled : Bool}
    (h : s.hasRematching info = .ok (filled, info')) :
    ∃ price, info'.order = { info.order with price } := by
  rcases hasRematching_cases h with ⟨-, -, rfl⟩ | ⟨state, -, ⟨-, o', hmatch, ho'⟩ | ⟨-, hsame, -⟩⟩
  · exact ⟨_, rfl⟩
  · obtain ⟨best, -, -, rfl⟩ := isPriceMatching_true.mp hmatch
    exact ⟨_, ho'⟩
  · exact ⟨_, hsame⟩

/-! ## Answers -/

/-- The order as it is kept while it is working. -/
def workingOrder (now : Timestamp) (o : Order) (exchangeOrderId : String) : Order :=
  { o with
    exchangeOrderId
    status := .working
    workingPrice := o.price
    workingQuantity := o.quantity
    filledQuantity := 0
    message := ""
    submitTime := now }

/-- The order as it is reported when it is filled. -/
def filledOrder (now : Timestamp) (o : Order) (exchangeOrderId : String) : Order :=
  { o with
    exchangeOrderId
    status := .filled
    workingPrice := "0"
    workingQuantity := 0
    filledQuantity := o.quantity
    message := ""
    submitTime := now }

/-- The fill of an order -/
def fillOf (o : Order) (fillId exchangeOrderId : String) : Fill where
  fillId := fillId
  fillPrice := o.price
  fillQuantity := o.quantity
  account := o.account
  clientOrderId := o.clientOrderId
  exchangeOrderId := exchangeOrderId
  contract := o.contract
  buySell := o.buySell

/-- The next fill id. -/
def fillIdOf (s : ReplayOrderMatcher) : String := "Fill-" ++ (s.fillId + 1).toNat.repr

/-- The exchange id of the next order -/
def exchangeOrderIdOf (s : ReplayOrderMatcher) : String :=
  "Order-" ++ (s.exchangeOrderId + 1).toNat.repr

/-- The state behind a fill of the order `o`. -/
def filled (s : ReplayOrderMatcher) (o : Order) (exchangeOrderId : String) : ReplayOrderMatcher :=
  { s with
    fillId := s.fillId + 1
    filledOrders := s.filledOrders.insert o.clientOrderId (fillOf o s.fillIdOf exchangeOrderId)
    events := s.events ++ [.onOrder (filledOrder s.now o exchangeOrderId),
      .onFill (fillOf o s.fillIdOf exchangeOrderId)] }

/-- The counter goes on by one. -/
theorem nextExchangeOrderId_eq (s : ReplayOrderMatcher) :
    nextExchangeOrderId s = .ok s.exchangeOrderIdOf
      { s with exchangeOrderId := s.exchangeOrderId + 1 } := rfl

/-- What is sent when an order is filled -/
theorem orderFilled_eq (s : ReplayOrderMatcher) (o : Order) (exchangeOrderId : String) :
    orderFilled o exchangeOrderId s = .ok (fillOf o s.fillIdOf exchangeOrderId) { s with
      fillId := s.fillId + 1
      events := s.events ++ [.onOrder (filledOrder s.now o exchangeOrderId),
        .onFill (fillOf o s.fillIdOf exchangeOrderId)] } := by
  rw [List.append_cons]
  rfl

/-- The order is reported before its place is calculated. -/
theorem orderWorking_eq (s : ReplayOrderMatcher) (o : Order) (exchangeOrderId : String) :
    orderWorking o exchangeOrderId s =
      let s' := { s with
        events := s.events ++ [.onOrder (workingOrder s.now o exchangeOrderId)] }
      match s.calculateOrderPosition o with
      | .ok position => .ok { order := workingOrder s.now o exchangeOrderId, position } s'
      | .error e => .error e s' := by
  show ((EStateM.ofExcept (s.calculateOrderPosition o) >>= fun position =>
    pure ({ order := workingOrder s.now o exchangeOrderId, position } : OrderInfo)) : MatcherM _)
      { s with events := s.events ++ [.onOrder (workingOrder s.now o exchangeOrderId)] } = _
  cases s.calculateOrderPosition o <;> rfl

/-! ## Requests -/

section Requests

variable {s : ReplayOrderMatcher} {o : Order} {Q : Unit → ReplayOrderMatcher → Prop}
  {E : Exception → ReplayOrderMatcher → Prop}

/-- An order that does not match is left as it is. -/
theorem hasMatching_false {o' : Order} (h : s.hasMatching o = .ok (false, o')) : o' = o := by
  unfold hasMatching at h
  split at h
  · cases h
    rfl
  · exact isPriceMatching_false h

/-- An order matches at the best price of its contract's last market data. -/
theorem hasMatching_true {o' : Order} (h : s.hasMatching o = .ok (true, o')) :
    ∃ state best, s.currentStates[o.contract]? = some state ∧
      bestOpposite o state.l2 = some best ∧ isMatching o (crosses o best) = .ok true ∧
      o' = { o with price := best.toString } := by
  unfold hasMatching at h
  split at h
  · exact nomatch h
  · next state hstate =>
    obtain ⟨best, hbest, hmatch, ho'⟩ := isPriceMatching_true.mp h
    exact ⟨state, best, hstate, hbest, hmatch, ho'⟩

/-- A new order is filled, or it works, or a price cannot be read. -/
theorem add_sat (herror : ∀ e, s.hasMatching o = .error e → E e s)
    (hfilled : ∀ o', s.hasMatching o = .ok (true, o') →
      Q () ({ s with exchangeOrderId := s.exchangeOrderId + 1 }.filled o' s.exchangeOrderIdOf))
    (hworking : ∀ position, s.hasMatching o = .ok (false, o) →
      s.calculateOrderPosition o = .ok position → Q () { s with
        exchangeOrderId := s.exchangeOrderId + 1
        workingOrders := s.workingOrders.insert o.clientOrderId
          { order := workingOrder s.now o s.exchangeOrderIdOf, position }
        workingOrderIds := s.workingOrderIds ++ [o.clientOrderId]
        events := s.events ++ [.onOrder (workingOrder s.now o s.exchangeOrderIdOf)] })
    (hthrown : ∀ e, s.hasMatching o = .ok (false, o) → s.calculateOrderPosition o = .error e →
      E e { s with
        exchangeOrderId := s.exchangeOrderId + 1
        events := s.events ++ [.onOrder (workingOrder s.now o s.exchangeOrderIdOf)] }) :
    (add o s).Sat Q E := by
  unfold add
  refine EStateM.sat_bind (show (EStateM.Result.ok s s).Sat _ E from ?_)
  refine EStateM.sat_bind ?_
  cases hmatch : s.hasMatching o with
  | error e => exact herror e hmatch
  | ok matched =>
    obtain ⟨matched, o'⟩ := matched
    cases matched with
    | true =>
      simp only [EStateM.ofExcept_ok, EStateM.Result.sat_ok, if_true]
      rw [EStateM.bind_eq_of_ok s.nextExchangeOrderId_eq, EStateM.bind_eq_of_ok (orderFilled_eq ..)]
      exact hfilled o' hmatch
    | false =>
      -- the order works, behind what its price shows
      have ho' := hasMatching_false hmatch
      subst ho'
      simp only [EStateM.ofExcept_ok, EStateM.Result.sat_ok, Bool.false_eq_true, if_false]
      rw [EStateM.bind_eq_of_ok s.nextExchangeOrderId_eq]
      refine EStateM.sat_bind ?_
      rw [orderWorking_eq]
      -- counting orders does not move the position
      have hsame : calculateOrderPosition { s with exchangeOrderId := s.exchangeOrderId + 1 } o' =
          s.calculateOrderPosition o' := rfl
      simp only [hsame]
      cases hposition : s.calculateOrderPosition o' with
      | error e => exact hthrown e hmatch hposition
      | ok position => exact hworking position hmatch hposition

/-- The state behind an answer that changes nothing. -/
def answered (s : ReplayOrderMatcher) (answer : Order) : ReplayOrderMatcher :=
  { s with events := s.events ++ [.onOrder answer] }

/-- A change is refused, or it replaces the working order, whose place is calculated anew. -/
theorem change_sat
    (hreject : ∀ answer, o.clientOrderId ∈ s.filledOrders ∨ o.clientOrderId ∈ s.canceledOrders ∨
      o.clientOrderId ∉ s.workingOrders → Q () (s.answered answer))
    (hchanged : ∀ working position, o.clientOrderId ∉ s.filledOrders →
      o.clientOrderId ∉ s.canceledOrders → s.workingOrders[o.clientOrderId]? = some working →
      s.calculateOrderPosition o = .ok position → Q () { s with
        workingOrders := s.workingOrders.insert o.clientOrderId
          { order := workingOrder s.now o working.order.exchangeOrderId, position }
        events := s.events ++ [.onOrder (workingOrder s.now o working.order.exchangeOrderId)] })
    (hthrown : ∀ e answer, s.calculateOrderPosition o = .error e → E e (s.answered answer)) :
    (change o s).Sat Q E := by
  unfold change
  rw [EStateM.get_bind]
  by_cases hfilled : s.filledOrders.contains o.clientOrderId = true
  · rw [if_pos hfilled]
    exact hreject _ (.inl (by simpa using hfilled))
  rw [if_neg hfilled]
  by_cases hcanceled : s.canceledOrders.contains o.clientOrderId = true
  · rw [if_pos hcanceled]
    exact hreject _ (.inr (.inl (by simpa using hcanceled)))
  rw [if_neg hcanceled]
  -- an order that is not there is rejected
  cases hworking : s.workingOrders[o.clientOrderId]? with
  | none =>
    refine hreject _ (.inr (.inr fun h => ?_))
    rw [Std.TreeMap.mem_iff_isSome_getElem?, hworking] at h
    exact nomatch h
  | some working =>
    refine EStateM.sat_bind ?_
    rw [orderWorking_eq]
    cases hposition : s.calculateOrderPosition o with
    | error e => exact hthrown e _ hposition
    | ok position =>
      exact hchanged working position (by simpa using hfilled) (by simpa using hcanceled) hworking
        hposition

/-- A delete is refused, or the order is moved to the canceled ones. -/
theorem delete_sat (hreject : ∀ answer, Q () (s.answered answer))
    (hdeleted : ∀ working answer, o.clientOrderId ∉ s.filledOrders →
      o.clientOrderId ∉ s.canceledOrders → s.workingOrders[o.clientOrderId]? = some working →
      Q () { s.answered answer with
        canceledOrders := s.canceledOrders.insert o.clientOrderId working.order
        workingOrderIds := s.workingOrderIds.filter (· != o.clientOrderId)
        workingOrders := s.workingOrders.erase o.clientOrderId }) :
    (delete o s).Sat Q E := by
  unfold delete
  rw [EStateM.get_bind]
  by_cases hfilled : s.filledOrders.contains o.clientOrderId = true
  · rw [if_pos hfilled]
    exact hreject _
  rw [if_neg hfilled]
  by_cases hcanceled : s.canceledOrders.contains o.clientOrderId = true
  · rw [if_pos hcanceled]
    exact hreject _
  rw [if_neg hcanceled]
  -- an order that is not there is rejected
  cases hworking : s.workingOrders[o.clientOrderId]? with
  | none => exact hreject _
  | some working =>
    exact hdeleted working _ (by simpa using hfilled) (by simpa using hcanceled) hworking

/-- A query is answered, and changes nothing. -/
theorem query_sat (hanswer : ∀ answer, Q () (s.answered answer)) : (query o s).Sat Q E := by
  unfold query
  rw [EStateM.get_bind]
  cases s.filledOrders[o.clientOrderId]? with
  | some fill => exact hanswer _
  | none =>
    cases s.canceledOrders[o.clientOrderId]? with
    | some canceled => exact hanswer _
    | none => cases s.workingOrders[o.clientOrderId]? <;> exact hanswer _

end Requests

/-! ## The loop over the working orders -/

section Loop

variable {contract id : String} {kept rest : List String} {s : ReplayOrderMatcher}
  {E : Exception → ReplayOrderMatcher → Prop}

/-- The state behind a turn in which the order `o` is filled. -/
def rematched (s : ReplayOrderMatcher) (kept : List String) (id : String) (rest : List String)
    (info : OrderInfo) : ReplayOrderMatcher :=
  { { s with workingOrders := s.workingOrders.insert id info }.filled info.order
      info.order.exchangeOrderId with
    workingOrderIds := kept ++ rest
    workingOrders := (s.workingOrders.insert id info).erase info.order.clientOrderId }

/-- An order that was made by looking for it is never filled. -/
theorem hasRematching_empty (s : ReplayOrderMatcher) :
    s.hasRematching {} = .ok (false, {}) := by
  unfold hasRematching
  split <;> rfl

/-- A turn of the loop: an order that is not there is made, an order of another contract is
    left as it is, and the others are rematched. -/
theorem rematchOne_sat {Q : Bool → ReplayOrderMatcher → Prop}
    (hghost : s.workingOrders[id]? = none → ∀ t : Std.TreeMap String OrderInfo,
      (∀ id', t[id']? = if id' = id then some {} else s.workingOrders[id']?) →
      Q false { s with workingOrders := t })
    (hother : ∀ info, s.workingOrders[id]? = some info → info.order.contract ≠ contract → Q false s)
    (herror : ∀ info e, s.workingOrders[id]? = some info → info.order.contract = contract →
      s.hasRematching info = .error e → E e s)
    (hkept : ∀ info info', s.workingOrders[id]? = some info → info.order.contract = contract →
      s.hasRematching info = .ok (false, info') →
      Q false { s with workingOrders := s.workingOrders.insert id info' })
    (hfilled : ∀ info info', s.workingOrders[id]? = some info → info.order.contract = contract →
      s.hasRematching info = .ok (true, info') → Q true (s.rematched kept id rest info')) :
    (rematchOne contract kept id rest s).Sat Q E := by
  cases hinfo : s.workingOrders[id]? with
  | none =>
    -- an id without an order makes an empty one
    have hempty : workingOrderAt id s = .ok {} { s with
        workingOrders := s.workingOrders.insert id {} } := by
      rw [workingOrderAt, EStateM.get_bind, hinfo]
      rfl
    have hinsert : ∀ id', (s.workingOrders.insert id {})[id']? =
        if id' = id then some {} else s.workingOrders[id']? := fun id' =>
      Std.TreeMap.getElem?_insert_if ..
    rw [rematchOne, EStateM.bind_eq_of_ok hempty]
    by_cases hcontract : ({} : OrderInfo).order.contract = contract
    · rw [if_pos (by rwa [beq_iff_eq]), EStateM.get_bind, hasRematching_empty]
      refine hghost hinfo _ fun id' => ?_
      rw [Std.TreeMap.getElem?_insert_if, hinsert]
      split <;> rfl
    · rw [if_neg (by rwa [beq_iff_eq])]
      exact hghost hinfo _ hinsert
  | some info =>
    -- an id with an order finds it
    have hfound : workingOrderAt id s = .ok info s := by
      rw [workingOrderAt, EStateM.get_bind, hinfo]
      rfl
    rw [rematchOne, EStateM.bind_eq_of_ok hfound]
    by_cases hcontract : info.order.contract = contract
    · rw [if_pos (by rwa [beq_iff_eq]), EStateM.get_bind]
      cases hmatch : s.hasRematching info with
      | error e => exact herror info e hinfo hcontract hmatch
      | ok matched =>
        obtain ⟨matched, info'⟩ := matched
        cases matched with
        | false => exact hkept info info' hinfo hcontract hmatch
        | true =>
          have h := hfilled info info' hinfo hcontract hmatch
          rw [EStateM.bind_eq_of_ok (EStateM.ofExcept_ok (true, info') s)]
          simp only [if_true]
          rw [EStateM.bind_eq_of_ok (EStateM.modify_eq ..), EStateM.bind_eq_of_ok (orderFilled_eq ..)]
          exact h
    · rw [if_neg (by rwa [beq_iff_eq])]
      exact hother info hinfo hcontract

/-- The rule for the loop: `I kept rest s` says that in state `s` the orders `kept` were left
    working, and the orders `rest` are still to be rematched. -/
theorem rematchFrom_sat {I : List String → List String → ReplayOrderMatcher → Prop}
    (hturn : ∀ kept id rest s, I kept (id :: rest) s →
      (rematchOne contract kept id rest s).Sat
        (fun filled s' => if filled then I kept rest s' else I (kept ++ [id]) rest s') E)
    {kept rest : List String} (h : I kept rest s) :
    (rematchFrom contract kept rest s).Sat (fun _ s' => ∃ kept', I kept' [] s') E := by
  induction rest generalizing kept s with
  | nil => exact ⟨kept, h⟩
  | cons id rest ih =>
    refine EStateM.sat_bind ((hturn kept id rest s h).mono (fun filled s' hs' => ?_) fun _ _ h => h)
    cases filled with
    | true => exact ih hs'
    | false => exact ih hs'

/-- An update of the market data rematches the orders of its contract. -/
theorem onStateChanged_sat {l2 : Dms.L2} {bidVolumn askVolumn : UInt32}
    {I : List String → List String → ReplayOrderMatcher → Prop}
    (hturn : ∀ kept id rest s, I kept (id :: rest) s →
      (rematchOne l2.contract kept id rest s).Sat
        (fun filled s' => if filled then I kept rest s' else I (kept ++ [id]) rest s') E)
    (h : I [] s.workingOrderIds { s with
      currentStates := s.currentStates.insert l2.contract { l2, bidVolumn, askVolumn } }) :
    (onStateChanged l2 bidVolumn askVolumn s).Sat (fun _ s' => ∃ kept, I kept [] s') E :=
  rematchFrom_sat hturn h

end Loop

/-! ## Runs -/

theorem run_eq_bind (tradeRate : Int32) (before : List Call) (c : Call) :
    run tradeRate (before ++ [c]) =
      ((before.forM step : MatcherM Unit) >>= fun _ => step c) (create tradeRate) := by
  have hlast : (forM [c] step : MatcherM Unit) = step c := by
    show (step c >>= fun _ => pure PUnit.unit) = step c
    exact bind_pure_unit
  rw [run, List.forM_eq_forM, List.forM_append, hlast]

/-- A run goes on from the state before its last call. -/
theorem run_concat {tradeRate : Int32} {before : List Call} {s : ReplayOrderMatcher}
    (h : run tradeRate before = .ok () s) (c : Call) : run tradeRate (before ++ [c]) = step c s :=
  (run_eq_bind ..).trans (EStateM.bind_eq_of_ok h)

theorem run_of_concat {tradeRate : Int32} {before : List Call} {c : Call} {s' : ReplayOrderMatcher}
    (h : run tradeRate (before ++ [c]) = .ok () s') :
    ∃ s, run tradeRate before = .ok () s ∧ step c s = .ok () s' := by
  cases hbefore : run tradeRate before with
  | ok a s => exact ⟨s, rfl, (run_concat hbefore c).symm.trans h⟩
  | error e s =>
    rw [run_eq_bind, EStateM.bind_eq_of_error hbefore] at h
    exact nomatch h

/-- What holds at the start and is kept by every call of a run that returns holds in every
    state that is reached. -/
theorem run_induction {tradeRate : Int32} {calls : List Call}
    {P : List Call → ReplayOrderMatcher → Prop} (nil : P [] (create tradeRate))
    (snoc : ∀ before c s s', before ++ [c] <+: calls → P before s →
      run tradeRate before = .ok () s → step c s = .ok () s' → P (before ++ [c]) s')
    {before : List Call} (hbefore : before <+: calls) {s : ReplayOrderMatcher}
    (h : run tradeRate before = .ok () s) : P before s := by
  induction before using List.reverseRecOn generalizing s with
  | nil =>
    cases h
    exact nil
  | append_singleton before c ih =>
    obtain ⟨s₀, hs₀, hstep⟩ := run_of_concat h
    exact snoc before c s₀ s hbefore
      (ih ((List.prefix_append before [c]).trans hbefore) hs₀) hs₀ hstep

end ReplayOrderMatcher

end FixHandler.Tmalpha
