import Mathlib
import FixHandler.ForStd.List
import FixHandler.Spec.Tmalpha.MatcherCorrect

/-!
# The prices of fills

An order is filled at the best opposite price, or, when its place in the queue is reached, at
its own price. The first one is written with six digits after the point. The second one is
meant for limit orders: a market order has the price 0, and where nobody bids, an order to
sell at 0 comes before every offer.

## Key results

- `Legit`: the price of a fill is one that the order asked for
- `FairStep`: no price is cut, and nothing is sold at 0
- `fills_fair`: every fill of a run whose steps are fair is legitimate
-/

namespace FixHandler.Tmalpha

open Cxx (Binary64 Exception)
open Ems (Order Fill)

/-- Whether an order pays more, or gets less, for the price `v` than for `p`. -/
def worse (o : Order) (v p : Binary64) : Bool :=
  match o.buySell with
  | .buy => p.lt v
  | .sell => v.lt p
  | .none => false

/-- All prices of the market data are positive. -/
def Positive (l2 : Dms.L2) : Prop :=
  ∀ d ∈ l2.bid ++ l2.offer, (Binary64.fin 0).lt d.price = true

/-- The six digits after the point with which a price is written are all it has. -/
def Exact (price : Binary64) : Prop := Cxx.stod price.toString = .ok price

/-- Among the calls there is an update of the contract of the order, and its best opposite
    price is `price`. -/
def Quoted (calls : List Call) (o : Order) (price : Binary64) : Prop :=
  ∃ c ∈ calls, ∃ l2 bidVolumn askVolumn, c.request = .stateChanged l2 bidVolumn askVolumn ∧
    l2.contract = o.contract ∧ ReplayOrderMatcher.bestOpposite o l2 = some price

/-- The fill is one of the order, and its price is not 0, not worse than the limit of the order,
    and a best opposite price if the order is a market order that asks for no price. -/
structure Legit (calls : List Call) (o : Order) (f : Fill) : Prop where
  client : f.clientOrderId = o.clientOrderId
  contract : f.contract = o.contract
  side : f.buySell = o.buySell
  price : ∃ v, Cxx.stod f.fillPrice = .ok v ∧ v ≠ .fin 0 ∧
    (o.orderType ≠ .market → ∀ p, Cxx.stod o.price = .ok p → worse o v p = false) ∧
    (o.orderType = .market → (∀ p, Cxx.stod o.price = .ok p → p = .fin 0) → Quoted calls o v)

/-- The call asks for the order. -/
def Call.Asks (c : Call) (o : Order) : Prop := c.request = .add o ∨ c.request = .change o

namespace ReplayOrderMatcher

/-! ## The two prices of a fill -/

section Prices

variable {calls : List Call} {o : Order} {l2 : Dms.L2} {fillId exchangeOrderId : String}

/-- The best price of the other side is positive, as all prices are. -/
theorem bestOpposite_positive (h : Positive l2) {best : Binary64}
    (hbest : bestOpposite o l2 = some best) : (Binary64.fin 0).lt best = true := by
  unfold bestOpposite at hbest
  cases hside : o.buySell with
  | none =>
    rw [hside] at hbest
    exact nomatch hbest
  | buy =>
    rw [hside] at hbest
    obtain ⟨d, hd, rfl⟩ := Option.map_eq_some_iff.mp hbest
    exact h d (List.mem_append_right _ (List.mem_of_head? hd))
  | sell =>
    rw [hside] at hbest
    obtain ⟨d, hd, rfl⟩ := Option.map_eq_some_iff.mp hbest
    exact h d (List.mem_append_left _ (List.mem_of_head? hd))

/-- A fill at the best opposite price. -/
theorem legit_of_match {best : Binary64} (hbest : bestOpposite o l2 = some best)
    (hmatch : isMatching o (crosses o best) = .ok true) (hpositive : Positive l2)
    (hexact : Exact best) (hquoted : Quoted calls o best) :
    Legit calls o (fillOf { o with price := best.toString } fillId exchangeOrderId) where
  client := rfl
  contract := rfl
  side := rfl
  price := by
    refine ⟨best, hexact, fun hzero => ?_, fun hlimit p hp => ?_, fun _ _ => hquoted⟩
    · -- the best price is not zero
      have hlt := bestOpposite_positive hpositive hbest
      rw [hzero, Binary64.lt_irrefl] at hlt
      exact nomatch hlt
    · -- a limit order matched, so that the best price is not worse than its own
      rcases isMatching_iff.mp hmatch with hmarket | ⟨-, p', hp', hcrosses⟩
      · exact absurd hmarket hlimit
      · rw [hp] at hp'
        cases hp'
        unfold crosses at hcrosses
        unfold worse
        cases hside : o.buySell with
        | none => rfl
        | buy =>
          rw [hside] at hcrosses
          exact Binary64.not_lt_of_le hcrosses
        | sell =>
          rw [hside] at hcrosses
          exact Binary64.not_lt_of_le hcrosses

/-- A fill at the own price: an order to buy at 0 is behind every bid, and an order to sell at 0
    matches every bid. -/
theorem legit_of_position (hnot : ¬ Marketable o l2) (hreached : PositionReached o l2)
    (hpositive : Positive l2)
    (hsold : o.buySell = .sell → Cxx.stod o.price = .ok (.fin 0) → l2.bid = [] → l2.offer = []) :
    Legit calls o (fillOf o fillId exchangeOrderId) where
  client := rfl
  contract := rfl
  side := rfl
  price := by
    obtain ⟨best, rest, p, hprices, hp, hbetter⟩ := hreached
    -- an order at zero would have matched before its position was reached
    have hzero : p ≠ .fin 0 := by
      rintro rfl
      cases hside : o.buySell with
      | none =>
        rw [ownPrices, hside] at hprices
        cases hprices
      | buy =>
        rw [ownPrices, hside] at hprices
        have hlt := hpositive best
          (List.mem_append_left _ ((show l2.bid = best :: rest from hprices) ▸ List.mem_cons_self))
        rw [better, hside] at hbetter
        exact Bool.false_ne_true (hbetter.symm.trans hlt)
      | sell =>
        rw [ownPrices, hside] at hprices
        have hoffer : l2.offer = best :: rest := hprices
        cases hbid : l2.bid with
        | nil =>
          rw [hsold hside hp hbid] at hoffer
          cases hoffer
        | cons bid bids =>
          -- the best bid is positive, so that the order matches it
          refine hnot (marketable_iff.mpr ⟨bid.price, ?_, ?_⟩)
          · rw [bestOpposite, hside, hbid]
            rfl
          · rw [isMatching_iff]
            by_cases hmarket : o.orderType = .market
            · exact .inl hmarket
            · refine .inr ⟨hmarket, .fin 0, hp, ?_⟩
              have hlt := hpositive bid
                (List.mem_append_left _ (hbid ▸ List.mem_cons_self))
              rw [crosses, hside]
              show ((Binary64.fin 0).lt bid.price || _) = true
              rw [hlt, Bool.true_or]
    refine ⟨p, hp, hzero, fun _ p' hp' => ?_, fun _ hnone => absurd (hnone p hp) hzero⟩
    rw [hp] at hp'
    cases hp'
    unfold worse
    split <;> simp only [Binary64.lt_irrefl]

end Prices

/-! ## What a step sends and keeps -/

/-- The fills that were sent between two states. -/
def Sends (P : Fill → Prop) (s s' : ReplayOrderMatcher) : Prop :=
  ∃ sent, s'.events = s.events ++ sent ∧ ∀ f, ExchangeEvent.onFill f ∈ sent → P f

/-- What makes no call sends nothing. -/
theorem Sends.refl {P : Fill → Prop} {s s' : ReplayOrderMatcher} (h : s'.events = s.events) :
    Sends P s s' :=
  ⟨[], by rw [h, List.append_nil], fun _ h => absurd h List.not_mem_nil⟩

/-- What is sent along two steps are the fills of both. -/
theorem Sends.trans {P : Fill → Prop} {s₁ s₂ s₃ : ReplayOrderMatcher} (h : Sends P s₁ s₂)
    (h' : Sends P s₂ s₃) : Sends P s₁ s₃ := by
  obtain ⟨sent, hsent, hP⟩ := h
  obtain ⟨sent', hsent', hP'⟩ := h'
  refine ⟨sent ++ sent', by rw [hsent', hsent, List.append_assoc], fun f hf => ?_⟩
  exact (List.mem_append.mp hf).elim (hP f) (hP' f)

/-- The report of an order is no fill. -/
theorem Sends.order {P : Fill → Prop} {s s' : ReplayOrderMatcher} {o : Order}
    (h : s'.events = s.events ++ [.onOrder o]) : Sends P s s' :=
  ⟨_, h, fun _ hf => nomatch List.mem_singleton.mp hf⟩

/-- A fill that has the property may be sent. -/
theorem Sends.fill {P : Fill → Prop} {s s' : ReplayOrderMatcher} {o : Order} {f : Fill}
    (h : s'.events = s.events ++ [.onOrder o, .onFill f]) (hf : P f) : Sends P s s' := by
  refine ⟨_, h, fun f' hf' => ?_⟩
  rcases List.mem_cons.mp hf' with heq | hmem
  · exact nomatch heq
  · cases List.mem_singleton.mp hmem
    exact hf

/-- A working order is the one that was working under its id, or the empty one that
    `m_working_orders[id]` makes. -/
def Stored (s s' : ReplayOrderMatcher) : Prop :=
  ∀ (id : String) (info' : OrderInfo), s'.workingOrders[id]? = some info' →
    (∃ info : OrderInfo, s.workingOrders[id]? = some info ∧ info'.order = info.order) ∨
    info'.order = { clientOrderId := "" }

/-- The orders that work carry their ids. -/
def Named (s : ReplayOrderMatcher) : Prop :=
  ∀ (id : String) (info : OrderInfo), s.workingOrders[id]? = some info →
    info.order.clientOrderId = id ∨ info.order = { clientOrderId := "" }

/-- A working order is also the one that the call asks for. -/
def KeptAsAsked (c : Call) (s s' : ReplayOrderMatcher) : Prop :=
  ∀ (id : String) (info' : OrderInfo), s'.workingOrders[id]? = some info' →
    (∃ info : OrderInfo, s.workingOrders[id]? = some info ∧ info'.order = info.order) ∨
    info'.order = { clientOrderId := "" } ∨
    ∃ o exchangeOrderId, c.Asks o ∧ o.clientOrderId = id ∧
      info'.order = workingOrder c.now o exchangeOrderId

section Kept

variable {s s' s'' : ReplayOrderMatcher} {id : String} {info' : OrderInfo} {c : Call}

/-- What leaves the table leaves the orders. -/
theorem Stored.refl (h : s'.workingOrders = s.workingOrders) : Stored s s' := by
  intro id info' hinfo'
  rw [h] at hinfo'
  exact .inl ⟨info', hinfo', rfl⟩

/-- An entry may be replaced by one with the same order, or an empty one. -/
theorem Stored.insert (h : Stored s s') (hworking : s''.workingOrders = s'.workingOrders.insert id info')
    (hnew : (∃ info : OrderInfo, s.workingOrders[id]? = some info ∧ info'.order = info.order) ∨
      info'.order = { clientOrderId := "" }) : Stored s s'' := by
  intro id' info'' hinfo''
  rw [hworking, Std.TreeMap.getElem?_insert_if] at hinfo''
  split at hinfo''
  · next heq =>
    cases hinfo''
    exact heq ▸ hnew
  · exact h id' info'' hinfo''

/-- An entry may go. -/
theorem Stored.erase (h : Stored s s') (hworking : s''.workingOrders = s'.workingOrders.erase id) :
    Stored s s'' := by
  intro id' info'' hinfo''
  rw [hworking, Std.TreeMap.getElem?_erase_if] at hinfo''
  split at hinfo''
  · exact nomatch hinfo''
  · exact h id' info'' hinfo''

/-- The entries stay under the names of their orders. -/
theorem Stored.named (h : Stored s s') (hs : Named s) : Named s' := by
  intro id info' hinfo'
  rcases h id info' hinfo' with ⟨info, hinfo, hsame⟩ | hempty
  · rw [hsame]
    exact hs id info hinfo
  · exact .inr hempty

/-- A call keeps the entries under the names of their orders. -/
theorem KeptAsAsked.named (h : KeptAsAsked c s s') (hs : Named s) : Named s' := by
  intro id info' hinfo'
  rcases h id info' hinfo' with ⟨info, hinfo, hsame⟩ | hempty | ⟨o, exchangeOrderId, -, hid, hsame⟩
  · rw [hsame]
    exact hs id info hinfo
  · exact .inr hempty
  · rw [hsame]
    exact .inl hid

/-- Orders that are stored are orders that were asked for. -/
theorem Stored.kept (h : Stored s s') : KeptAsAsked c s s' := fun id info' hinfo' =>
  (h id info' hinfo').elim .inl fun hempty => .inr (.inl hempty)

/-- The order that the call asks for is put among the working ones. -/
theorem KeptAsAsked.asked {o : Order} {exchangeOrderId : String} (hasks : c.Asks o)
    (hworking : s'.workingOrders = s.workingOrders.insert o.clientOrderId info')
    (horder : info'.order = workingOrder c.now o exchangeOrderId) : KeptAsAsked c s s' := by
  intro id info'' hinfo''
  rw [hworking, Std.TreeMap.getElem?_insert_if] at hinfo''
  split at hinfo''
  · next heq =>
    cases hinfo''
    exact .inr (.inr ⟨o, exchangeOrderId, hasks, heq.symm, horder⟩)
  · exact .inl ⟨info'', hinfo'', rfl⟩

end Kept

/-! ## Fair steps -/

/-- The orders that a call may fill: the one that it adds, or one that is working. -/
def Fillable (c : Call) (s : ReplayOrderMatcher) (o : Order) : Prop :=
  match c.request with
  | .add o' => o = o'
  | .stateChanged .. => ∃ (id : String) (info : OrderInfo), s.workingOrders[id]? = some info ∧
      o = info.order
  | _ => False

/-- What a call makes of a state: it fills orders at legitimate prices only, and the orders that
    work are those that are asked for. -/
structure Fair (calls : List Call) (c : Call) (s s' : ReplayOrderMatcher) : Prop where
  fills : Sends (fun f => ∃ o, Fillable c s o ∧ Legit calls o f) s s'
  kept : KeptAsAsked c s s'

/-- A best opposite price that is matched has six digits after the point at most, and where
    nobody bids and somebody offers, no order works that sells at 0. -/
structure FairStep (s : ReplayOrderMatcher) (c : Call) : Prop where
  added : ∀ o state best, c.request = .add o → s.currentStates[o.contract]? = some state →
    Marketable o state.l2 → bestOpposite o state.l2 = some best → Exact best
  matched : ∀ l2 bidVolumn askVolumn, c.request = .stateChanged l2 bidVolumn askVolumn →
    ∀ (id : String) (info : OrderInfo) best, s.workingOrders[id]? = some info →
      info.order.contract = l2.contract → Marketable info.order l2 →
      bestOpposite info.order l2 = some best → Exact best
  sold : ∀ l2 bidVolumn askVolumn, c.request = .stateChanged l2 bidVolumn askVolumn →
    ∀ (id : String) (info : OrderInfo), s.workingOrders[id]? = some info →
      info.order.contract = l2.contract → info.order.buySell = .sell →
      Cxx.stod info.order.price = .ok (.fin 0) → l2.bid = [] → l2.offer = []

/-- The market data of a contract is the one of an update. -/
def Updated (calls : List Call) (s : ReplayOrderMatcher) : Prop :=
  ∀ (contract : String) (state : CurrentState), s.currentStates[contract]? = some state →
    state.l2.contract = contract ∧ ∃ c ∈ calls, ∃ bidVolumn askVolumn,
      c.request = .stateChanged state.l2 bidVolumn askVolumn

/-- All updates have positive prices. -/
def PositiveCalls (calls : List Call) : Prop :=
  ∀ c ∈ calls, ∀ l2 bidVolumn askVolumn, c.request = .stateChanged l2 bidVolumn askVolumn →
    Positive l2

section Steps

variable {calls : List Call} {c : Call} {s : ReplayOrderMatcher}

/-- An order that is added is filled fairly. -/
theorem fair_add (hpositive : PositiveCalls calls) (hupdated : Updated calls s) {o : Order}
    (hc : c.request = .add o) (hnow : s.now = c.now) (hfair : FairStep s c) :
    (add o s).Sat (fun _ s' => Fair calls c s s') (fun _ s' => Fair calls c s s') := by
  refine add_sat (fun _ _ => ⟨.refl rfl, (Stored.refl rfl).kept⟩) (fun o' hmatch => ?_)
    (fun position _ _ => ?_) fun _ _ _ => ⟨.order rfl, (Stored.refl rfl).kept⟩
  · -- the order meets the best opposite price and is filled there
    obtain ⟨state, best, hstate, hbest, hcrosses, rfl⟩ := hasMatching_true hmatch
    obtain ⟨hcontract, update, hmem, bidVolumn, askVolumn, hupdate⟩ := hupdated _ _ hstate
    have hmarketable : Marketable o state.l2 := marketable_iff.mpr ⟨best, hbest, hcrosses⟩
    have hexact := hfair.added o state best hc hstate hmarketable hbest
    -- the state has the levels of the last update, so the price was quoted by it
    have hquoted : Quoted calls o best :=
      ⟨update, hmem, state.l2, bidVolumn, askVolumn, hupdate, hcontract, hbest⟩
    have hlegit : Legit calls o (fillOf { o with price := best.toString } s.fillIdOf
        s.exchangeOrderIdOf) := legit_of_match
      hbest hcrosses (hpositive update hmem _ _ _ hupdate) hexact hquoted
    refine ⟨.fill rfl ⟨o, ?_, hlegit⟩, (Stored.refl rfl).kept⟩
    rw [Fillable, hc]
  · -- the order waits, and no fill is made
    exact ⟨.order rfl, .asked (.inl hc) rfl (by rw [hnow])⟩

/-- A change fills nothing. -/
theorem fair_change {o : Order} (hc : c.request = .change o) (hnow : s.now = c.now) :
    (change o s).Sat (fun _ s' => Fair calls c s s') (fun _ s' => Fair calls c s s') :=
  change_sat (fun _ _ => ⟨.order rfl, (Stored.refl rfl).kept⟩)
    (fun _ _ _ _ _ _ => ⟨.order rfl, .asked (.inr hc) rfl (by rw [hnow])⟩)
    fun _ _ _ => ⟨.order rfl, (Stored.refl rfl).kept⟩

/-- A deletion fills nothing. -/
theorem fair_delete (o : Order) :
    (delete o s).Sat (fun _ s' => Fair calls c s s') (fun _ s' => Fair calls c s s') :=
  delete_sat (fun _ => ⟨.order rfl, (Stored.refl rfl).kept⟩) fun _ _ _ _ _ =>
    ⟨.order rfl, (@Stored.refl s s rfl |>.erase rfl).kept⟩

/-- A query fills nothing. -/
theorem fair_query (o : Order) :
    (query o s).Sat (fun _ s' => Fair calls c s s') (fun _ s' => Fair calls c s s') :=
  query_sat fun _ => ⟨.order rfl, (Stored.refl rfl).kept⟩

/-- The empty order that `m_working_orders[id]` makes matches nothing. -/
private theorem not_filled_empty {info info' : OrderInfo} (hempty : info.order = { clientOrderId := "" })
    (h : s.hasRematching info = .ok (true, info')) : False := by
  rcases hasRematching_cases h with
    ⟨-, hfalse, -⟩ | ⟨state, -, ⟨-, o', hmatch, -⟩ | ⟨-, -, hreached⟩⟩
  · exact nomatch hfalse
  · obtain ⟨best, hbest, -⟩ := isPriceMatching_true.mp hmatch
    rw [hempty] at hbest
    exact nomatch hbest
  · obtain ⟨best, rest, p, hprices, -⟩ := hreached rfl
    rw [hempty] at hprices
    exact nomatch hprices

/-- The order that is filled works no longer, under the id that it carries. -/
theorem Stored.rematched {s₁ : ReplayOrderMatcher} (hstored : Stored s s₁) (hnamed : Named s)
    {id : String} {info info' : OrderInfo} (hinfo : s₁.workingOrders[id]? = some info)
    (hmatch : s₁.hasRematching info = .ok (true, info')) (kept rest : List String) :
    Stored s (s₁.rematched kept id rest info') := by
  -- the fill carries the id under which the order worked
  have hid : info'.order.clientOrderId = id := by
    obtain ⟨price, horder⟩ := hasRematching_order hmatch
    rw [horder]
    exact (hstored.named hnamed id info hinfo).resolve_right fun hempty =>
      not_filled_empty hempty hmatch
  intro id' info'' hinfo''
  replace hinfo'' : ((s₁.workingOrders.insert id info').erase info'.order.clientOrderId)[id']? =
    some info'' := hinfo''
  rw [hid, Std.TreeMap.getElem?_erase_if] at hinfo''
  split at hinfo''
  · exact nomatch hinfo''
  · next hne =>
    rw [Std.TreeMap.getElem?_insert_if, if_neg hne] at hinfo''
    exact hstored id' info'' hinfo''

/-- A turn of the loop fills the order that was working before the call. -/
theorem fair_rematch {s₁ : ReplayOrderMatcher} {l2 : Dms.L2} {bidVolumn askVolumn : UInt32}
    (hpositive : PositiveCalls calls) (hmem : c ∈ calls)
    (hc : c.request = .stateChanged l2 bidVolumn askVolumn) (hfair : FairStep s c)
    (hstored : Stored s s₁)
    (hstates : s₁.currentStates = s.currentStates.insert l2.contract { l2, bidVolumn, askVolumn })
    {id : String} {info info' : OrderInfo} (hinfo : s₁.workingOrders[id]? = some info)
    (hcontract : info.order.contract = l2.contract)
    (hmatch : s₁.hasRematching info = .ok (true, info')) (fillId exchangeOrderId : String) :
    ∃ o, Fillable c s o ∧ Legit calls o (fillOf info'.order fillId exchangeOrderId) := by
  rcases hstored id info hinfo with ⟨info₀, hinfo₀, hsame⟩ | hempty
  swap
  · exact (not_filled_empty hempty hmatch).elim
  -- the order is one that was stored before the call
  have hfillable : Fillable c s info.order := by
    rw [Fillable, hc]
    exact ⟨id, info₀, hinfo₀, hsame⟩
  have hstate : s₁.currentStates[info.order.contract]? = some { l2, bidVolumn, askVolumn } := by
    rw [hstates, hcontract]
    exact Std.TreeMap.getElem?_insert_self
  have hcontract₀ : info₀.order.contract = l2.contract := hsame ▸ hcontract
  have hl2 := hpositive c hmem l2 bidVolumn askVolumn hc
  refine ⟨info.order, hfillable, ?_⟩
  rcases hasRematching_cases hmatch with
    ⟨hnone, -⟩ | ⟨state, hstate', ⟨-, o', hprice, horder⟩ | ⟨hnot, horder, hreached⟩⟩
  · rw [hstate] at hnone
    exact nomatch hnone
  · rw [hstate] at hstate'
    cases hstate'
    obtain ⟨best, hbest, hcrosses, rfl⟩ := isPriceMatching_true.mp hprice
    have hmarketable : Marketable info.order l2 := marketable_iff.mpr ⟨best, hbest, hcrosses⟩
    -- the best price is written so that it is read back
    have hexact := hfair.matched l2 bidVolumn askVolumn hc id info₀ best hinfo₀ hcontract₀
      (hsame ▸ hmarketable) (hsame ▸ hbest)
    rw [horder]
    exact legit_of_match hbest hcrosses hl2 hexact
      ⟨c, hmem, l2, bidVolumn, askVolumn, hc, hcontract.symm, hbest⟩
  · rw [hstate] at hstate'
    cases hstate'
    rw [horder]
    refine legit_of_position (not_marketable_of_false hnot) (hreached rfl) hl2 fun hside hzero => ?_
    exact hfair.sold l2 bidVolumn askVolumn hc id info₀ hinfo₀ hcontract₀ (hsame ▸ hside)
      (hsame ▸ hzero)

/-- The orders that new market data fill are filled fairly. -/
theorem fair_onStateChanged {l2 : Dms.L2} {bidVolumn askVolumn : UInt32}
    (hpositive : PositiveCalls calls) (hnamed : Named s) (hmem : c ∈ calls)
    (hc : c.request = .stateChanged l2 bidVolumn askVolumn) (hfair : FairStep s c) :
    (onStateChanged l2 bidVolumn askVolumn s).Sat (fun _ s' => Fair calls c s s')
      (fun _ s' => Fair calls c s s') := by
  refine (onStateChanged_sat
    (I := fun _ _ s₁ => s₁.currentStates = s.currentStates.insert l2.contract
      { l2, bidVolumn, askVolumn } ∧ Stored s s₁ ∧
      Sends (fun f => ∃ o, Fillable c s o ∧ Legit calls o f) s s₁)
    (fun kept id rest s₁ hI => ?_) ⟨rfl, .refl rfl, .refl rfl⟩).mono
    (fun _ s' hs' => ?_) fun _ _ h => h
  · obtain ⟨hstates, hstored, hsends⟩ := hI
    refine rematchOne_sat (fun hnone t ht => ⟨hstates, fun id' info' hinfo' => ?_, hsends⟩)
      (fun _ _ _ => ⟨hstates, hstored, hsends⟩) (fun _ _ _ _ _ => ⟨hsends, hstored.kept⟩)
      (fun info info' hinfo hcontract hmatch => ?_) fun info info' hinfo hcontract hmatch => ?_
    · -- an empty order is made
      rw [ht] at hinfo'
      split at hinfo'
      · cases hinfo'
        exact .inr rfl
      · exact hstored id' info' hinfo'
    · -- the place in the queue changes
      refine ⟨hstates, hstored.insert rfl ?_, hsends⟩
      have hsame : info'.order = info.order := by
        rcases hasRematching_cases hmatch with ⟨-, -, rfl⟩ | ⟨state, -, ⟨hfalse, -⟩ | ⟨-, hsame, -⟩⟩
        · rfl
        · exact nomatch hfalse
        · exact hsame
      rw [hsame]
      exact hstored id info hinfo
    · -- the order is filled
      have hfill := fair_rematch hpositive hmem hc hfair hstored hstates hinfo hcontract hmatch
        s₁.fillIdOf info'.order.exchangeOrderId
      exact ⟨hstates, hstored.rematched hnamed hinfo hmatch kept rest,
        hsends.trans (.fill rfl hfill)⟩
  · obtain ⟨kept, -, hstored, hsends⟩ := hs'
    exact ⟨hsends, hstored.kept⟩

/-- Every end of a fair step is fair. -/
theorem FairStep.step (hfair : FairStep s c) (hpositive : PositiveCalls calls)
    (hupdated : Updated calls s) (hnamed : Named s) (hmem : c ∈ calls) :
    Fair calls c s (step c s).state := by
  -- the clock is all that changes before the request
  have hnow : FairStep { s with now := c.now } c := ⟨hfair.added, hfair.matched, hfair.sold⟩
  have hsat : (handle c.request { s with now := c.now }).Sat
      (fun _ s' => Fair calls c { s with now := c.now } s')
      (fun _ s' => Fair calls c { s with now := c.now } s') := by
    cases hc : c.request with
    | add o => exact fair_add (s := { s with now := c.now }) hpositive hupdated hc rfl hnow
    | change o => exact fair_change hc rfl
    | delete o => exact fair_delete o
    | query o => exact fair_query o
    | stateChanged l2 bidVolumn askVolumn =>
      exact fair_onStateChanged (s := { s with now := c.now }) hpositive hnamed hmem hc hnow
  exact ⟨hsat.state.fills, hsat.state.kept⟩

/-- Only an update changes the market data. -/
theorem step_currentStates {s' : ReplayOrderMatcher} (hstep : step c s = .ok () s') :
    s'.currentStates = match c.request with
      | .stateChanged l2 bidVolumn askVolumn =>
        s.currentStates.insert l2.contract { l2, bidVolumn, askVolumn }
      | _ => s.currentStates := by
  -- only new market data change the states
  have hsat : (handle c.request { s with now := c.now }).Sat
      (fun _ s' => s'.currentStates = match c.request with
        | .stateChanged l2 bidVolumn askVolumn =>
          s.currentStates.insert l2.contract { l2, bidVolumn, askVolumn }
        | _ => s.currentStates) (fun _ _ => True) := by
    cases c.request with
    | add o => exact add_sat (fun _ _ => trivial) (fun _ _ => rfl) (fun _ _ _ => rfl) fun _ _ _ => trivial
    | change o => exact change_sat (fun _ _ => rfl) (fun _ _ _ _ _ _ => rfl) fun _ _ _ => trivial
    | delete o => exact delete_sat (fun _ => rfl) fun _ _ _ _ _ => rfl
    | query o => exact query_sat fun _ => rfl
    | stateChanged l2 bidVolumn askVolumn =>
      refine (onStateChanged_sat (s := { s with now := c.now }) (I := fun _ _ s₁ => s₁.currentStates =
        s.currentStates.insert l2.contract { l2, bidVolumn, askVolumn })
        (fun kept id rest s₁ hI => ?_) rfl).mono (fun _ _ ⟨_, h⟩ => h) fun _ _ h => h
      exact rematchOne_sat (fun _ _ _ => hI) (fun _ _ _ => hI) (fun _ _ _ _ _ => trivial)
        (fun _ _ _ _ _ => hI) fun _ _ _ _ _ => hI
  have hresult : handle c.request { s with now := c.now } = .ok () s' := hstep
  rw [hresult] at hsat
  exact hsat

/-- More calls update no less. -/
theorem Updated.mono {calls' : List Call} (h : Updated calls s) (hsub : calls ⊆ calls') :
    Updated calls' s := by
  intro contract state hstate
  obtain ⟨hcontract, update, hmem, hupdate⟩ := h contract state hstate
  exact ⟨hcontract, update, hsub hmem, hupdate⟩

/-- After a call the states are those of the last updates. -/
theorem Updated.step {s' : ReplayOrderMatcher} (h : Updated calls s) (hmem : c ∈ calls)
    (hstep : step c s = .ok () s') : Updated calls s' := by
  intro contract state hstate
  rw [step_currentStates hstep] at hstate
  split at hstate
  · next l2 bidVolumn askVolumn hc =>
    rw [Std.TreeMap.getElem?_insert_if] at hstate
    split at hstate
    · next heq =>
      cases hstate
      exact ⟨heq.symm, c, hmem, bidVolumn, askVolumn, hc⟩
    · exact h contract state hstate
  · exact h contract state hstate

end Steps

/-- In a run whose steps are fair, every call is answered with fills at legitimate prices only,
    and the orders that work are kept as they were asked for. -/
theorem fills_fair {tradeRate : Int32} {calls : List Call} (hpositive : PositiveCalls calls)
    (hfair : ∀ before c, before ++ [c] <+: calls → ∀ s, run tradeRate before = .ok () s →
      FairStep s c) :
    ∀ before c, before ++ [c] <+: calls → ∀ s, run tradeRate before = .ok () s →
      Fair (before ++ [c]) c s (step c s).state := by
  -- one call, from a state in which the data and the names are right
  have hstep : ∀ before c, before ++ [c] <+: calls → ∀ s, run tradeRate before = .ok () s →
      Updated before s ∧ Named s → Fair (before ++ [c]) c s (step c s).state := by
    intro before c hpfx s hs ⟨hupdated, hnamed⟩
    exact (hfair before c hpfx s hs).step
      (fun c' hc' => hpositive c' (hpfx.subset hc'))
      (hupdated.mono (List.subset_append_left before [c])) hnamed
      (List.mem_append_right _ (List.mem_singleton.mpr rfl))
  intro before c hpfx s hs
  refine hstep before c hpfx s hs ?_
  refine run_induction (P := fun before s => Updated before s ∧ Named s) ⟨?_, ?_⟩
    (fun before c s s' hpfx hinv hs hok => ?_)
    ((List.prefix_append before [c]).trans hpfx) hs
  · intro contract state hstate
    replace hstate : (∅ : Std.TreeMap String CurrentState)[contract]? = some state := hstate
    rw [Std.TreeMap.getElem?_emptyc] at hstate
    exact nomatch hstate
  · intro id info hinfo
    replace hinfo : (∅ : Std.TreeMap String OrderInfo)[id]? = some info := hinfo
    rw [Std.TreeMap.getElem?_emptyc] at hinfo
    exact nomatch hinfo
  · have hafter := (hstep before c hpfx s hs hinv).kept
    rw [hok] at hafter
    refine ⟨?_, hafter.named hinv.2⟩
    exact (hinv.1.mono (List.subset_append_left before [c])).step
      (List.mem_append_right _ (List.mem_singleton.mpr rfl)) hok

/-- A call that adds an order -/
private def order (buySell : Ems.BuySell) (orderType : Ems.OrderType) (price : String) : Call :=
  { request := .add { clientOrderId := "C1", contract := "T1", buySell, price, quantity := 1, orderType } }

/-- One lot is offered, and nothing is bid. -/
private def offered (price : Binary64) : Call :=
  { request := .stateChanged { contract := "T1", bid := [], offer := [⟨price, 1⟩] } 0 0 }

/-- The calls of the example offer a positive price. -/
private theorem positive_offered {c : Call} {price : Binary64}
    (hc : ∀ l2 bidVolumn askVolumn, c.request ≠ .stateChanged l2 bidVolumn askVolumn)
    (hprice : (Binary64.fin 0).lt price = true) : PositiveCalls [c, offered price] := by
  intro c' hc' l2 bidVolumn askVolumn hrequest
  rcases List.mem_cons.mp hc' with rfl | hc'
  · exact absurd hrequest (hc l2 bidVolumn askVolumn)
  · cases List.mem_singleton.mp hc'
    cases hrequest
    intro d hd
    cases List.mem_singleton.mp hd
    exact hprice

/-- The example meets the condition in each step. -/
private theorem fairStep_bought :
    ∀ before c, before ++ [c] <+: [order .buy .limit "10", offered (.fin 9)] → ∀ s,
      run 100 before = .ok () s → FairStep s c := by
  intro before c hpfx s hs
  rcases List.concat_prefix_cons hpfx with ⟨rfl, rfl⟩ | ⟨before, rfl, htail⟩
  · -- there is no market data yet
    cases hs
    refine ⟨fun o state best _ hstate => ?_, fun _ _ _ h => (nomatch h), fun _ _ _ h => (nomatch h)⟩
    replace hstate : (∅ : Std.TreeMap String CurrentState)[o.contract]? = some state := hstate
    rw [Std.TreeMap.getElem?_emptyc] at hstate
    exact nomatch hstate
  · rcases List.concat_prefix_cons htail with ⟨rfl, rfl⟩ | ⟨before, rfl, htail⟩
    · -- the only order buys
      have hside : ∀ (id : String) (info : OrderInfo), s.workingOrders[id]? = some info →
          info.order.buySell = .buy := by
        cases hs
        intro id info hinfo
        replace hinfo : ((∅ : Std.TreeMap String OrderInfo).insert "C1" _)[id]? = some info := hinfo
        rw [Std.TreeMap.getElem?_insert_if, Std.TreeMap.getElem?_emptyc] at hinfo
        split at hinfo
        · cases hinfo
          rfl
        · exact nomatch hinfo
      refine ⟨fun _ _ _ h => (nomatch h), fun l2 _ _ hc id info best hinfo _ _ hbest => ?_,
        fun l2 _ _ hc id info hinfo _ hsell => ?_⟩
      · cases hc
        rw [bestOpposite, hside id info hinfo] at hbest
        cases hbest
        show Cxx.stod _ = _
        decide +kernel
      · rw [hside id info hinfo] at hsell
        exact nomatch hsell
    · exact absurd htail (by simp)

/-- An order to buy at 10 is filled at 9. -/
theorem fills_fair_bought :
    ∃ s, run 100 [order .buy .limit "10"] = .ok () s ∧
      Fair [order .buy .limit "10", offered (.fin 9)] (offered (.fin 9)) s
        (step (offered (.fin 9)) s).state := by
  have hpositive : PositiveCalls [order .buy .limit "10", offered (.fin 9)] :=
    positive_offered (fun _ _ _ h => nomatch h) (by decide +kernel)
  exact ⟨(run 100 [order .buy .limit "10"]).state, rfl, fills_fair hpositive fairStep_bought
    [order .buy .limit "10"] (offered (.fin 9)) (List.prefix_refl _) _ rfl⟩

/-- Where nobody bids, a market order to sell is filled at the price 0. -/
theorem sold_for_nothing :
    PositiveCalls [order .sell .market "0", offered (.fin 10)] ∧
      ∃ s, run 100 [order .sell .market "0"] = .ok () s ∧
        ¬ Fair [order .sell .market "0", offered (.fin 10)] (offered (.fin 10)) s
          (step (offered (.fin 10)) s).state := by
  refine ⟨positive_offered (fun _ _ _ h => nomatch h) (by decide +kernel),
    (run 100 [order .sell .market "0"]).state, rfl, fun h => ?_⟩
  -- the fill is at the price of the order, which is zero
  have hsold : ∃ f, ExchangeEvent.onFill f ∈ ((step (offered (.fin 10))
      (run 100 [order .sell .market "0"]).state).state.events.drop 1) ∧ f.fillPrice = "0" :=
    ⟨{ fillId := "Fill-1", fillPrice := "0", fillQuantity := 1, clientOrderId := "C1",
       exchangeOrderId := "Order-1", contract := "T1", buySell := .sell },
      by decide +kernel, rfl⟩
  obtain ⟨f, hf, hprice⟩ := hsold
  obtain ⟨sent, hsent, hlegit⟩ := h.fills
  have hbefore : (run 100 [order .sell .market "0"]).state.events.length = 1 := rfl
  rw [hsent, ← hbefore, List.drop_left] at hf
  obtain ⟨o, -, hlegit⟩ := hlegit f hf
  obtain ⟨v, hv, hzero, -⟩ := hlegit.price
  -- such a price is read as zero
  have hnothing : Cxx.stod "0" = .ok (.fin 0) := by decide +kernel
  rw [hprice, hnothing] at hv
  cases hv
  exact hzero rfl

end ReplayOrderMatcher

end FixHandler.Tmalpha
