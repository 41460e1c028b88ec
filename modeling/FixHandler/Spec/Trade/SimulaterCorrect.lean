import Mathlib
import FixHandler.Native.Trade.Simulater
import FixHandler.Spec.Trade.AlgorithmCorrect
import FixHandler.Spec.Trade.MarketCorrect

/-!
# What a request does

Every request is carried out on one contract as a list of actions of its ledger
(`Ledger.machine`), and each action is followed by its change of the published
book. `Reaches` says that a stretch of the execution did certain actions and
changed the published book for certain actions, and that nothing else of the
simulater moved.

## Key results

- `matchOne_spec`, `matchOrder_spec`: one round, and a whole incoming order
- `step_cases`: a request is either refused without a trace, or served
- `box_cases`: what that means for the box of one contract
- `WF.run`: a run keeps the simulater in order
-/

namespace FixHandler.Trade

open Cxx (Exception Heap Ptr)
open Ems (Order Fill)

/-- The fill an event reports. -/
def Event.fill? : Event → Option Fill
  | .onFill f => some f
  | _ => none

/-- The trade an event publishes. -/
def Event.trade? : Event → Option Dms.Trade
  | .onTrade t => some t
  | _ => none

/-- The message that carries the best prices, if there is one. -/
def bestMessage (bbo : Dms.BBO) : Option Event :=
  match bbo.bid, bbo.offer with
  | some _, some _ => some (.onBBO bbo)
  | some bid, none => some (.onBid { contract := bbo.contract, bid })
  | none, some offer => some (.onOffer { contract := bbo.contract, offer })
  | none, none => none

/-- What is published of a book after a change with the given code. -/
def publishedBy (m : TradeMarketState) (code : Nat) : List Event :=
  (if code = 0 then [] else [.onL2 m.l2]) ++ if code = 2 then (bestMessage m.bbo).toList else []

/-- The message of the best prices is of one of three kinds. -/
theorem mem_bestMessage {bbo : Dms.BBO} {e : Event} (h : e ∈ (bestMessage bbo).toList) :
    e = .onBBO bbo ∨ (∃ bid, e = .onBid { contract := bbo.contract, bid }) ∨
      ∃ offer, e = .onOffer { contract := bbo.contract, offer } := by
  unfold bestMessage at h
  cases hbid : bbo.bid <;> cases hoffer : bbo.offer <;> simp [hbid, hoffer] at h
  · exact .inr (.inr ⟨_, h⟩)
  · exact .inr (.inl ⟨_, h⟩)
  · exact .inl h

/-- Publishing a book reports no fill and no trade. -/
theorem quiet_publishedBy (m : TradeMarketState) (code : Nat) :
    (publishedBy m code).filterMap Event.fill? = [] ∧
      (publishedBy m code).filterMap Event.trade? = [] := by
  -- an L2 or a message of the best prices is neither a fill nor a trade
  have hbest : ∀ e ∈ publishedBy m code, e.fill? = none ∧ e.trade? = none := by
    intro e he
    unfold publishedBy at he
    rcases List.mem_append.mp he with he | he
    · split at he
      · exact absurd he List.not_mem_nil
      · rw [List.mem_singleton] at he
        subst he
        exact ⟨rfl, rfl⟩
    · split at he
      · rcases mem_bestMessage he with rfl | ⟨_, rfl⟩ | ⟨_, rfl⟩ <;> exact ⟨rfl, rfl⟩
      · exact absurd he List.not_mem_nil
  exact ⟨List.filterMap_eq_nil_iff.mpr fun e he => (hbest e he).1,
    List.filterMap_eq_nil_iff.mpr fun e he => (hbest e he).2⟩

/-- The fills an action records and reports. -/
def Act.fills : Act → List Fill
  | .trade o w fillId q p => [fillOf o fillId q p, fillOf w fillId q p]
  | _ => []

/-- The trades an action publishes. -/
def Act.trades : Act → List Dms.Trade
  | .trade o _ _ q p => [{ contract := o.contract, last := ⟨toRealPrice p, q⟩ }]
  | _ => []

/-- The fills of a ledger are those its actions record. -/
theorem Ledger.exec_fills (b : Ledger) (as : List Act) :
    (Ledger.machine.exec b as).fills = b.fills ++ as.flatMap Act.fills := by
  induction as generalizing b with
  | nil => simp
  | cons a as ih =>
    rw [Guarded.exec_cons, ih, List.flatMap_cons, ← List.append_assoc]
    congr 1
    -- only a trade adds fills
    cases a with
    | trade o w f q p => exact b.trade_fills o w f q p
    | _ => simp [Ledger.apply, Act.fills]

namespace TradeSimulater

/-- The order box of a contract. -/
def box (s : TradeSimulater) (c : String) : Option TradeOrderBox :=
  s.orderManager.tradeOrders[c]?

/-- The published book of a contract. -/
def market (s : TradeSimulater) (c : String) : Option TradeMarketState :=
  s.marketManager.marketStates[c]?

/-- The fills reported so far. -/
def sentFills (s : TradeSimulater) : List Fill := s.events.filterMap Event.fill?

/-- The trades published so far. -/
def sentTrades (s : TradeSimulater) : List Dms.Trade := s.events.filterMap Event.trade?

/-- The simulater is in order: the three managers know the same contracts, and
    every order box is in order. -/
structure WF (s : TradeSimulater) : Prop where
  box : ∀ {c b}, s.box c = some b → b.WF ∧ b.contractName = c
  market : ∀ c, (s.market c).isSome = (s.box c).isSome
  contract : ∀ c, (s.contractAssist.contracts[c]?).isSome = (s.box c).isSome
  listening : s.marketManager.marketListener = true

/-- Nothing changed outside of the contract `c` but the fill ids and the events. -/
structure Frame (c : String) (s s' : TradeSimulater) : Prop where
  clock : s'.clock = s.clock
  contractAssist : s'.contractAssist = s.contractAssist
  marketListener : s'.marketManager.marketListener = s.marketManager.marketListener
  exchangeOrderId : s'.exchangeOrderId = s.exchangeOrderId
  box : ∀ c' ≠ c, s'.box c' = s.box c'
  market : ∀ c' ≠ c, s'.market c' = s.market c'

/-- Nothing has changed outside of the contract before the first operation. -/
theorem Frame.refl (c : String) (s : TradeSimulater) : Frame c s s :=
  ⟨rfl, rfl, rfl, rfl, fun _ _ => rfl, fun _ _ => rfl⟩

/-- What two operations leave alone their sequence leaves alone. -/
theorem Frame.trans {c : String} {s s' s'' : TradeSimulater} (h : Frame c s s')
    (h' : Frame c s' s'') : Frame c s s'' where
  clock := h'.clock.trans h.clock
  contractAssist := h'.contractAssist.trans h.contractAssist
  marketListener := h'.marketListener.trans h.marketListener
  exchangeOrderId := h'.exchangeOrderId.trans h.exchangeOrderId
  box c' hc := (h'.box c' hc).trans (h.box c' hc)
  market c' hc := (h'.market c' hc).trans (h.market c' hc)

/-- On the contract `c` the actions `acts` happened, and the published book was
    changed for the actions `shown`. -/
structure Reaches (c : String) (acts shown : List Act) (s s' : TradeSimulater) : Prop where
  frame : Frame c s s'
  box : ∃ b b', s.box c = some b ∧ s'.box c = some b' ∧ b'.Rep ∧
    b'.ledger = Ledger.machine.exec b.ledger acts
  market : ∃ m m', s.market c = some m ∧ s'.market c = some m' ∧ marketRun m shown = .ok m'
  fillId : s'.fillId = s.fillId + .ofNat (acts.flatMap Act.trades).length
  fills : s'.sentFills = s.sentFills ++ acts.flatMap Act.fills
  trades : s'.sentTrades = s.sentTrades ++ acts.flatMap Act.trades

/-- Two parts of a request are one after the other in the ledger, in the book and in what is sent.
    -/
theorem Reaches.trans {c : String} {acts acts' shown shown' : List Act} {s s' s'' : TradeSimulater}
    (h : Reaches c acts shown s s') (h' : Reaches c acts' shown' s' s'') :
    Reaches c (acts ++ acts') (shown ++ shown') s s'' where
  frame := h.frame.trans h'.frame
  box := by
    obtain ⟨b, b', hb, hb', -, hl⟩ := h.box
    obtain ⟨b₁, b'', hb₁, hb'', hrep, hl'⟩ := h'.box
    -- the second part starts with the box that the first part leaves
    rw [hb'] at hb₁
    cases hb₁
    exact ⟨b, b'', hb, hb'', hrep, by rw [hl', hl, Guarded.exec_append]⟩
  market := by
    obtain ⟨m, m', hm, hm', hr⟩ := h.market
    obtain ⟨m₁, m'', hm₁, hm'', hr'⟩ := h'.market
    -- and with its published book
    rw [hm'] at hm₁
    cases hm₁
    exact ⟨m, m'', hm, hm'', by rw [marketRun_append, hr]; exact hr'⟩
  fillId := by
    rw [h'.fillId, h.fillId, List.flatMap_append, List.length_append, UInt32.ofNat_add,
      UInt32.add_assoc]
  fills := by rw [h'.fills, h.fills, List.flatMap_append, List.append_assoc]
  trades := by rw [h'.trades, h.trades, List.flatMap_append, List.append_assoc]

/-! ## Symbolic execution -/

/-- The state after some calls of the listeners. -/
def sent (s : TradeSimulater) (es : List Event) : TradeSimulater :=
  { s with events := s.events ++ es }

/-- The state after an operation on the orders of a contract. -/
def withBox (s : TradeSimulater) (c : String) (b : TradeOrderBox) : TradeSimulater :=
  { s with orderManager := s.orderManager.setBox c b }

/-- The state after a change of a published book. -/
def withMarket (s : TradeSimulater) (c : String) (m : TradeMarketState) : TradeSimulater :=
  { s with marketManager := { s.marketManager with
    marketStates := s.marketManager.marketStates.insert c m } }

/-- Sending changes no orders. -/
@[simp] theorem box_sent (s : TradeSimulater) (es : List Event) (c : String) :
    (s.sent es).box c = s.box c := rfl

/-- Sending changes no published book. -/
@[simp] theorem market_sent (s : TradeSimulater) (es : List Event) (c : String) :
    (s.sent es).market c = s.market c := rfl

/-- An operation on the orders of a contract changes its box alone. -/
theorem box_withBox (s : TradeSimulater) (c : String) (b : TradeOrderBox) (c' : String) :
    (s.withBox c b).box c' = if c' = c then some b else s.box c' :=
  Std.TreeMap.getElem?_insert_if _ _ _ _

/-- An operation on orders changes no published book. -/
@[simp] theorem market_withBox (s : TradeSimulater) (c : String) (b : TradeOrderBox) (c' : String) :
    (s.withBox c b).market c' = s.market c' := rfl

/-- A change of a published book changes no orders. -/
@[simp] theorem box_withMarket (s : TradeSimulater) (c : String) (m : TradeMarketState)
    (c' : String) : (s.withMarket c m).box c' = s.box c' := rfl

/-- A change of a published book is that of its contract alone. -/
theorem market_withMarket (s : TradeSimulater) (c : String) (m : TradeMarketState) (c' : String) :
    (s.withMarket c m).market c' = if c' = c then some m else s.market c' :=
  Std.TreeMap.getElem?_insert_if _ _ _ _

/-- The fills that are sent come behind those before. -/
theorem sentFills_sent (s : TradeSimulater) (es : List Event) :
    (s.sent es).sentFills = s.sentFills ++ es.filterMap Event.fill? :=
  List.filterMap_append

/-- The trades that are sent come behind those before. -/
theorem sentTrades_sent (s : TradeSimulater) (es : List Event) :
    (s.sent es).sentTrades = s.sentTrades ++ es.filterMap Event.trade? :=
  List.filterMap_append

/-- An operation on orders sends no fill. -/
@[simp] theorem sentFills_withBox (s : TradeSimulater) (c : String) (b : TradeOrderBox) :
    (s.withBox c b).sentFills = s.sentFills := rfl

/-- An operation on orders sends no trade. -/
@[simp] theorem sentTrades_withBox (s : TradeSimulater) (c : String) (b : TradeOrderBox) :
    (s.withBox c b).sentTrades = s.sentTrades := rfl

/-- Storing a published book sends no fill. -/
@[simp] theorem sentFills_withMarket (s : TradeSimulater) (c : String) (m : TradeMarketState) :
    (s.withMarket c m).sentFills = s.sentFills := rfl

/-- Storing a published book sends no trade. -/
@[simp] theorem sentTrades_withMarket (s : TradeSimulater) (c : String) (m : TradeMarketState) :
    (s.withMarket c m).sentTrades = s.sentTrades := rfl

/-- One call of a listener. -/
@[simp] theorem emit_eq (e : Event) (s : TradeSimulater) : emit e s = .ok () (s.sent [e]) := rfl

/-- The next fill id is of the raised counter. -/
@[simp] theorem nextFillId_eq (s : TradeSimulater) :
    nextFillId s = .ok (fillIdText (s.fillId + 1)) { s with fillId := s.fillId + 1 } := rfl

private theorem get_eq (s : TradeSimulater) : (get : SimM TradeSimulater) s = .ok s s := rfl

private theorem ofExcept_eq {α : Type} {x : Except Exception α} {a : α} (h : x = .ok a)
    (s : TradeSimulater) : (EStateM.ofExcept x : SimM α) s = .ok a s := by
  rw [h]; rfl

/-- An operation on the orders that succeeds is stored, and its result is handed on. -/
theorem withOrders_eq {α : Type} {op : TradeOrderManager → Except Exception (TradeOrderManager × α)}
    {s : TradeSimulater} {om : TradeOrderManager} {a : α} (h : op s.orderManager = .ok (om, a)) :
    withOrders op s = .ok a { s with orderManager := om } := by
  simp only [withOrders]
  rw [EStateM.bind_eq_of_ok (get_eq s), h]
  rfl

/-- A party of a trade is sent the state of its order and then the fill. -/
theorem reportFilled_eq (o : Order) (f : Fill) (n : OrderSize) (s : TradeSimulater) :
    reportFilled o f n s =
      .ok () (s.sent [.onOrder (makeFilledOrder o f n (s.clock s.events.length)), .onFill f]) := by
  simp [reportFilled, bind, EStateM.bind, get, getThe, MonadStateOf.get, EStateM.get, sent]

/-- A message of the market is sent, as the listener is set. -/
theorem emitMarket_eq {s : TradeSimulater} (h : s.marketManager.marketListener = true) (e : Event) :
    emitMarket e s = .ok () (s.sent [e]) := by
  simp [emitMarket, bind, EStateM.bind, get, getThe, MonadStateOf.get, EStateM.get, h]

/-- The box of a contract that exists is found. -/
theorem orderBox_eq {s : TradeSimulater} {c : String} {b : TradeOrderBox} (h : s.box c = some b) :
    s.orderManager.orderBox c = .ok b := by
  have h : s.orderManager.tradeOrders[c]? = some b := h
  simp [TradeOrderManager.orderBox, h]

/-- Publishing the best prices is one message, or none. -/
theorem sendBbo_eq {s : TradeSimulater} (h : s.marketManager.marketListener = true)
    (m : TradeMarketState) : sendBbo m s = .ok () (s.sent (bestMessage m.bbo).toList) := by
  have hnone : s = s.sent [] := by simp [sent]
  unfold sendBbo bestMessage
  cases m.bbo.bid <;> cases m.bbo.offer
  · -- without best prices nothing is sent
    exact congrArg (EStateM.Result.ok ()) hnone
  · exact emitMarket_eq h _
  · exact emitMarket_eq h _
  · exact emitMarket_eq h _

/-- A change of the published book that succeeds is stored and published. -/
theorem changeMarket_of_ok {s : TradeSimulater} (h : s.marketManager.marketListener = true)
    {c : String} {m m' : TradeMarketState} (hm : s.market c = some m) {n : Nat}
    (change : TradeMarketState → Except Exception (TradeMarketState × Nat))
    (hch : change m = .ok (m', n)) :
    changeMarket c change s = .ok () ((s.withMarket c m').sent (publishedBy m' n)) := by
  have hm : s.marketManager.marketStates[c]? = some m := hm
  have hl : (s.withMarket c m').marketManager.marketListener = true := h
  -- the book is stored before anything of it is published
  have hstart : changeMarket c change s = (do
      if n != 0 then emitMarket (.onL2 m'.l2)
      if n == 2 then sendBbo m') (s.withMarket c m') := by
    simp only [changeMarket, bind, EStateM.bind, get, getThe, MonadStateOf.get, EStateM.get, hm, hch]
    rfl
  have hl2 := emitMarket_eq hl (.onL2 m'.l2)
  rw [hstart]
  unfold publishedBy
  by_cases h2 : n = 2
  · subst h2
    -- the best prices have changed: the L2 is sent first, and then they are
    have hbbo := sendBbo_eq (s := (s.withMarket c m').sent [.onL2 m'.l2]) hl m'
    simp only [bind, EStateM.bind, bne_iff_ne, ne_eq, OfNat.ofNat_ne_zero, not_false_eq_true,
      if_true, if_false, hl2, beq_self_eq_true, hbbo]
    simp [sent]
  · by_cases h0 : n = 0
    · subst h0
      -- the change is too deep to be published
      simp [sent, pure, EStateM.pure]
    · simp [bind, EStateM.bind, h0, h2, hl2, pure, EStateM.pure]

/-- A change of the published book that throws leaves everything as it was. -/
theorem changeMarket_of_error {s : TradeSimulater} {c : String} {m : TradeMarketState}
    (hm : s.market c = some m) {e : Exception}
    {change : TradeMarketState → Except Exception (TradeMarketState × Nat)}
    (hch : change m = .error e) : changeMarket c change s = .error e s := by
  have hm : s.marketManager.marketStates[c]? = some m := hm
  simp only [changeMarket, bind, EStateM.bind, get, getThe, MonadStateOf.get, EStateM.get, hm, hch]
  rfl

/-- The calls of the listeners in a round, the published book apart. -/
def roundEvents (o w : Order) (oppo : MatchedOrder) (fillId : String) (remainder : OrderSize)
    (now now' : Ems.Timestamp) : List Event :=
  let f := fillOf o fillId oppo.matchQuantity oppo.matchPrice
  let wf := fillOf w fillId oppo.matchQuantity oppo.matchPrice
  [.onOrder (makeFilledOrder o f remainder now), .onFill f,
    .onOrder (makeFilledOrder w wf (w.quantity - oppo.matchQuantity) now'), .onFill wf,
    .onTrade { contract := o.contract, last := ⟨toRealPrice oppo.matchPrice, oppo.matchQuantity⟩ }]

/-- A round of the matching loop is a trade, then its change of the published book. -/
private theorem matchOne_eq {s : TradeSimulater} (hs : s.WF) {o w : Order} {oppo : MatchedOrder}
    {b : TradeOrderBox} (hb : s.box o.contract = some b) (h : b.Holds oppo.matchOrder w)
    (remainder : OrderSize) :
    ∃ s' b', matchOne o remainder oppo s =
        changeMarket o.contract (·.onOrderFilled w oppo.matchQuantity) s' ∧
      Reaches o.contract [.trade o w (fillIdText (s.fillId + 1)) oppo.matchQuantity oppo.matchPrice]
        [] s s' ∧
      s'.market o.contract = s.market o.contract ∧ s'.box o.contract = some b' ∧
      (∀ p' w', p' ≠ oppo.matchOrder → b.Holds p' w' → b'.Holds p' w') ∧
      ∃ now now', s'.events = s.events ++
        roundEvents o w oppo (fillIdText (s.fillId + 1)) remainder now now' := by
  obtain ⟨hwf, hname⟩ := hs.box hb
  -- the working order is of the same contract, in whose box it was found
  have hc : w.contract = o.contract := by
    rw [(hwf.ledger.working h.ledger).contract]; exact hname
  have hmw : ∃ m, s.market o.contract = some m := by
    rw [← Option.isSome_iff_exists, hs.market, hb]; rfl
  obtain ⟨b', hfill, hrep, hledger, hkeep⟩ := TradeOrderBox.fill_spec hwf o
    (fillIdText (s.fillId + 1)) oppo.matchQuantity oppo.matchPrice h
  -- the states between the calls of the round
  let fid := fillIdText (s.fillId + 1)
  let f := fillOf o fid oppo.matchQuantity oppo.matchPrice
  let wf := fillOf w fid oppo.matchQuantity oppo.matchPrice
  let b₁ := (b.fillOrder o fid oppo.matchQuantity oppo.matchPrice).1
  let s₀ : TradeSimulater := { s with fillId := s.fillId + 1 }
  let s₁ := s₀.withBox o.contract b₁
  let s₂ := s₁.sent
    [.onOrder (makeFilledOrder o f remainder (s₁.clock s₁.events.length)), .onFill f]
  let s₃ := s₂.withBox o.contract b'
  let s₄ := s₃.sent [.onOrder (makeFilledOrder w wf (w.quantity - wf.fillQuantity)
    (s₃.clock s₃.events.length)), .onFill wf]
  let t : Dms.Trade := { contract := o.contract, last := ⟨toRealPrice oppo.matchPrice, oppo.matchQuantity⟩ }
  -- the calls of the round one by one, each from the state the one before it leaves
  have hfill₁ : withOrders (·.fillOrder o fid oppo.matchQuantity oppo.matchPrice) s₀ = .ok f s₁ := by
    apply withOrders_eq
    have hb₀ : s₀.box o.contract = some b := hb
    simp only [TradeOrderManager.fillOrder, orderBox_eq hb₀, bind, Except.bind]
    rfl
  have hfill₂ : withOrders (·.fillWorkingOrder w.contract oppo.matchOrder fid oppo.matchQuantity
      oppo.matchPrice) s₂ = .ok wf s₃ := by
    apply withOrders_eq
    have hb₂ : s₂.box w.contract = some b₁ := by
      rw [hc, box_sent, box_withBox, if_pos rfl]
    simp only [TradeOrderManager.fillWorkingOrder, orderBox_eq hb₂, bind, Except.bind, b₁, fid, hfill]
    rw [hc]
    rfl
  have hsend : sendTrade o.contract oppo.matchPrice oppo.matchQuantity s₄ =
      .ok () (s₄.sent [.onTrade t]) :=
    emitMarket_eq (s := s₄) hs.listening (.onTrade t)
  refine ⟨s₄.sent [.onTrade t], b', ?_, ⟨?_, ?_, ?_, rfl, ?_, ?_⟩, ?_, ?_, hkeep,
    s₁.clock s₁.events.length, s₃.clock s₃.events.length, ?_⟩
  · -- all of them succeed, so that only the change of the published book is left
    rw [matchOne, EStateM.bind_eq_of_ok (get_eq s),
      EStateM.bind_eq_of_ok (ofExcept_eq (orderBox_eq hb) s),
      EStateM.bind_eq_of_ok (ofExcept_eq (Heap.deref_of_live h.2) s), EStateM.bind_eq_of_ok (nextFillId_eq s),
      EStateM.bind_eq_of_ok hfill₁, EStateM.bind_eq_of_ok (reportFilled_eq o f remainder s₁),
      EStateM.bind_eq_of_ok hfill₂, EStateM.bind_eq_of_ok (reportFilled_eq w wf _ s₃),
      EStateM.bind_eq_of_ok hsend, ← hc]
    rfl
  · -- both fills are of boxes of this contract
    refine ⟨rfl, rfl, rfl, rfl, fun c' hc' => ?_, fun c' _ => rfl⟩
    simp only [s₄, s₃, s₂, s₁, box_sent, box_withBox, if_neg hc']
    rfl
  · exact ⟨b, b', hb, by simp only [s₄, s₃, box_sent, box_withBox, if_true], hrep, hledger⟩
  · obtain ⟨m, hm⟩ := hmw
    exact ⟨m, m, hm, hm, rfl⟩
  · simp only [s₄, s₃, s₂, s₁, sentFills_sent, sentFills_withBox, List.append_assoc]
    rfl
  · simp only [s₄, s₃, s₂, s₁, sentTrades_sent, sentTrades_withBox, List.append_assoc]
    rfl
  · rfl
  · simp only [s₄, s₃, box_sent, box_withBox, if_true]
  · show ((s.events ++ _) ++ _) ++ _ = _
    rw [List.append_assoc, List.append_assoc]
    rfl

/-- If only a contract that was known has changed, and its box is in order, so is the simulater. -/
theorem Frame.wf {c : String} {s s' : TradeSimulater} (h : Frame c s s') (hs : s.WF)
    (hc : (s.box c).isSome) {b' : TradeOrderBox} (hb' : s'.box c = some b')
    (hwf : b'.WF ∧ b'.contractName = c) (hmarket : (s'.market c).isSome) : s'.WF where
  box {c' b₁} hb₁ := by
    -- the box that has changed is in order, and the others are as they were
    by_cases hc' : c' = c
    · subst hc'
      rw [hb'] at hb₁
      cases hb₁
      exact hwf
    · rw [h.box c' hc'] at hb₁
      exact hs.box hb₁
  market c' := by
    by_cases hc' : c' = c
    · subst hc'
      rw [hmarket, hb']
      rfl
    · rw [h.market c' hc', h.box c' hc']
      exact hs.market c'
  contract c' := by
    rw [h.contractAssist, hs.contract c']
    by_cases hc' : c' = c
    · subst hc'
      rw [hc, hb']
      rfl
    · rw [h.box c' hc']
  listening := by rw [h.marketListener]; exact hs.listening

/-- Actions that are a run leave the simulater in order. -/
theorem Reaches.wf {c : String} {acts shown : List Act} {s s' : TradeSimulater}
    (h : Reaches c acts shown s s') (hs : s.WF)
    (hr : ∀ b, s.box c = some b → Ledger.machine.Runs b.ledger acts) : s'.WF := by
  obtain ⟨b, b', hb, hb', hrep, hledger⟩ := h.box
  obtain ⟨m, m', hm, hm', -⟩ := h.market
  -- no action renames a box
  have hname : b'.ledger.contract = b.ledger.contract := by rw [hledger, Ledger.exec_contract]
  refine h.frame.wf hs (by rw [hb]; rfl) hb' ⟨⟨hrep, ?_⟩, hname.trans (hs.box hb).2⟩
    (by rw [hm']; rfl)
  rw [hledger]
  exact (hs.box hb).1.ledger.exec (hr b hb)

/-- Calls that report no fill and publish no trade. -/
def Quiet (es : List Event) : Prop :=
  es.filterMap Event.fill? = [] ∧ es.filterMap Event.trade? = []

/-- A contract with a box has a published book. -/
theorem WF.market_of_box {s : TradeSimulater} (hs : s.WF) {c : String} {b : TradeOrderBox}
    (hb : s.box c = some b) : ∃ m, s.market c = some m := by
  rw [← Option.isSome_iff_exists, hs.market, hb]; rfl

/-- Quiet calls do nothing to the orders. -/
theorem Reaches.sent {s : TradeSimulater} (hs : s.WF) {c : String} {b : TradeOrderBox}
    (hb : s.box c = some b) {es : List Event} (hes : Quiet es) : Reaches c [] [] s (s.sent es) where
  frame := ⟨rfl, rfl, rfl, rfl, fun _ _ => rfl, fun _ _ => rfl⟩
  box := ⟨b, b, hb, hb, (hs.box hb).1.toRep, rfl⟩
  market := by
    obtain ⟨m, hm⟩ := hs.market_of_box hb
    exact ⟨m, m, hm, hm, rfl⟩
  fillId := (UInt32.add_zero _).symm
  fills := by rw [sentFills_sent, hes.1]; rfl
  trades := by rw [sentTrades_sent, hes.2]; rfl

/-- A computation carries out the actions on the contract, each with its change of the
    published book; if it throws, it was one of these changes that did. -/
def Performs {α : Type} (c : String) (acts : List Act) (s : TradeSimulater)
    (r : EStateM.Result Exception TradeSimulater α) : Prop :=
  r.Sat (fun _ s' => Reaches c acts acts s s')
    (fun e s' => ∃ shown a m', shown ++ [a] <+: acts ∧ Reaches c (shown ++ [a]) shown s s' ∧
      s'.market c = some m' ∧ a.market m' = .error e)

/-- Carrying out actions and then others. The first computation may have started after
    `s`, with a part of its actions done. -/
theorem Performs.bind {α β : Type} {c : String} {acts acts' : List Act} {s s₀ : TradeSimulater}
    {x : SimM α} {f : α → SimM β} (h : Performs c acts s (x s₀))
    (hf : ∀ a s', x s₀ = .ok a s' → Reaches c acts acts s s' → Performs c acts' s' (f a s')) :
    Performs c (acts ++ acts') s ((x >>= f) s₀) := by
  apply EStateM.sat_bind
  cases hx : x s₀ with
  | ok a s' =>
    rw [hx] at h
    -- the first part is done, so that what throws is behind it
    refine (hf a s' hx h).mono (fun _ _ h' => h.trans h') ?_
    rintro e s'' ⟨shown, a, m', hp, hr, hm, he⟩
    refine ⟨acts ++ shown, a, m', ?_, ?_, hm, he⟩
    · rw [List.append_assoc]
      exact (List.prefix_append_right_inj acts).mpr hp
    · rw [List.append_assoc]
      exact Reaches.trans h hr
  | error e s' =>
    -- what throws is in the first part, and the second is never begun
    rw [hx] at h
    obtain ⟨shown, a, m', hp, hr, hm, he⟩ := h
    exact ⟨shown, a, m', hp.trans (List.prefix_append _ _), hr, hm, he⟩

/-- A stretch without actions may come before. -/
theorem Performs.after {α : Type} {c : String} {acts : List Act} {s s' : TradeSimulater}
    {r : EStateM.Result Exception TradeSimulater α} (h : Reaches c [] [] s s')
    (hr : Performs c acts s' r) : Performs c acts s r := by
  refine hr.mono (fun _ _ h' => h.trans h') ?_
  rintro e s'' ⟨shown, a, m', hp, h', hm, he⟩
  exact ⟨shown, a, m', hp, h.trans h', hm, he⟩

/-- An operation on the orders, then its change of the published book. -/
theorem performs_changeMarket {s s' : TradeSimulater} (hs : s.WF) {c : String} {a : Act}
    (h : Reaches c [a] [] s s') : Performs c [a] s (changeMarket c (a.market ·) s') := by
  obtain ⟨m, m', hm, hm', hrun⟩ := h.market
  have hl : s'.marketManager.marketListener = true := h.frame.marketListener.trans hs.listening
  cases hch : a.market m' with
  | error e =>
    -- the operation on the orders has happened when the book throws
    rw [changeMarket_of_error hm' hch]
    exact ⟨[], a, m', List.prefix_rfl, h, hm', hch⟩
  | ok r =>
    obtain ⟨m'', n⟩ := r
    obtain ⟨hf, ht⟩ := quiet_publishedBy m'' n
    rw [changeMarket_of_ok hl hm' (a.market ·) hch]
    obtain ⟨b, b', hb, hb', hrep, hledger⟩ := h.box
    -- the book is stored, and publishing it sends neither fills nor trades
    constructor
    case frame =>
      refine ⟨h.frame.clock, h.frame.contractAssist, h.frame.marketListener,
        h.frame.exchangeOrderId, h.frame.box, fun c' hc' => ?_⟩
      rw [market_sent, market_withMarket, if_neg hc']
      exact h.frame.market c' hc'
    case box => exact ⟨b, b', hb, hb', hrep, hledger⟩
    case market =>
      refine ⟨m, m'', hm, by rw [market_sent, market_withMarket, if_pos rfl], ?_⟩
      simp only [marketRun, Except.ok.injEq] at hrun ⊢
      rw [hrun, hch]
    case fillId => exact h.fillId
    case fills => rw [sentFills_sent, hf, List.append_nil]; exact h.fills
    case trades => rw [sentTrades_sent, ht, List.append_nil]; exact h.trades

/-- A change of the published book leaves the orders alone. -/
private theorem box_of_changeMarket {s s' : TradeSimulater}
    (hl : s.marketManager.marketListener = true) {c : String} {m : TradeMarketState}
    (hm : s.market c = some m)
    {change : TradeMarketState → Except Exception (TradeMarketState × Nat)}
    (h : changeMarket c change s = .ok () s') (c' : String) : s'.box c' = s.box c' := by
  cases hch : change m with
  | error e => rw [changeMarket_of_error hm hch] at h; exact nomatch h
  | ok r =>
    rw [changeMarket_of_ok hl hm change hch] at h
    cases h
    rfl

/-! ## Matching -/

/-- What the loop over the matched orders starts from: they are different working orders, and
    their trades are allowed. -/
structure Matchable (o : Order) (ms : List MatchedOrder) (b : TradeOrderBox) (s : TradeSimulater) :
    Prop where
  wf : s.WF
  box : s.box o.contract = some b
  nodup : (ms.map (·.matchOrder)).Nodup
  holds : ∀ m ∈ ms, ∃ w, b.Holds m.matchOrder w
  runs : Ledger.machine.Runs b.ledger
    (trades o s.fillId (ms.map (TradeAlgorithmSimple.roundOf b.heap)))

/-- A round of the loop is a trade, then its change of the published book, and the other matched
    orders are where they were. -/
theorem Matchable.round {o : Order} {m : MatchedOrder} {ms : List MatchedOrder}
    {b : TradeOrderBox} {s : TradeSimulater} (h : Matchable o (m :: ms) b s)
    (remainder : OrderSize) :
    ∃ w s' b', b.Holds m.matchOrder w ∧
      matchOne o remainder m s = changeMarket o.contract (·.onOrderFilled w m.matchQuantity) s' ∧
      Reaches o.contract [.trade o w (fillIdText (s.fillId + 1)) m.matchQuantity m.matchPrice] []
        s s' ∧
      (∃ now now', s'.events = s.events ++
        roundEvents o w m (fillIdText (s.fillId + 1)) remainder now now') ∧
      ∀ s₁, matchOne o remainder m s = .ok () s₁ → Matchable o ms b' s₁ ∧
        s₁.fillId = s.fillId + 1 ∧
        ms.map (TradeAlgorithmSimple.roundOf b'.heap) =
          ms.map (TradeAlgorithmSimple.roundOf b.heap) := by
  have hs := h.wf
  have hb := h.box
  have hnd := h.nodup
  have hr := h.runs
  obtain ⟨w, hw⟩ := h.holds m List.mem_cons_self
  obtain ⟨s', b', hone, hreach, hmarket, hb', hkeep, hevents⟩ := matchOne_eq hs hb hw remainder
  refine ⟨w, s', b', hw, hone, hreach, hevents, fun s₁ hx => ?_⟩
  simp only [List.map_cons, trades, TradeAlgorithmSimple.roundOf_working hw] at hr
  -- what the round has done when it returns
  have h₁ : Reaches o.contract
      [.trade o w (fillIdText (s.fillId + 1)) m.matchQuantity m.matchPrice]
      [.trade o w (fillIdText (s.fillId + 1)) m.matchQuantity m.matchPrice] s s₁ := by
    have hperforms : Performs o.contract
        [.trade o w (fillIdText (s.fillId + 1)) m.matchQuantity m.matchPrice] s
        (matchOne o remainder m s) := by
      rw [hone]
      exact performs_changeMarket hs hreach
    rw [hx] at hperforms
    exact hperforms
  obtain ⟨mk, hmk⟩ := hs.market_of_box hb
  have hb₁ : s₁.box o.contract = some b' := by
    rw [hone] at hx
    rw [box_of_changeMarket (hreach.frame.marketListener.trans hs.listening)
      (hmarket.trans hmk) hx, hb']
  rw [List.map_cons, List.nodup_cons] at hnd
  -- the other matched orders are different ones
  have hne : ∀ m' ∈ ms, m'.matchOrder ≠ m.matchOrder := fun m' hm' heq =>
    hnd.1 (List.mem_map.mpr ⟨m', hm', heq⟩)
  have hh₁ : ∀ m' ∈ ms, ∃ w', b'.Holds m'.matchOrder w' := by
    intro m' hm'
    obtain ⟨w', hw'⟩ := h.holds m' (List.mem_cons_of_mem _ hm')
    exact ⟨w', hkeep _ _ (hne m' hm') hw'⟩
  -- the rounds to come read the same orders
  have hrounds : ms.map (TradeAlgorithmSimple.roundOf b'.heap) =
      ms.map (TradeAlgorithmSimple.roundOf b.heap) := by
    apply List.map_congr_left
    intro m' hm'
    obtain ⟨w', hw'⟩ := h.holds m' (List.mem_cons_of_mem _ hm')
    simp only [TradeAlgorithmSimple.roundOf, hw'.2, (hkeep _ _ (hne m' hm') hw').2]
  have hfid : s₁.fillId = s.fillId + 1 := h₁.fillId
  -- and the state is in order again
  have hs₁ : s₁.WF := h₁.wf hs fun b₀ hb₀ => by
    rw [hb] at hb₀
    cases hb₀
    exact ⟨hr.1, trivial⟩
  have hledger : b'.ledger = Ledger.machine.exec b.ledger
      [.trade o w (fillIdText (s.fillId + 1)) m.matchQuantity m.matchPrice] := by
    obtain ⟨b₀, b₁, hb₀, hb₁', -, hl⟩ := h₁.box
    rw [hb] at hb₀
    rw [hb₁] at hb₁'
    cases hb₀; cases hb₁'
    exact hl
  exact ⟨⟨hs₁, hb₁, hnd.2, hh₁, by rw [hrounds, hfid, hledger]; exact hr.2⟩, hfid, hrounds⟩

/-- The loop over the matched orders carries out their trades. -/
private theorem performs_rounds {o : Order} (remainder : OrderSize) {ms : List MatchedOrder}
    {s : TradeSimulater} {b : TradeOrderBox} (h : Matchable o ms b s) :
    Performs o.contract (trades o s.fillId (ms.map (TradeAlgorithmSimple.roundOf b.heap))) s
      (ms.forM (matchOne o remainder) s) := by
  induction ms generalizing s b with
  | nil =>
    have : Reaches _ [] [] s (s.sent []) := Reaches.sent h.wf h.box ⟨rfl, rfl⟩
    simp only [TradeSimulater.sent, List.append_nil] at this
    exact this
  | cons m ms ih =>
    obtain ⟨w, s', b', hw, hone, hreach, -, hrest⟩ := h.round remainder
    simp only [List.map_cons, trades, TradeAlgorithmSimple.roundOf_working hw]
    -- the first round, and then the loop over the others from where it leaves off
    have hround : Performs o.contract [.trade o w (fillIdText (s.fillId + 1)) m.matchQuantity
        m.matchPrice] s (matchOne o remainder m s) := by
      rw [hone]
      exact performs_changeMarket h.wf hreach
    refine hround.bind fun _ s₁ hx h₁ => ?_
    obtain ⟨hmatchable, hfid, hrounds⟩ := hrest s₁ hx
    -- their rounds are numbered from the next fill id on
    have := ih hmatchable
    rwa [hrounds, hfid] at this

/-- An operation on the orders of a contract that records no fill. -/
private theorem Reaches.withBox {s : TradeSimulater} (hs : s.WF) {c : String}
    {b b' : TradeOrderBox} (hb : s.box c = some b) (hrep : b'.Rep) {a : Act}
    (hledger : b'.ledger = b.ledger.apply a) (hf : a.fills = []) (ht : a.trades = []) :
    Reaches c [a] [] s (s.withBox c b') where
  frame := ⟨rfl, rfl, rfl, rfl, fun c' hc' => by rw [box_withBox, if_neg hc'], fun _ _ => rfl⟩
  box := ⟨b, b', hb, by rw [box_withBox, if_pos rfl], hrep, hledger⟩
  market := by
    obtain ⟨m, hm⟩ := hs.market_of_box hb
    exact ⟨m, m, hm, hm, rfl⟩
  fillId := by simp [ht, TradeSimulater.withBox]
  fills := by simp [hf]
  trades := by simp [ht]

/-- Quiet calls after some actions. -/
theorem Reaches.then_sent {c : String} {acts shown : List Act} {s s' : TradeSimulater}
    (h : Reaches c acts shown s s') {es : List Event} (hes : Quiet es) :
    Reaches c acts shown s (s'.sent es) where
  frame := ⟨h.frame.clock, h.frame.contractAssist, h.frame.marketListener,
    h.frame.exchangeOrderId, h.frame.box, h.frame.market⟩
  box := h.box
  market := h.market
  fillId := h.fillId
  fills := by rw [sentFills_sent, hes.1, List.append_nil]; exact h.fills
  trades := by rw [sentTrades_sent, hes.2, List.append_nil]; exact h.trades

/-- The state of an order is neither a fill nor a trade. -/
theorem quiet_onOrder (o : Order) : Quiet [.onOrder o] := ⟨rfl, rfl⟩

/-- The end of `matchOrder`: what is left of the order rests or is cancelled. -/
private theorem performs_leftover {s : TradeSimulater} (hs : s.WF) {o : Order}
    {b : TradeOrderBox} (hb : s.box o.contract = some b) {remainder : OrderSize}
    {isDelete : Bool} (hr : Ledger.machine.Runs b.ledger (leftover o remainder isDelete)) :
    Performs o.contract (leftover o remainder isDelete) s
      ((do
        if remainder > 0 then
          let order := { o with
            filledQuantity := o.quantity - remainder
            quantity := remainder }
          if isDelete then
            let deletedOrder ← withOrders (·.addDeletedOrder order)
            emit (.onOrder (makeCancelResponse deletedOrder Message.orderCancelled))
          else
            let workingOrder ← withOrders (·.addOrder order)
            emit (.onOrder workingOrder)
            changeMarketOnOrderCreated workingOrder : SimM Unit) s) := by
  have hwf := (hs.box hb).1
  unfold leftover at hr ⊢
  by_cases hrem : remainder = 0
  · -- nothing is left
    subst hrem
    have : Reaches _ [] [] s (s.sent []) := Reaches.sent hs hb ⟨rfl, rfl⟩
    simp only [TradeSimulater.sent, List.append_nil] at this
    exact this
  · have hpos : remainder > 0 := UInt64.pos_iff_ne_zero.mpr hrem
    simp only [hrem, if_false] at hr
    simp only [hrem, if_false, hpos, if_true]
    cases isDelete with
    | true =>
      simp only [if_true] at hr ⊢
      -- FAK and FOK: the remainder is stored as cancelled
      obtain ⟨hrep, hledger, hderef⟩ := TradeOrderBox.addDeletedOrder_spec hwf hr.1
      have hop : (TradeOrderManager.addDeletedOrder s.orderManager (remainderOf o remainder)) =
          .ok (s.orderManager.setBox o.contract (b.addDeletedOrder (remainderOf o remainder)).1,
            { remainderOf o remainder with status := .cancelled }) := by
        have hb' : s.orderManager.orderBox (remainderOf o remainder).contract = .ok b :=
          orderBox_eq hb
        simp only [TradeOrderManager.addDeletedOrder, hb', hderef, bind, Except.bind]
        rfl
      show Performs _ _ s ((withOrders (·.addDeletedOrder (remainderOf o remainder)) >>= fun d =>
        emit (.onOrder (makeCancelResponse d Message.orderCancelled))) s)
      rw [EStateM.bind_eq_of_ok (withOrders_eq hop)]
      have hreach := (Reaches.withBox hs hb hrep hledger rfl rfl).then_sent
        (quiet_onOrder (makeCancelResponse { remainderOf o remainder with status := .cancelled }
          Message.orderCancelled))
      -- a cancelled remainder does not change the published book
      exact { hreach with market := hreach.market }
    | false =>
      simp only [Bool.false_eq_true, if_false] at hr ⊢
      -- the remainder rests, and is published
      obtain ⟨b', p, hadd, hrep, hledger, hderef⟩ := TradeOrderBox.addOrder_spec hwf hr.1
      have hop : (TradeOrderManager.addOrder s.orderManager (remainderOf o remainder)) =
          .ok (s.orderManager.setBox o.contract b',
            { remainderOf o remainder with status := .working }) := by
        have hb' : s.orderManager.orderBox (remainderOf o remainder).contract = .ok b :=
          orderBox_eq hb
        simp only [TradeOrderManager.addOrder, hb', hadd, hderef, bind, Except.bind]
        rfl
      show Performs _ _ s ((withOrders (·.addOrder (remainderOf o remainder)) >>= fun w =>
        emit (.onOrder w) >>= fun _ => changeMarketOnOrderCreated w) s)
      rw [EStateM.bind_eq_of_ok (withOrders_eq hop), EStateM.bind_eq_of_ok (emit_eq _ _)]
      have hreach := (Reaches.withBox hs hb hrep hledger rfl rfl).then_sent
        (quiet_onOrder { remainderOf o remainder with status := .working })
      exact performs_changeMarket hs hreach

/-- The matching that the algorithm finds for an order is carried out. -/
theorem performs_matchOrder {s : TradeSimulater} (hs : s.WF) {o : Order} {b : TradeOrderBox}
    (hb : s.box o.contract = some b) {ms : List MatchedOrder} {remainder : OrderSize}
    {isDelete : Bool}
    (hmatches : TradeAlgorithmSimple.matches b.heap o (b.oppositeWorkingOrders o.buySell) =
      .ok (ms, remainder, isDelete))
    (hnd : (ms.map (·.matchOrder)).Nodup) (hh : ∀ m ∈ ms, ∃ w, b.Holds m.matchOrder w)
    (hruns : Ledger.machine.Runs b.ledger
      (trades o s.fillId (ms.map (TradeAlgorithmSimple.roundOf b.heap)) ++
        leftover o remainder isDelete)) :
    Performs o.contract
      (trades o s.fillId (ms.map (TradeAlgorithmSimple.roundOf b.heap)) ++
        leftover o remainder isDelete) s (matchOrder o s) := by
  rw [Guarded.runs_append] at hruns
  rw [matchOrder, EStateM.bind_eq_of_ok (get_eq s),
    EStateM.bind_eq_of_ok (ofExcept_eq (orderBox_eq hb) s),
    EStateM.bind_eq_of_ok (ofExcept_eq hmatches s)]
  -- the rounds come first, and what is left of the order after them
  refine (performs_rounds remainder ⟨hs, hb, hnd, hh, hruns.1⟩).bind fun _ s' _ h => ?_
  obtain ⟨b₀, b', hb₀, hb', -, hledger⟩ := h.box
  rw [hb] at hb₀
  cases hb₀
  have hs' : s'.WF := h.wf hs fun b₀ hb₀ => by
    rw [hb] at hb₀
    cases hb₀
    exact hruns.1
  exact performs_leftover hs' hb' (by rw [hledger]; exact hruns.2)

/-! ## Requests -/

/-- The request passes the checks: the order is legal for its contract, and its id is
    unknown (`Add`) or working (`Change`, `Delete`). -/
def Accepts (s : TradeSimulater) : Request → Prop
  | .add o => checkOrder s.contractAssist o = .ok "" ∧
      s.orderManager.orderStatus o.contract o.clientOrderId = .ok 4
  | .change o => checkOrder s.contractAssist o = .ok "" ∧
      s.orderManager.orderStatus o.contract o.clientOrderId = .ok 2
  | .delete o => s.contractAssist.isContractExist o.contract = true ∧
      s.orderManager.orderStatus o.contract o.clientOrderId = .ok 2

instance (s : TradeSimulater) (r : Request) : Decidable (s.Accepts r) := by
  cases r <;> unfold Accepts <;> infer_instance

/-- The order that an accepted request goes on with. -/
def pendingOf (s : TradeSimulater) : Request → Order
  | .add o => { o with
      exchangeOrderId := "Order-" ++ (s.exchangeOrderId + 1).toNat.repr
      status := .pending }
  | .change o => { o with status := .pending }
  | .delete o => o

/-- The state in which an accepted request starts: an `Add` has drawn its exchange id. -/
def accepted (s : TradeSimulater) : Request → TradeSimulater
  | .add _ => { s with exchangeOrderId := s.exchangeOrderId + 1 }
  | _ => s

/-- A request goes on with the id of its message. -/
@[simp] theorem pendingOf_clientOrderId (s : TradeSimulater) (r : Request) :
    (s.pendingOf r).clientOrderId = r.order.clientOrderId := by cases r <;> rfl

/-- A request goes on in the contract of its message. -/
@[simp] theorem pendingOf_contract (s : TradeSimulater) (r : Request) :
    (s.pendingOf r).contract = r.order.contract := by cases r <;> rfl

/-- A request goes on with the quantity of its message. -/
@[simp] theorem pendingOf_quantity (s : TradeSimulater) (r : Request) :
    (s.pendingOf r).quantity = r.order.quantity := by cases r <;> rfl

/-- Drawing an exchange id changes no orders. -/
@[simp] theorem box_accepted (s : TradeSimulater) (r : Request) : (s.accepted r).box = s.box := by
  cases r <;> rfl

/-- Drawing an exchange id changes no published book. -/
@[simp] theorem market_accepted (s : TradeSimulater) (r : Request) :
    (s.accepted r).market = s.market := by
  cases r <;> rfl

/-- Drawing an exchange id draws no fill id. -/
@[simp] theorem fillId_accepted (s : TradeSimulater) (r : Request) :
    (s.accepted r).fillId = s.fillId := by
  cases r <;> rfl

/-- Drawing an exchange id calls no listener. -/
@[simp] theorem events_accepted (s : TradeSimulater) (r : Request) :
    (s.accepted r).events = s.events := by
  cases r <;> rfl

/-- Drawing an exchange id changes no contract. -/
@[simp] theorem contractAssist_accepted (s : TradeSimulater) (r : Request) :
    (s.accepted r).contractAssist = s.contractAssist := by
  cases r <;> rfl

/-- An accepted request starts in a state that is in order. -/
theorem WF.accepted {s : TradeSimulater} (hs : s.WF) (r : Request) : (s.accepted r).WF where
  box := by rw [box_accepted]; exact hs.box
  market := by rw [box_accepted, market_accepted]; exact hs.market
  contract := by rw [box_accepted, contractAssist_accepted]; exact hs.contract
  listening := by cases r <;> exact hs.listening

/-- What an accepted request does to the ledger of its contract; `p` is the order it
    goes on with. -/
inductive Plan (b : Ledger) (fillId : UInt32) (p : Order) : Request → List Act → Prop where
  | add {o : Order} {rounds : List Round} {remainder : OrderSize} {isDelete : Bool}
      (hw : b.working p.clientOrderId = none) (hc : b.canceled p.clientOrderId = none)
      (hf : ∀ f ∈ b.fills, f.clientOrderId ≠ p.clientOrderId) (ho : Sound p)
      (hq : p.quantity ≠ 0) (hcontract : p.contract = b.contract)
      (hm : Matching b p rounds remainder isDelete) :
      Plan b fillId p (.add o) (trades p fillId rounds ++ leftover p remainder isDelete)
  | change {o w : Order} {rounds : List Round} {remainder : OrderSize} {isDelete : Bool}
      (hw : b.working p.clientOrderId = some w) (ho : Sound p)
      (hq : p.quantity ≠ 0) (hcontract : p.contract = b.contract)
      (hm : Matching (b.remove w) p rounds remainder isDelete) :
      Plan b fillId p (.change o)
        (.withdraw w :: (trades p fillId rounds ++ leftover p remainder isDelete))
  | delete {o w : Order} (hw : b.working p.clientOrderId = some w) :
      Plan b fillId p (.delete o) [.cancel w]

/-- The actions of a plan are allowed, one after the other. -/
theorem Plan.runs {b : Ledger} {n : UInt32} {p : Order} {r : Request} {acts : List Act}
    (h : Plan b n p r acts) (hb : b.WF) : Ledger.machine.Runs b acts := by
  cases h with
  | add hw hc hf ho hq hcontract hm => exact hm.runs n hb ho hcontract hw hc
  | @change _ w _ _ _ hw ho hq hcontract hm =>
    have hid := (hb.working hw).id
    rw [← hid] at hw
    -- with the old order withdrawn, its id is free for the new one
    refine ⟨hw, hm.runs n (hb.remove hw) ho hcontract ?_ ?_⟩
    · rw [Ledger.remove_working, if_pos hid.symm]
    · rw [← hid]; exact hb.disjoint hw
  | delete hw =>
    rw [← (hb.working hw).id] at hw
    exact ⟨hw, trivial⟩

/-- A trade adds nothing to the book. -/
private theorem added_trades (o : Order) (n : UInt32) (rounds : List Round) :
    ∀ a ∈ trades o n rounds, ∀ cp, Ledger.added cp a = 0 := by
  induction rounds generalizing n with
  | nil => exact fun a ha => absurd ha List.not_mem_nil
  | cons r rounds ih =>
    intro a ha cp
    rcases List.mem_cons.mp ha with rfl | ha
    · rfl
    · exact ih _ a ha cp

/-- What is left of an order is one action at most. -/
private theorem dropLast_leftover (o : Order) (remainder : OrderSize) (isDelete : Bool) :
    (leftover o remainder isDelete).dropLast = [] := by
  unfold leftover
  split
  · rfl
  · split <;> rfl

/-- Before the last action of a matching nothing is added to the book. -/
private theorem added_dropLast {o : Order} {n : UInt32} {rounds : List Round}
    {remainder : OrderSize} {isDelete : Bool} :
    ∀ a ∈ (trades o n rounds ++ leftover o remainder isDelete).dropLast,
      ∀ cp, Ledger.added cp a = 0 := by
  intro a ha
  by_cases hl : leftover o remainder isDelete = []
  · -- nothing is left, so that all actions are trades
    rw [hl, List.append_nil] at ha
    exact added_trades o n rounds a (List.mem_of_mem_dropLast ha)
  · rw [List.dropLast_append_of_ne_nil hl, dropLast_leftover, List.append_nil] at ha
    exact added_trades o n rounds a ha

/-- Only the last action of a plan may add to the book. -/
theorem Plan.added_dropLast {b : Ledger} {n : UInt32} {p : Order} {r : Request} {acts : List Act}
    (h : Plan b n p r acts) : ∀ a ∈ acts.dropLast, ∀ cp, Ledger.added cp a = 0 := by
  cases h with
  | add hw hc hf ho hq hcontract hm => exact TradeSimulater.added_dropLast
  | @change o w rounds remainder isDelete hw ho hq hcontract hm =>
    intro a ha cp
    by_cases hnil : trades p n rounds ++ leftover p remainder isDelete = []
    · rw [hnil] at ha
      exact absurd ha List.not_mem_nil
    · rw [List.dropLast_cons_of_ne_nil hnil] at ha
      -- withdrawing the old order adds nothing
      rcases List.mem_cons.mp ha with rfl | ha
      · rfl
      · exact TradeSimulater.added_dropLast a ha cp
  | delete hw => exact fun a ha => absurd ha List.not_mem_nil

/-- A plan adds no more to a price than the request asks for. -/
theorem Plan.sum_added_le {b : Ledger} {n : UInt32} {p : Order} {r : Request} {acts : List Act}
    (h : Plan b n p r acts) (cp : ComparablePrice) :
    (acts.map (Ledger.added cp)).sum ≤ p.quantity.toNat := by
  -- trades only take off
  have htrades : ∀ n rounds, ((trades p n rounds).map (Ledger.added cp)).sum = 0 := by
    intro n rounds
    rw [List.sum_eq_zero_iff]
    intro x hx
    obtain ⟨a, ha, rfl⟩ := List.mem_map.mp hx
    exact added_trades p n rounds a ha cp
  -- what is left is no more than what was asked for
  have hleft : ∀ {b rounds remainder isDelete}, Matching b p rounds remainder isDelete →
      ((leftover p remainder isDelete).map (Ledger.added cp)).sum ≤ p.quantity.toNat := by
    intro b rounds remainder isDelete hm
    have := hm.total
    unfold leftover
    split
    · simp
    · split
      · simp [Ledger.added]
      · have hadd : Ledger.added cp (.rest (remainderOf p remainder)) ≤ remainder.toNat := by
          simp only [Ledger.added]
          split
          · exact Nat.le_refl _
          · exact Nat.zero_le _
        simp only [List.map_cons, List.map_nil, List.sum_cons, List.sum_nil]
        omega
  cases h with
  | add hw hc hf ho hq hcontract hm =>
    rw [List.map_append, List.sum_append, htrades, Nat.zero_add]
    exact hleft hm
  | change hw ho hq hcontract hm =>
    rw [List.map_cons, List.sum_cons, List.map_append, List.sum_append, htrades, Nat.zero_add]
    simpa [Ledger.added] using hleft hm
  | delete hw => simp [Ledger.added]

/-- A loaded contract has an order box. -/
theorem WF.box_of_contract {s : TradeSimulater} (hs : s.WF) {c : String}
    (h : s.contractAssist.contracts[c]?.isSome) : ∃ b, s.box c = some b := by
  rw [← Option.isSome_iff_exists, ← hs.contract]
  exact h

/-- The status of an order is looked up in the box of its contract. -/
theorem orderStatus_of_box {s : TradeSimulater} {c : String} {b : TradeOrderBox}
    (hb : s.box c = some b) (id : String) :
    s.orderManager.orderStatus c id = .ok (b.orderStatus id) := by
  simp only [TradeOrderManager.orderStatus, orderBox_eq hb, bind, Except.bind]
  rfl

/-- A working status is a working order of the ledger. -/
theorem working_of_orderStatus {b : TradeOrderBox} (hb : b.Rep) {id : String}
    (h : b.orderStatus id = 2) : ∃ w, b.ledger.working id = some w := by
  rw [TradeOrderBox.orderStatus_eq hb] at h
  -- the four cases of the status: cancelled, working, filled and unknown
  split at h
  · exact nomatch h
  · split at h
    · next hw => exact Option.isSome_iff_exists.mp hw
    · split at h <;> exact nomatch h

/-- Nothing is known of an id with an unknown status. -/
theorem unknown_of_orderStatus {b : TradeOrderBox} (hb : b.Rep) {id : String}
    (h : b.orderStatus id = 4) : b.ledger.working id = none ∧ b.ledger.canceled id = none ∧
      ∀ f ∈ b.ledger.fills, f.clientOrderId ≠ id := by
  rw [TradeOrderBox.orderStatus_eq hb] at h
  -- the status is unknown only if none of the three tables has the id
  split at h
  · exact nomatch h
  · next hc =>
    split at h
    · exact nomatch h
    · next hw =>
      split at h
      · exact nomatch h
      · next hf =>
        refine ⟨by simpa using hw, by simpa using hc, fun f hmem heq => ?_⟩
        simp only [TradeOrderBox.fillsOf, ne_eq, List.filter_eq_nil_iff, not_not, beq_iff_eq] at hf
        exact hf f hmem heq

/-- Deleting a working order, reporting it, and taking it off the published book. -/
private theorem performs_deleted {s : TradeSimulater} (hs : s.WF) {o w : Order}
    {b : TradeOrderBox} (hb : s.box o.contract = some b)
    (hw : b.ledger.working o.clientOrderId = some w) (isAddToCancelled : Bool) :
    ∃ s', (∃ b', b.deleteOrder o isAddToCancelled = .ok (b', { w with status := .cancelled }) ∧
        s' = s.withBox o.contract b') ∧
      withOrders (·.deleteOrder o isAddToCancelled) s = .ok { w with status := .cancelled } s' ∧
      Reaches o.contract [if isAddToCancelled then .cancel w else .withdraw w] [] s s' := by
  -- the order is found under its id, and taken out of the box
  obtain ⟨hwf, -⟩ := hs.box hb
  obtain ⟨hid, p, hp⟩ := hwf.toRep.holds hw
  obtain ⟨b', hdel, hrep, hledger⟩ :=
    TradeOrderBox.deleteOrder_spec hwf hp hid.symm isAddToCancelled
  refine ⟨s.withBox o.contract b', ⟨b', hdel, rfl⟩, withOrders_eq ?_,
    Reaches.withBox hs hb hrep hledger ?_ ?_⟩
  · simp only [TradeOrderManager.deleteOrder, orderBox_eq hb, hdel, bind, Except.bind]
    rfl
  · cases isAddToCancelled <;> rfl
  · cases isAddToCancelled <;> rfl

/-- How a request ends: refused, with at most a rejection, or carried out by a plan. -/
inductive Outcome (s : TradeSimulater) (r : Request) : Prop where
  /-- the request is answered and nothing else happens -/
  | rejected (hno : ¬ s.Accepts r) (reason : String)
      (h : handle r s = .ok () (s.sent [.onOrder (makeRejectResponse r.order reason)]))
  /-- the check of the order throws -/
  | thrown (hno : ¬ s.Accepts r) (e : Exception) (hcheck : checkOrder s.contractAssist r.order = .error e)
      (h : handle r s = .error e s)
  /-- the request is carried out on the ledger of its contract -/
  | served (hyes : s.Accepts r) (b : TradeOrderBox) (acts : List Act)
      (hb : s.box r.order.contract = some b)
      (hplan : Plan b.ledger s.fillId (s.pendingOf r) r acts)
      (h : Performs r.order.contract acts (s.accepted r) (handle r s))

/-- The checks that `add` and `change` make before they go on with `k`. -/
private def checked (o : Order) (expected : Nat) (reason : String) (k : SimM Unit) : SimM Unit := do
  let err ← EStateM.ofExcept (checkOrder (← get).contractAssist o)
  if err != "" then
    return ← emit (.onOrder (makeRejectResponse o err))
  let status ← EStateM.ofExcept ((← get).orderManager.orderStatus o.contract o.clientOrderId)
  if status != expected then
    return ← emit (.onOrder (makeRejectResponse o reason))
  k

/-- The checks throw, or reject, or let the request go on. -/
private theorem checked_cases {s : TradeSimulater} (hs : s.WF) (o : Order) (expected : Nat)
    (reason : String) (k : SimM Unit) :
    (∃ e, checkOrder s.contractAssist o = .error e ∧ checked o expected reason k s = .error e s) ∨
    (¬ (checkOrder s.contractAssist o = .ok "" ∧
        s.orderManager.orderStatus o.contract o.clientOrderId = .ok expected) ∧
      ∃ text, checked o expected reason k s =
        .ok () (s.sent [.onOrder (makeRejectResponse o text)])) ∨
    (checkOrder s.contractAssist o = .ok "" ∧ ∃ b, s.box o.contract = some b ∧
      b.orderStatus o.clientOrderId = expected ∧ checked o expected reason k s = k s) := by
  unfold checked
  rw [EStateM.bind_eq_of_ok (get_eq s)]
  cases hcheck : checkOrder s.contractAssist o with
  -- the check of the order reads the price, and throws if it is no number
  | error e => exact .inl ⟨e, rfl, rfl⟩
  | ok err =>
    rw [EStateM.bind_eq_of_ok (ofExcept_eq rfl s)]
    by_cases herr : err = ""
    · subst herr
      -- the order is legal, so that its contract is known and has a box
      obtain ⟨-, -, tc, htc⟩ := sound_of_checkOrder hcheck
      obtain ⟨b, hb⟩ := hs.box_of_contract (c := o.contract) (by rw [htc]; rfl)
      have hstatus := orderStatus_of_box hb o.clientOrderId
      simp only [bne_self_eq_false, Bool.false_eq_true, if_false]
      rw [EStateM.bind_eq_of_ok (get_eq s), EStateM.bind_eq_of_ok (ofExcept_eq hstatus s)]
      by_cases h : b.orderStatus o.clientOrderId = expected
      · refine .inr (.inr ⟨trivial, b, hb, h, ?_⟩)
        simp [h]
      · refine .inr (.inl ⟨?_, reason, ?_⟩)
        · rintro ⟨-, hst⟩
          rw [hstatus] at hst
          exact h (Except.ok.inj hst)
        · simp only [bne_iff_ne, ne_eq, h, not_false_eq_true, if_true]
          rfl
    · -- the order is refused for what the check says
      refine .inr (.inl ⟨fun h => herr (Except.ok.inj h.1), err, ?_⟩)
      simp only [bne_iff_ne, ne_eq, herr, not_false_eq_true, if_true]
      rfl

/-- An accepted `Add` is reported as pending and then matched. -/
theorem handle_add_of_accepts {s : TradeSimulater} (hs : s.WF) {o : Order}
    (h : s.Accepts (.add o)) :
    handle (.add o) s = matchOrder (s.pendingOf (.add o))
      ((s.accepted (.add o)).sent [.onOrder (s.pendingOf (.add o))]) := by
  let k : SimM Unit := do
    let pending := { o with exchangeOrderId := ← nextExchangeOrderId, status := .pending }
    emit (.onOrder pending)
    matchOrder pending
  -- `add` is its checks and then `k`
  have hk : handle (.add o) s = checked o 4 Message.clientOrderIdExist k s := rfl
  rcases checked_cases hs o 4 Message.clientOrderIdExist k with
    ⟨e, hcheck, -⟩ | ⟨hno, -⟩ | ⟨-, -, -, -, hgo⟩
  · exact nomatch hcheck.symm.trans h.1
  · exact absurd h hno
  · exact hk.trans hgo

/-- The state in which an accepted `Change` goes on: it is reported as pending, and the old order is
    withdrawn and reported as cancelled. -/
def withdrawn (s : TradeSimulater) (o w : Order) (b' : TradeOrderBox) : TradeSimulater :=
  ((s.sent [.onOrder (s.pendingOf (.change o))]).withBox o.contract b').sent
    [.onOrder (makeCancelResponse { w with status := .cancelled } Message.orderCancelled)]

/-- An accepted `Change` withdraws the old order and matches the new one. -/
theorem handle_change_of_accepts {s : TradeSimulater} (hs : s.WF) {o : Order}
    (h : s.Accepts (.change o)) :
    ∃ b w b', s.box o.contract = some b ∧ b.ledger.working o.clientOrderId = some w ∧
      w.contract = o.contract ∧
      b.deleteOrder o false = .ok (b', { w with status := .cancelled }) ∧
      Reaches o.contract [.withdraw w] [] s (s.withdrawn o w b') ∧
      handle (.change o) s = (changeMarketOnOrderDeleted { w with status := .cancelled } >>= fun _ =>
        matchOrder (s.pendingOf (.change o))) (s.withdrawn o w b') := by
  let k : SimM Unit := do
    emit (.onOrder (s.pendingOf (.change o)))
    let deletedOrder ← withOrders (·.deleteOrder o false)
    emit (.onOrder (makeCancelResponse deletedOrder Message.orderCancelled))
    changeMarketOnOrderDeleted deletedOrder
    matchOrder (s.pendingOf (.change o))
  -- `change` is its checks and then `k`
  have hk : handle (.change o) s = checked o 2 Message.workingOrderNotFound k s := rfl
  rcases checked_cases hs o 2 Message.workingOrderNotFound k with
    ⟨e, hcheck, -⟩ | ⟨hno, -⟩ | ⟨-, b, hb, h2, hgo⟩
  · exact nomatch hcheck.symm.trans h.1
  · exact absurd h hno
  · obtain ⟨hwf, hname⟩ := hs.box hb
    obtain ⟨w, hw⟩ := working_of_orderStatus hwf.toRep h2
    -- the report that it is pending changes no orders
    have hquiet := Reaches.sent hs hb (quiet_onOrder (s.pendingOf (.change o)))
    obtain ⟨s₂, ⟨b', hdel, rfl⟩, hwith, hreach⟩ := performs_deleted
      (hquiet.wf hs fun _ _ => trivial) (by rw [box_sent]; exact hb) hw false
    refine ⟨b, w, b', hb, hw, (hwf.ledger.working hw).contract.trans hname, hdel,
      (hquiet.trans hreach).then_sent (quiet_onOrder _), hk.trans (hgo.trans ?_)⟩
    show (emit _ >>= fun _ => withOrders (·.deleteOrder o false) >>= fun d =>
      emit (.onOrder (makeCancelResponse d Message.orderCancelled)) >>= fun _ =>
      changeMarketOnOrderDeleted d >>= fun _ => matchOrder (s.pendingOf (.change o))) s = _
    rw [EStateM.bind_eq_of_ok (emit_eq _ _), EStateM.bind_eq_of_ok hwith,
      EStateM.bind_eq_of_ok (emit_eq _ _)]
    rfl

/-- A request with a check of the order is refused if it is not accepted. -/
private theorem refused_outcome {s : TradeSimulater} (hs : s.WF) {r : Request} {expected : Nat}
    {reason : String} {k : SimM Unit} (hno : ¬ s.Accepts r)
    (hr : s.Accepts r ↔ checkOrder s.contractAssist r.order = .ok "" ∧
      s.orderManager.orderStatus r.order.contract r.order.clientOrderId = .ok expected)
    (hk : handle r s = checked r.order expected reason k s) : Outcome s r := by
  rcases checked_cases hs r.order expected reason k with
    ⟨e, hcheck, h⟩ | ⟨-, text, h⟩ | ⟨hcheck, b, hb, hstatus, -⟩
  · exact .thrown hno e hcheck (hk.trans h)
  · exact .rejected hno text (hk.trans h)
  · exact absurd (hr.mpr ⟨hcheck, by rw [orderStatus_of_box hb, hstatus]⟩) hno

/-- An `Add` is refused, or its matching is carried out. -/
private theorem add_outcome {s : TradeSimulater} (hs : s.WF) (o : Order) : Outcome s (.add o) := by
  by_cases hyes : s.Accepts (.add o)
  · obtain ⟨ho, hq, tc, htc⟩ := sound_of_checkOrder hyes.1
    obtain ⟨b, hb⟩ := hs.box_of_contract (c := o.contract) (by rw [htc]; rfl)
    have h4 : b.orderStatus o.clientOrderId = 4 :=
      Except.ok.inj ((orderStatus_of_box hb o.clientOrderId).symm.trans hyes.2)
    obtain ⟨hw, hc, hf⟩ := unknown_of_orderStatus (hs.box hb).1.toRep h4
    have ho' : Sound (s.pendingOf (.add o)) := ho.congr rfl rfl rfl
    have hs₁ := hs.accepted (.add o)
    have hquiet := Reaches.sent (c := o.contract) hs₁ (by rw [box_accepted]; exact hb)
      (quiet_onOrder (s.pendingOf (.add o)))
    have hs' := hquiet.wf hs₁ fun _ _ => trivial
    have hb' : ((s.accepted (.add o)).sent [.onOrder (s.pendingOf (.add o))]).box
        (s.pendingOf (.add o)).contract = some b := hb
    -- what the algorithm finds is the matching of the ledger
    obtain ⟨ms, remainder, isDelete, hmatches, hnd, hh, hm⟩ :=
      TradeAlgorithmSimple.matches_spec (hs.box hb).1 ho' hq
    have hplan : Plan b.ledger s.fillId (s.pendingOf (.add o)) (.add o) _ :=
      .add hw hc hf ho' hq (hs.box hb).2.symm hm
    refine .served hyes b _ hb hplan ?_
    rw [handle_add_of_accepts hs hyes]
    exact (performs_matchOrder hs' hb' hmatches hnd hh
      (hplan.runs (hs.box hb).1.ledger)).after hquiet
  · exact refused_outcome hs hyes Iff.rfl rfl

/-- A `Change` is refused, or the old order is withdrawn and the new one matched. -/
private theorem change_outcome {s : TradeSimulater} (hs : s.WF) (o : Order) :
    Outcome s (.change o) := by
  by_cases hyes : s.Accepts (.change o)
  · obtain ⟨ho, hq, -⟩ := sound_of_checkOrder hyes.1
    obtain ⟨b, w, b', hb, hw, hwc, -, hreach, heq⟩ := handle_change_of_accepts hs hyes
    obtain ⟨hwf, hname⟩ := hs.box hb
    have hwid := (hwf.ledger.working hw).id
    have ho' : Sound (s.pendingOf (.change o)) := ho.congr rfl rfl rfl
    -- the old order is taken off the published book
    have hmarket : Performs o.contract [.withdraw w] s
        (changeMarketOnOrderDeleted { w with status := .cancelled } (s.withdrawn o w b')) := by
      have hperforms := performs_changeMarket hs hreach
      rw [← hwc] at hperforms ⊢
      exact hperforms
    -- withdrawing it is allowed, so that the state is in order in between
    have hwithdraw : Ledger.machine.Runs b.ledger [.withdraw w] :=
      ⟨by show b.ledger.working w.clientOrderId = some w
          rw [hwid]; exact hw, trivial⟩
    have hs₂ : (s.withdrawn o w b').WF := hreach.wf hs fun b₀ hb₀ => by
      rw [hb] at hb₀
      cases hb₀
      exact hwithdraw
    -- what the new order will be matched with, whether or not it comes to that
    obtain ⟨b₀, b₂, hb₀, hb₂, -, hledger⟩ := hreach.box
    rw [hb] at hb₀
    cases hb₀
    obtain ⟨ms, remainder, isDelete, hmatches, hnd, hh, hm⟩ :=
      TradeAlgorithmSimple.matches_spec (hs₂.box hb₂).1 ho' hq
    have hplan : Plan b.ledger s.fillId (s.pendingOf (.change o)) (.change o) _ :=
      .change hw ho' hq hname.symm (hledger ▸ hm)
    refine .served hyes b _ hb hplan ?_
    rw [heq]
    show Performs o.contract _ s _
    refine (show Performs o.contract ([.withdraw w] ++ _) s _ from
      Performs.bind hmarket fun _ s₃ hx h₃ => ?_)
    -- the change of the published book leaves the box as it was withdrawn from
    have hb₃ : s₃.box (s.pendingOf (.change o)).contract = some b₂ := by
      obtain ⟨mk, hmk⟩ := hs₂.market_of_box hb₂
      exact (box_of_changeMarket hs₂.listening (by rw [hwc]; exact hmk) hx _).trans hb₂
    have hs₃ : s₃.WF := h₃.wf hs fun b₀ hb₀ => by
      rw [hb] at hb₀
      cases hb₀
      exact hwithdraw
    have hfid : s₃.fillId = s.fillId := h₃.fillId.trans (UInt32.add_zero _)
    have := performs_matchOrder hs₃ hb₃ hmatches hnd hh (by
      rw [hfid, hledger]
      exact (hplan.runs hwf.ledger).2)
    rwa [hfid] at this
  · exact refused_outcome hs hyes Iff.rfl rfl

/-- The start of a `Delete`: the contract has a box, of which the status is asked. -/
private theorem delete_eq {s : TradeSimulater} {o : Order} {b : TradeOrderBox}
    (hexist : s.contractAssist.isContractExist o.contract = true) (hb : s.box o.contract = some b) :
    handle (.delete o) s = (do
      if b.orderStatus o.clientOrderId != 2 then
        return ← emit (.onOrder (makeRejectResponse o
          (deleteRejectReason (b.orderStatus o.clientOrderId))))
      let deletedOrder ← withOrders (·.deleteOrder o true)
      emit (.onOrder (makeCancelResponse deletedOrder Message.orderCancelled))
      changeMarketOnOrderDeleted deletedOrder : SimM Unit) s := by
  have hstatus := orderStatus_of_box hb o.clientOrderId
  simp only [handle, delete]
  rw [EStateM.bind_eq_of_ok (get_eq s), hexist]
  simp only [Bool.not_true, Bool.false_eq_true, if_false]
  rw [EStateM.bind_eq_of_ok (get_eq s), EStateM.bind_eq_of_ok (ofExcept_eq hstatus s)]

/-- An accepted `Delete` takes the order out of the working orders and reports it as cancelled. -/
theorem handle_delete_of_accepts {s : TradeSimulater} (hs : s.WF) {o : Order}
    (h : s.Accepts (.delete o)) :
    ∃ b w b', s.box o.contract = some b ∧ b.ledger.working o.clientOrderId = some w ∧
      w.contract = o.contract ∧
      Reaches o.contract [.cancel w] [] s (s.withBox o.contract b') ∧
      handle (.delete o) s = changeMarketOnOrderDeleted { w with status := .cancelled }
        ((s.withBox o.contract b').sent
          [.onOrder (makeCancelResponse { w with status := .cancelled } Message.orderCancelled)]) := by
  obtain ⟨hexist, h2⟩ := h
  -- the two checks say that there is a box, and that the order works in it
  obtain ⟨b, hb⟩ := hs.box_of_contract (c := o.contract) (by
    rw [← Std.TreeMap.contains_eq_isSome_getElem?]; exact hexist)
  obtain ⟨hwf, hname⟩ := hs.box hb
  rw [orderStatus_of_box hb, Except.ok.injEq] at h2
  obtain ⟨w, hw⟩ := working_of_orderStatus hwf.toRep h2
  obtain ⟨s₁, ⟨b', -, rfl⟩, hwith, hreach⟩ := performs_deleted hs hb hw true
  refine ⟨b, w, b', hb, hw, (hwf.ledger.working hw).contract.trans hname, hreach, ?_⟩
  rw [delete_eq hexist hb, h2]
  simp only [bne_self_eq_false, Bool.false_eq_true, if_false]
  rw [EStateM.bind_eq_of_ok hwith, EStateM.bind_eq_of_ok (emit_eq _ _)]

/-- A `Delete` is refused, or the order is cancelled. -/
private theorem delete_outcome {s : TradeSimulater} (hs : s.WF) (o : Order) :
    Outcome s (.delete o) := by
  by_cases hyes : s.Accepts (.delete o)
  · obtain ⟨b, w, b', hb, hw, hwc, hreach, heq⟩ := handle_delete_of_accepts hs hyes
    refine .served hyes b _ hb (.delete hw) ?_
    have hperforms := performs_changeMarket hs (hreach.then_sent (quiet_onOrder
      (makeCancelResponse { w with status := .cancelled } Message.orderCancelled)))
    rw [heq]
    show Performs o.contract [.cancel w] s _
    rw [← hwc] at hperforms ⊢
    exact hperforms
  · by_cases hexist : s.contractAssist.isContractExist o.contract = true
    · -- the contract is known, and the order does not work
      obtain ⟨b, hb⟩ := hs.box_of_contract (c := o.contract) (by
        rw [← Std.TreeMap.contains_eq_isSome_getElem?]; exact hexist)
      have h2 : b.orderStatus o.clientOrderId ≠ 2 := fun h2 =>
        hyes ⟨hexist, by rw [orderStatus_of_box hb, h2]⟩
      refine .rejected hyes (deleteRejectReason (b.orderStatus o.clientOrderId)) ?_
      rw [delete_eq hexist hb]
      simp only [bne_iff_ne, ne_eq, h2, not_false_eq_true, if_true]
      rfl
    · -- the contract is not known
      refine .rejected hyes Message.contractNotFound ?_
      simp only [handle, delete]
      rw [EStateM.bind_eq_of_ok (get_eq s), Bool.not_eq_true _ |>.mp hexist]
      rfl

/-- A request of a simulater that is in order is refused without a trace, or served. -/
theorem outcome {s : TradeSimulater} (hs : s.WF) (r : Request) : Outcome s r := by
  cases r with
  | add o => exact add_outcome hs o
  | change o => exact change_outcome hs o
  | delete o => exact delete_outcome hs o

/-! ## Steps and runs -/

/-- What a request leaves behind. -/
inductive Stepped (s : TradeSimulater) (r : Request) (s' : TradeSimulater) : Prop where
  /-- a refused request changes nothing but the calls made -/
  | refused (hno : ¬ s.Accepts r) (es : List Event) (hes : Quiet es) (h : s' = s.sent es)
  /-- an accepted request does what its plan says, or the part `done` of it that ends
      where a change of the published book throws -/
  | served (hyes : s.Accepts r) (b : TradeOrderBox) (acts done shown : List Act)
      (hb : s.box r.order.contract = some b)
      (hplan : Plan b.ledger s.fillId (s.pendingOf r) r acts)
      (hdone : done <+: acts)
      (hreach : Reaches r.order.contract done shown (s.accepted r) s')
      (hend : done = acts ∧ shown = acts ∨ ∃ a m' e, done = shown ++ [a] ∧
        s'.market r.order.contract = some m' ∧ a.market m' = .error e ∧
        handle r s = .error e s')

/-- Every request of a simulater that is in order does one of the two. -/
theorem step_cases {s : TradeSimulater} (hs : s.WF) (r : Request) : Stepped s r (s.step r) := by
  cases outcome hs r with
  | rejected hno reason h => exact .refused hno _ (quiet_onOrder _) (by rw [step, h]; rfl)
  | thrown hno e hcheck h =>
    refine .refused hno [] ⟨rfl, rfl⟩ ?_
    rw [step, h]
    simp [EStateM.Result.state, sent]
  | served hyes b acts hb hplan h =>
    rw [step]
    cases hres : handle r s with
    | ok u s' =>
      rw [hres] at h
      exact .served hyes b acts acts acts hb hplan List.prefix_rfl h (.inl ⟨rfl, rfl⟩)
    | error e s' =>
      -- the part of the plan that was carried out ends with the action whose change of the book
      -- throws
      rw [hres] at h
      obtain ⟨shown, a, m', hp, hr, hm, he⟩ := h
      exact .served hyes b acts _ shown hb hplan hp hr (.inr ⟨a, m', e, rfl, hm, he, hres⟩)

/-- Calls of the listeners leave the simulater in order. -/
theorem WF.sent {s : TradeSimulater} (hs : s.WF) (es : List Event) : (s.sent es).WF :=
  ⟨hs.box, hs.market, hs.contract, hs.listening⟩

/-- Whatever a request does, the simulater stays in order. -/
theorem WF.step {s : TradeSimulater} (hs : s.WF) (r : Request) : (s.step r).WF := by
  cases step_cases hs r with
  | refused hno es hes h => rw [h]; exact hs.sent es
  | served hyes b acts done shown hb hplan hdone hreach hend =>
    -- also what is carried out of a plan is a run
    refine hreach.wf (hs.accepted r) fun b₀ hb₀ => ?_
    rw [box_accepted, hb] at hb₀
    cases hb₀
    exact (hplan.runs (hs.box hb).1.ledger).of_isPrefix hdone

/-- The contracts are those that were loaded. -/
theorem contracts_step {s : TradeSimulater} (hs : s.WF) (r : Request) :
    (s.step r).contractAssist = s.contractAssist := by
  cases step_cases hs r with
  | refused hno es hes h => rw [h]; rfl
  | served hyes b acts done shown hb hplan hdone hreach hend =>
    rw [hreach.frame.contractAssist, contractAssist_accepted]

/-- The simulater stays in order in every run. -/
theorem WF.run {s : TradeSimulater} (hs : s.WF) (rs : List Request) : (s.run rs).WF := by
  induction rs generalizing s with
  | nil => exact hs
  | cons r rs ih => exact ih (hs.step r)

/-- Without a request nothing happens. -/
@[simp] theorem run_nil (s : TradeSimulater) : s.run [] = s := rfl

/-- The first request is carried out before the others. -/
@[simp] theorem run_cons (s : TradeSimulater) (r : Request) (rs : List Request) :
    s.run (r :: rs) = (s.step r).run rs := rfl

/-- Some requests are carried out before the others. -/
theorem run_append (s : TradeSimulater) (rs rs' : List Request) :
    s.run (rs ++ rs') = (s.run rs).run rs' := List.foldl_append

/-- A simulater without requests, as it starts. -/
theorem WF.addContract {s : TradeSimulater} (hs : s.WF) (tc : TradeContract) :
    (s.addContract tc).WF where
  box {c b} h := by
    simp only [TradeSimulater.box, TradeSimulater.addContract, TradeOrderManager.addContract,
      Std.TreeMap.getElem?_insert_if] at h
    split at h
    · -- a contract starts without orders
      next hc => cases h; exact ⟨.empty _, hc.symm⟩
    · exact hs.box h
  market c := by
    simp only [TradeSimulater.market, TradeSimulater.box, TradeSimulater.addContract,
      TradeOrderManager.addContract, TradeMarketManager.addContract,
      Std.TreeMap.getElem?_insert_if]
    split
    · rfl
    · exact hs.market c
  contract c := by
    simp only [TradeSimulater.box, TradeSimulater.addContract, TradeOrderManager.addContract,
      TradeContractAssist.add, Std.TreeMap.getElem?_insert_if]
    split
    · rfl
    · exact hs.contract c
  listening := hs.listening

/-- What a request does to the box of a contract. -/
inductive BoxStep (s : TradeSimulater) (r : Request) (c : String) (b b' : TradeOrderBox) : Prop where
  /-- the request was refused, or it is for another contract -/
  | kept (hno : ¬ (s.Accepts r ∧ r.order.contract = c)) (h : b' = b)
  /-- the request was carried out, up to where an exception stopped it -/
  | served (hyes : s.Accepts r) (hc : r.order.contract = c) (acts done : List Act)
      (hplan : Plan b.ledger s.fillId (s.pendingOf r) r acts) (hdone : done <+: acts)
      (hledger : b'.ledger = Ledger.machine.exec b.ledger done)
      (hend : done = acts ∨ ∃ e s', handle r s = .error e s')

/-- A request leaves a box as it was, or takes it along a plan. -/
theorem box_cases {s : TradeSimulater} (hs : s.WF) (r : Request) {c : String} {b b' : TradeOrderBox}
    (hb : s.box c = some b) (hb' : (s.step r).box c = some b') : BoxStep s r c b b' := by
  cases step_cases hs r with
  | refused hno es hes h =>
    rw [h, box_sent, hb] at hb'
    exact .kept (fun h => hno h.1) (Option.some.inj hb').symm
  | served hyes b₁ acts done shown hb₁ hplan hdone hreach hend =>
    -- only the box of the request's contract is changed
    by_cases hc : r.order.contract = c
    · subst hc
      obtain ⟨b₀, b₂, hb₀, hb₂, -, hledger⟩ := hreach.box
      rw [box_accepted, hb] at hb₀
      rw [hb] at hb₁
      rw [hb₂] at hb'
      cases hb₀; cases hb₁; cases hb'
      exact .served hyes rfl acts done hplan hdone hledger
        (hend.imp And.left fun ⟨_, _, e, _, _, _, h⟩ => ⟨e, _, h⟩)
    · rw [hreach.frame.box c (Ne.symm hc), box_accepted, hb] at hb'
      exact .kept (fun h => hc h.2) (Option.some.inj hb').symm

/-- Boxes are neither made nor dropped by requests. -/
theorem box_isSome_step {s : TradeSimulater} (hs : s.WF) (r : Request) (c : String) :
    ((s.step r).box c).isSome = (s.box c).isSome := by
  rw [← (hs.step r).contract, contracts_step hs r, hs.contract]

/-- Every box after a request is what the request made of the box before. -/
theorem box_step {s : TradeSimulater} (hs : s.WF) (r : Request) {c : String} {b' : TradeOrderBox}
    (hb' : (s.step r).box c = some b') : ∃ b, s.box c = some b ∧ BoxStep s r c b b' := by
  have hsome : (s.box c).isSome := by rw [← box_isSome_step hs r, hb']; rfl
  obtain ⟨b, hb⟩ := Option.isSome_iff_exists.mp hsome
  exact ⟨b, hb, box_cases hs r hb hb'⟩

/-- A request takes the ledger along a run. -/
theorem BoxStep.runs {s : TradeSimulater} {r : Request} {c : String} {b b' : TradeOrderBox}
    (h : BoxStep s r c b b') (hb : b.ledger.WF) : ∃ as, Ledger.machine.Runs b.ledger as ∧
      b'.ledger = Ledger.machine.exec b.ledger as := by
  cases h with
  | kept hno h => exact ⟨[], trivial, by rw [h]; rfl⟩
  | served hyes hc acts done hplan hdone hledger hend =>
    exact ⟨done, (hplan.runs hb).of_isPrefix hdone, hledger⟩

/-- A simulater that has not handled a request yet. -/
structure Fresh (s : TradeSimulater) : Prop where
  box : ∀ {c b}, s.box c = some b → b.ledger = { contract := c }
  market : ∀ {c m}, s.market c = some m → ∀ cp, m.get? cp = none
  events : s.events = []
  exchangeOrderId : s.exchangeOrderId = 0
  fillId : s.fillId = 0

/-- A contract that is added starts with an empty box and an empty book. -/
theorem Fresh.addContract {s : TradeSimulater} (hs : s.Fresh) (tc : TradeContract) :
    (s.addContract tc).Fresh where
  box {c b} h := by
    simp only [TradeSimulater.box, TradeSimulater.addContract, TradeOrderManager.addContract,
      Std.TreeMap.getElem?_insert_if] at h
    split at h
    · next hc => cases h; simp [TradeOrderBox.ledger, hc]
    · exact hs.box h
  market {c m} h cp := by
    simp only [TradeSimulater.market, TradeSimulater.addContract, TradeMarketManager.addContract,
      Std.TreeMap.getElem?_insert_if] at h
    split at h
    · cases h; exact SideMaps.get?_empty cp
    · exact hs.market h cp
  events := hs.events
  exchangeOrderId := hs.exchangeOrderId
  fillId := hs.fillId

/-- `started` makes a simulater that has not handled a request yet. -/
theorem Fresh.started (clock : Nat → Ems.Timestamp) (contracts : List TradeContract) :
    (started clock contracts).Fresh := by
  -- the contracts are added one after the other
  have hfold : ∀ (s : TradeSimulater), s.Fresh →
      (contracts.foldl TradeSimulater.addContract s).Fresh := by
    induction contracts with
    | nil => exact fun s hs => hs
    | cons tc contracts ih => exact fun s hs => ih _ (hs.addContract tc)
  refine hfold _ ⟨fun h => ?_, fun h => ?_, rfl, rfl, rfl⟩
  · simp [TradeSimulater.box] at h
  · simp [TradeSimulater.market] at h

/-- What `started` makes is in order, with an empty box for every contract. -/
theorem WF.started (clock : Nat → Ems.Timestamp) (contracts : List TradeContract) :
    (started clock contracts).WF := by
  -- the contracts are added one after the other
  have hfold : ∀ (s : TradeSimulater), s.WF → (contracts.foldl TradeSimulater.addContract s).WF := by
    induction contracts with
    | nil => exact fun s hs => hs
    | cons tc contracts ih => exact fun s hs => ih _ (hs.addContract tc)
  refine hfold _ ⟨fun h => ?_, fun c => ?_, fun c => ?_, rfl⟩
  · simp [TradeSimulater.box] at h
  · simp [TradeSimulater.box, TradeSimulater.market]
  · simp [TradeSimulater.box]

/-- What holds of an empty ledger and is kept by every allowed action holds of the
    ledger of every contract after every sequence of requests. -/
theorem ledger_invariant {I : Ledger → Prop} (empty : ∀ c, I { contract := c })
    (apply : ∀ b a, b.WF → I b → b.guard a → I (b.apply a)) (clock : Nat → Ems.Timestamp)
    (contracts : List TradeContract) (rs : List Request) {c : String} {b : TradeOrderBox}
    (hb : ((started clock contracts).run rs).box c = some b) : I b.ledger := by
  -- over the requests, for every state that is in order and has the invariant
  have hrun : ∀ (rs : List Request) (s : TradeSimulater), s.WF →
      (∀ c b, s.box c = some b → I b.ledger) → ∀ c b, (s.run rs).box c = some b → I b.ledger := by
    intro rs
    induction rs with
    | nil => exact fun s _ h => h
    | cons r rs ih =>
      intro s hs h
      refine ih (s.step r) (hs.step r) fun c b' hb' => ?_
      obtain ⟨b, hb, hstep⟩ := box_step hs r hb'
      -- a request is a run of the ledger, which keeps the invariant
      obtain ⟨as, hruns, hledger⟩ := hstep.runs (hs.box hb).1.ledger
      rw [hledger]
      exact (hruns.invariant (I := fun b => b.WF ∧ I b)
        (fun b a hI hg => ⟨hI.1.apply hg, apply b a hI.1 hI.2 hg⟩)
        ⟨(hs.box hb).1.ledger, h c b hb⟩).2
  refine hrun rs _ (.started clock contracts) (fun c b hb => ?_) c b hb
  rw [(Fresh.started clock contracts).box hb]
  exact empty c

end TradeSimulater

/-! ## A contract and orders to try things on -/

/-- A contract with a tick of a hundredth and prices up to ten. -/
def sampleContracts : List TradeContract := [⟨"A", 5, 1, 1, 1000⟩]

/-- A limit order for the sample contract. -/
def limitOrder (clientOrderId : String) (buySell : Ems.BuySell) (price : String)
    (quantity : OrderSize) : Order :=
  { clientOrderId, contract := "A", buySell, price, quantity, orderType := .limit }

/-- The state after requests for the sample contract. -/
def sampleRun (rs : List TradeSimulater.Request) : TradeSimulater :=
  (TradeSimulater.started (fun _ => {}) sampleContracts).run rs

end FixHandler.Trade
