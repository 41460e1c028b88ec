import Mathlib
import FixHandler.ForStd.Except
import FixHandler.Spec.Trade.PublishedBook

/-!
# Every request is refused as a whole or served

A request that is not accepted is answered with one rejected report, and nothing else of the
simulater changes. A request that is accepted is first reported as pending, or as cancelled if it is
a `Delete`, and nothing that follows is reported as rejected, not even if it ends with an exception.

## Key results

- `adds_matchOrder`: what a matched order adds to the calls of the listeners
- `answered`: the two ways a request can end
-/

namespace FixHandler.Trade

open Cxx (Exception)
open Ems (Order)

/-- The report of an order that a call makes -/
def Event.order? : Event → Option Order
  | .onOrder o => some o
  | _ => none

/-- A report that an order is rejected -/
def Event.IsRejected (e : Event) : Prop := ∃ o, e.order? = some o ∧ o.status = .rejected

/-- The market listener is told of books and trades only. -/
def Event.IsMarket (e : Event) : Prop := e.order? = none ∧ e.fill? = none

/-- Something is known of a client order id. -/
def TradeOrderBox.Knows (b : TradeOrderBox) (id : String) : Prop :=
  id ∈ b.canceledOrders ∨ id ∈ b.workingOrders ∨ ∃ f ∈ b.filledOrders, f.clientOrderId = id

/-- The status 4 says that the box does not know the order. -/
theorem TradeOrderBox.orderStatus_eq_four {b : TradeOrderBox} {id : String} :
    b.orderStatus id = 4 ↔ ¬ b.Knows id := by
  unfold TradeOrderBox.orderStatus TradeOrderBox.Knows
  simp only [← Std.TreeMap.mem_iff_contains, List.find?_isSome, beq_iff_eq]
  split_ifs <;> simp_all

/-- The status 2 says that the order works. -/
theorem TradeOrderBox.working_of_orderStatus_two {b : TradeOrderBox} {id : String}
    (h : b.orderStatus id = 2) : id ∈ b.workingOrders := by
  unfold TradeOrderBox.orderStatus at h
  split at h
  · exact nomatch h
  · split at h
    · next hw => exact hw
    · split at h <;> exact nomatch h

namespace TradeSimulater

/-! ## The calls that are added -/

/-- From `s` to `s'` the listeners were called, with nothing but `P`. -/
def Adds (P : Event → Prop) (s s' : TradeSimulater) : Prop :=
  ∃ es, s'.events = s.events ++ es ∧ ∀ e ∈ es, P e

instance (P : Event → Prop) : IsPreorder TradeSimulater (Adds P) where
  refl s := ⟨[], (List.append_nil _).symm, fun _ he => nomatch he⟩
  trans _ _ _ h h' := by
    obtain ⟨es, hes, hP⟩ := h
    obtain ⟨es', hes', hP'⟩ := h'
    refine ⟨es ++ es', by rw [hes', hes, List.append_assoc], fun e he => ?_⟩
    exact (List.mem_append.mp he).elim (hP e) (hP' e)

section Moves

open EStateM (Moves)

variable {P : Event → Prop}

/-- A call adds itself. -/
theorem adds_emit {e : Event} (h : P e) : Moves (Adds P) (emit e) := fun _ =>
  ⟨[e], rfl, fun e' he => by rwa [List.mem_singleton.mp he]⟩

/-- A call to the market listener adds itself, or nothing. -/
theorem adds_emitMarket {e : Event} (h : P e) : Moves (Adds P) (emitMarket e) := by
  unfold emitMarket
  exact .get_bind fun s => Moves.ite (adds_emit h) (.pure ()) s

/-- What makes no call adds nothing. -/
private theorem adds_nothing {s s' : TradeSimulater} (h : s'.events = s.events) : Adds P s s' :=
  ⟨[], h.trans (List.append_nil _).symm, fun _ he => nomatch he⟩

/-- The orders make no calls. -/
theorem adds_withOrders {α : Type}
    (op : TradeOrderManager → Except Exception (TradeOrderManager × α)) :
    Moves (Adds P) (withOrders op) := by
  unfold withOrders
  refine .get_bind fun s => (Moves.ofExcept _).bind (fun a => ?_) s
  refine (Moves.modify fun s => ?_).bind fun _ => .pure _
  exact adds_nothing rfl

/-- Counting makes no call. -/
theorem adds_nextFillId : Moves (Adds P) nextFillId := fun _ => adds_nothing rfl

/-- A change of the book calls the market listener only. -/
theorem adds_changeMarket (hP : ∀ e : Event, e.IsMarket → P e) (c : String)
    (change : TradeMarketState → Except Exception (TradeMarketState × Nat)) :
    Moves (Adds P) (changeMarket c change) := by
  have hbbo : ∀ m, Moves (Adds P) (sendBbo m) := by
    intro m
    unfold sendBbo
    dsimp only
    split
    · exact adds_emitMarket (hP _ ⟨rfl, rfl⟩)
    · exact .pure ()
    · exact adds_emitMarket (hP _ ⟨rfl, rfl⟩)
    · exact adds_emitMarket (hP _ ⟨rfl, rfl⟩)
  unfold changeMarket
  refine .get_bind fun s => ?_
  -- without the contract's book there is an exception, and no call
  cases hm : s.marketManager.marketStates[c]? with
  | none => exact Moves.throw _ s
  | some m =>
    refine (Moves.ofExcept (change m)).bind (fun changed => ?_) s
    refine (Moves.modify fun s => ?_).bind fun _ => ?_
    · exact adds_nothing rfl
    have hrest : Moves (Adds P) (if changed.2 == 2 then sendBbo changed.1 else pure ()) :=
      .ite (hbbo changed.1) (.pure ())
    exact .ite ((adds_emitMarket (hP _ ⟨rfl, rfl⟩)).bind fun _ => hrest) hrest

/-- A fill is reported to both listeners. -/
theorem adds_reportFilled (o : Order) (f : Ems.Fill) (n : OrderSize)
    (hreport : ∀ now, P (.onOrder (makeFilledOrder o f n now))) (hfill : P (.onFill f)) :
    Moves (Adds P) (reportFilled o f n) := by
  unfold reportFilled
  exact .get_bind fun s => (adds_emit (hreport _)).bind (fun _ => adds_emit hfill) s

/-- A new order works once it is in the box. -/
private theorem status_of_addOrder {m m' : TradeOrderManager} {order o : Order}
    (h : m.addOrder order = .ok (m', o)) : o.status = .working := by
  unfold TradeOrderManager.addOrder at h
  obtain ⟨box, -, h⟩ := Except.bind_eq_ok.mp h
  obtain ⟨⟨box', p⟩, hadd, h⟩ := Except.bind_eq_ok.mp h
  obtain ⟨o', ho', h⟩ := Except.bind_eq_ok.mp h
  cases h
  unfold TradeOrderBox.addOrder at hadd
  obtain ⟨box₁, hwork, hpair⟩ := Except.bind_eq_ok.mp hadd
  cases hpair
  unfold TradeOrderBox.addWorkingOrder at hwork
  obtain ⟨o₁, -, hwork⟩ := Except.bind_eq_ok.mp hwork
  obtain ⟨cp, -, hwork⟩ := Except.bind_eq_ok.mp hwork
  cases hwork
  -- the order is read back from the cell that was just set
  unfold Cxx.Heap.deref at ho'
  simp only [Cxx.Heap.cells_modify, if_true, Function.update_self, Option.map_some] at ho'
  cases ho'
  rfl

/-- An operation on the orders that returns has succeeded. -/
theorem withOrders_ok {α : Type} {op : TradeOrderManager → Except Exception (TradeOrderManager × α)}
    {s s' : TradeSimulater} {a : α} (h : withOrders op s = .ok a s') :
    ∃ m, op s.orderManager = .ok (m, a) := by
  unfold withOrders at h
  rw [EStateM.get_bind] at h
  cases hop : op s.orderManager with
  | error e =>
    rw [hop] at h
    exact nomatch h
  | ok r =>
    rw [hop] at h
    cases h
    exact ⟨r.1, rfl⟩

/-- The end of `matchOrder`: what is left of the order is reported as cancelled or as working. -/
theorem adds_leftover (hmarket : ∀ e : Event, e.IsMarket → P e)
    (hreport : ∀ o : Order, o.status = .cancelled ∨ o.status = .working → P (.onOrder o))
    (o : Order) (remainder : OrderSize) (isDelete : Bool) :
    Moves (Adds P) (do
      if remainder > 0 then
        let order := { o with
          filledQuantity := o.quantity - remainder
          quantity := remainder }
        if isDelete then
          let deletedOrder ← withOrders (·.addDeletedOrder order)
          emit (.onOrder (makeCancelResponse deletedOrder Message.orderCancelled))
        else
          let workingOrder ← withOrders (·.addOrder order)
          emit (.onOrder workingOrder)
          changeMarketOnOrderCreated workingOrder : SimM Unit) := by
  refine .ite ?_ (.pure ())
  refine .ite ?_ ?_
  · exact (adds_withOrders _).bind fun _ => adds_emit (hreport _ (.inl rfl))
  · refine (adds_withOrders _).bind_of_ok fun s working s' h => ?_
    obtain ⟨m, hm⟩ := withOrders_ok h
    -- the order that rests is reported as working
    have hworking := status_of_addOrder hm
    exact (adds_emit (hreport _ (.inr hworking))).bind fun _ => adds_changeMarket hmarket _ _

/-- Matching an order calls the listeners with reports of orders that are filled, cancelled or
    working. -/
theorem adds_matchOrder (hmarket : ∀ e : Event, e.IsMarket → P e)
    (hreport : ∀ o : Order, o.status = .filled ∨ o.status = .cancelled ∨ o.status = .working →
      P (.onOrder o)) (hfill : ∀ f, P (.onFill f)) (o : Order) :
    Moves (Adds P) (matchOrder o) := by
  have hfilled : ∀ o f n, Moves (Adds P) (reportFilled o f n) := fun o f n =>
    adds_reportFilled o f n (fun _ => hreport _ (.inl rfl)) (hfill f)
  -- a round reports both orders and the trade, and publishes the book
  have hone : ∀ o n m, Moves (Adds P) (matchOne o n m) := by
    intro o n m
    unfold matchOne
    refine .get_bind fun s => (Moves.ofExcept _).bind (fun box => ?_) s
    refine (Moves.ofExcept _).bind fun matched => ?_
    refine adds_nextFillId.bind fun fillId => ?_
    refine (adds_withOrders _).bind fun fill => (hfilled _ _ _).bind fun _ => ?_
    refine (adds_withOrders _).bind fun wfill => (hfilled _ _ _).bind fun _ => ?_
    refine (adds_emitMarket (hmarket _ ⟨rfl, rfl⟩)).bind fun _ => ?_
    exact adds_changeMarket hmarket _ _
  unfold matchOrder
  refine .get_bind fun s => (Moves.ofExcept _).bind (fun box => ?_) s
  refine (Moves.ofExcept _).bind fun (ms, remainder, isDelete) => ?_
  refine (Moves.forM (hone o remainder) ms).bind fun _ => ?_
  exact adds_leftover hmarket (fun o h => hreport o (.inr h)) o remainder isDelete

end Moves

/-- What a matched order or a deleted one adds is no rejection. -/
theorem not_isRejected (o : Order) :
    EStateM.Moves (Adds fun e => ¬ e.IsRejected) (matchOrder o) ∧
      EStateM.Moves (Adds fun e => ¬ e.IsRejected) (changeMarketOnOrderDeleted o) := by
  have hmarket : ∀ e : Event, e.IsMarket → ¬ e.IsRejected := by
    rintro e ⟨hnone, -⟩ ⟨o, ho, -⟩
    rw [hnone] at ho
    exact nomatch ho
  refine ⟨adds_matchOrder hmarket ?_ ?_ o, adds_changeMarket hmarket _ _⟩
  · rintro o hstatus ⟨o', ho', hrejected⟩
    cases ho'
    rw [hrejected] at hstatus
    rcases hstatus with h | h | h <;> exact nomatch h
  · rintro f ⟨o', ho', -⟩
    exact nomatch ho'

/-! ## The answers -/

/-- The status of the first report of an accepted request -/
def Request.firstStatus : Request → Ems.OrderStatus
  | .delete _ => .cancelled
  | _ => .pending

/-- What an accepted request asks of its client order id -/
def Request.Wants (b : TradeOrderBox) : Request → Prop
  | .add o => ¬ b.Knows o.clientOrderId
  | .change o | .delete o => o.clientOrderId ∈ b.workingOrders

/-- An accepted request found the box it asks for. -/
theorem Accepts.wants {s : TradeSimulater} (hs : s.WF) {r : Request} (h : s.Accepts r) :
    ∃ b, s.box r.order.contract = some b ∧ r.Wants b := by
  cases outcome hs r with
  -- a request that is rejected was not accepted
  | rejected hno reason _ => exact absurd h hno
  | thrown hno e hcheck _ => exact absurd h hno
  | served hyes b acts hb hplan _ =>
    refine ⟨b, hb, ?_⟩
    cases r with
    | add o =>
      exact TradeOrderBox.orderStatus_eq_four.mp
        (Except.ok.inj ((orderStatus_of_box hb o.clientOrderId).symm.trans hyes.2))
    | change o =>
      exact TradeOrderBox.working_of_orderStatus_two
        (Except.ok.inj ((orderStatus_of_box hb o.clientOrderId).symm.trans hyes.2))
    | delete o =>
      exact TradeOrderBox.working_of_orderStatus_two
        (Except.ok.inj ((orderStatus_of_box hb o.clientOrderId).symm.trans hyes.2))

/-- A request that is accepted reports so first, and rejects nothing afterwards. -/
theorem Accepts.events {s : TradeSimulater} (hs : s.WF) {r : Request} (h : s.Accepts r) :
    ∃ first es, (s.step r).events = s.events ++ .onOrder first :: es ∧
      first.status = r.firstStatus ∧ first.clientOrderId = r.order.clientOrderId ∧
      ∀ e ∈ es, ¬ e.IsRejected := by
  cases r with
  | add o =>
    -- the order is reported as pending before it is matched
    have heq := handle_add_of_accepts hs h
    obtain ⟨es, hes, hno⟩ := (not_isRejected (s.pendingOf (.add o))).1
      ((s.accepted (.add o)).sent [.onOrder (s.pendingOf (.add o))])
    refine ⟨s.pendingOf (.add o), es, ?_, rfl, rfl, hno⟩
    rw [step, heq, hes]
    exact List.append_assoc _ _ _
  | change o =>
    obtain ⟨b, w, b', hb, hw, hwc, hdel, hreach, heq⟩ := handle_change_of_accepts hs h
    obtain ⟨es, hes, hno⟩ := ((not_isRejected { w with status := .cancelled }).2.bind fun _ =>
      (not_isRejected (s.pendingOf (.change o))).1) (s.withdrawn o w b')
    refine ⟨s.pendingOf (.change o), .onOrder (makeCancelResponse { w with status := .cancelled }
      Message.orderCancelled) :: es, ?_, rfl, rfl, ?_⟩
    · rw [step, heq, hes]
      show ((s.events ++ _) ++ _) ++ es = _
      simp
    · intro e he
      rcases List.mem_cons.mp he with rfl | he
      · -- the second report cancels the old order
        rintro ⟨o', ho', hrejected⟩
        cases ho'
        cases hrejected
      · exact hno e he
  | delete o =>
    obtain ⟨b, w, b', hb, hw, hwc, hreach, heq⟩ := handle_delete_of_accepts hs h
    obtain ⟨es, hes, hno⟩ := (not_isRejected { w with status := .cancelled }).2
      ((s.withBox o.contract b').sent
        [.onOrder (makeCancelResponse { w with status := .cancelled } Message.orderCancelled)])
    refine ⟨makeCancelResponse { w with status := .cancelled } Message.orderCancelled, es, ?_, rfl,
      ((hs.box hb).1.ledger.working hw).id, hno⟩
    rw [step, heq, hes]
    exact List.append_assoc _ _ _

/-- Every request of a simulater is refused, and then there is one rejected report of it and nothing
    else of the simulater has changed; or it is accepted, because its client order id is unknown
    (`Add`) or works (`Change`, `Delete`), and then its first report says that it is pending
    (`Add`, `Change`) or cancelled (`Delete`), and no report of it says that it is rejected. -/
theorem answered (clock : Nat → Ems.Timestamp) (contracts : List TradeContract) (rs : List Request)
    (r : Request) (price : Cxx.Binary64) (hprice : Cxx.stod r.order.price = .ok price)
    (htick : ∀ tc, ((started clock contracts).run rs).contractAssist.contracts[r.order.contract]? =
      some tc → tc.tick ≠ 0) :
    (∃ reason, handle r ((started clock contracts).run rs) = .ok ()
      { (started clock contracts).run rs with
        events := ((started clock contracts).run rs).events ++
          [.onOrder { r.order with status := .rejected, message := reason }] }) ∨
    (∃ b, ((started clock contracts).run rs).box r.order.contract = some b ∧ r.Wants b) ∧
    ∃ first es, (((started clock contracts).run rs).step r).events =
        ((started clock contracts).run rs).events ++ .onOrder first :: es ∧
      first.status = r.firstStatus ∧ first.clientOrderId = r.order.clientOrderId ∧
      ∀ e ∈ es, ¬ e.IsRejected := by
  have hs := (WF.started clock contracts).run rs
  cases outcome hs r with
  | rejected hno reason h => exact .inl ⟨reason, h⟩
  | thrown hno e hcheck h =>
    -- the price has been read, and the tick is not zero
    rcases checkOrder_error hcheck with hstod | ⟨-, tc, htc, hzero⟩
    · exact nomatch hstod.symm.trans hprice
    · exact absurd hzero (htick tc htc)
  | served hyes b acts hb hplan h => exact .inr ⟨Accepts.wants hs hyes, Accepts.events hs hyes⟩

/-- An order whose id is taken is refused. -/
theorem taken_id_answered :
    (∃ reason, handle (.add (limitOrder "1" .buy "1" 3))
        (sampleRun [.add (limitOrder "1" .sell "2" 5)]) = .ok ()
      { sampleRun [.add (limitOrder "1" .sell "2" 5)] with
        events := (sampleRun [.add (limitOrder "1" .sell "2" 5)]).events ++
          [.onOrder { limitOrder "1" .buy "1" 3 with status := .rejected, message := reason }] }) ∨
    (∃ b, (sampleRun [.add (limitOrder "1" .sell "2" 5)]).box "A" = some b ∧
      (Request.add (limitOrder "1" .buy "1" 3)).Wants b) ∧
    ∃ first es, ((sampleRun [.add (limitOrder "1" .sell "2" 5)]).step
          (.add (limitOrder "1" .buy "1" 3))).events =
        (sampleRun [.add (limitOrder "1" .sell "2" 5)]).events ++ .onOrder first :: es ∧
      first.status = .pending ∧ first.clientOrderId = "1" ∧ ∀ e ∈ es, ¬ e.IsRejected := by
  have htick : ∀ tc, (sampleRun [.add (limitOrder "1" .sell "2" 5)]).contractAssist.contracts["A"]? =
      some tc → tc.tick ≠ 0 := by
    -- the contract is as it was added, and its tick is not zero
    have hcontract : (sampleRun [.add (limitOrder "1" .sell "2" 5)]).contractAssist.contracts["A"]? =
        some ⟨"A", 5, 1, 1, 1000⟩ := by decide +kernel
    intro tc htc
    rw [hcontract] at htc
    cases htc
    decide
  exact answered (fun _ => {}) sampleContracts [.add (limitOrder "1" .sell "2" 5)]
    (.add (limitOrder "1" .buy "1" 3)) (.fin 1) (by decide +kernel) htick

end TradeSimulater

end FixHandler.Trade
