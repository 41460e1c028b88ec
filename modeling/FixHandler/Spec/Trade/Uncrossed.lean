import Mathlib
import FixHandler.Spec.Trade.SimulaterCorrect

/-!
# The book is never crossed

After every request, also after one that ended with an exception, no working buy
order matches a working sell order of the same contract.

## Key results

- `uncrossed_run`: the ledger of every contract is uncrossed
- `no_working_orders_match`: the statement about the orders of a box
-/

namespace FixHandler.Trade

open Ems (Order)
open ComparablePrice (Crosses)

namespace TradeOrderBox

/-- The order is one of the working orders of the box. -/
def Works (b : TradeOrderBox) (o : Order) : Prop :=
  ∃ id p, b.workingOrders[(id : String)]? = some p ∧ b.heap.cells p = some o

/-- An order that works is in the ledger. -/
theorem Works.ledger {b : TradeOrderBox} {o : Order} (h : b.Works o) :
    ∃ id, b.ledger.working id = some o := by
  obtain ⟨id, p, hp, ho⟩ := h
  exact ⟨id, by simp [TradeOrderBox.ledger, hp, ho]⟩

end TradeOrderBox

namespace TradeSimulater

/-- The ledgers of all contracts stay uncrossed. -/
theorem uncrossed_run (clock : Nat → Ems.Timestamp) (contracts : List TradeContract)
    (rs : List Request) {c : String} {b : TradeOrderBox}
    (hb : ((started clock contracts).run rs).box c = some b) : b.ledger.Uncrossed :=
  ledger_invariant (I := Ledger.Uncrossed) (fun _ _ _ _ _ h => nomatch h)
    (fun _ _ _ h hg => h.apply hg) clock contracts rs hb

/-- For every sequence of requests and every contract: no working buy order matches a
    working sell order. So a market order never works while a limit order of the other
    side does, and every limit bid is below every limit ask. -/
theorem no_working_orders_match (clock : Nat → Ems.Timestamp) (contracts : List TradeContract)
    (rs : List Request) (c : String) (b : TradeOrderBox)
    (hb : ((started clock contracts).run rs).box c = some b) (buy sell : Order)
    (hbuy : b.Works buy) (hsell : b.Works sell) (hbs : buy.buySell = .buy)
    (hss : sell.buySell = .sell) :
    ∃ bid ask, ComparablePrice.ofOrder buy = .ok bid ∧ ComparablePrice.ofOrder sell = .ok ask ∧
      bid.isMatch ask = .ok false ∧
      ¬ (buy.orderType = .market ∧ sell.orderType = .limit) ∧
      ¬ (buy.orderType = .limit ∧ sell.orderType = .market) ∧
      (buy.orderType = .limit → sell.orderType = .limit → bid.price < ask.price) := by
  obtain ⟨id, hid⟩ := hbuy.ledger
  obtain ⟨id', hid'⟩ := hsell.ledger
  have hwf := (((WF.started clock contracts).run rs).box hb).1.ledger
  have hbid := hwf.working hid
  have hask := hwf.working hid'
  -- orders that cross would have traded when the later one came
  have hno : ¬ Crosses (priceOf buy) (priceOf sell) := uncrossed_run clock contracts rs hb hid hid'
  have hb' : (priceOf buy).isBuy = true := by rw [hbid.toSound.isBuy, hbs]; rfl
  have hs' : (priceOf sell).isBuy = false := by rw [hask.toSound.isBuy, hss]; rfl
  have hne : (priceOf buy).isBuy ≠ (priceOf sell).isBuy := by rw [hb', hs']; exact Bool.noConfusion
  have hmatch := ComparablePrice.isMatch_eq hne
  rw [decide_eq_false hno] at hmatch
  -- a limit order has a price, so that it crosses every market order
  have hlimit : ∀ {o : Order}, Sound o → o.orderType = .limit → (priceOf o).price ≠ 0 := by
    intro o ho hlim hz
    have := ho.market.mpr hz
    rw [hlim] at this
    exact nomatch this
  refine ⟨_, _, hbid.priced, hask.priced, hmatch, ?_, ?_, ?_⟩
  · rintro ⟨hm, hl⟩
    exact hno ⟨hne, .inl ⟨hbid.market.mp hm, hlimit hask.toSound hl⟩⟩
  · rintro ⟨hl, hm⟩
    exact hno ⟨hne, .inr (.inl ⟨hlimit hbid.toSound hl, hask.market.mp hm⟩)⟩
  · intro hl hl'
    have hle : ¬ (priceOf sell).price ≤ (priceOf buy).price := fun hle =>
      hno ⟨hne, .inr (.inr ⟨hlimit hbid.toSound hl, hlimit hask.toSound hl', by
        rw [hb']; exact hle⟩)⟩
    exact UInt32.not_le.mp hle

/-- A bid that is too low to trade rests below the offer. -/
theorem no_working_orders_match_bid_below_offer :
    ∃ b bid ask, (sampleRun [.add (limitOrder "1" .sell "2" 5),
        .add (limitOrder "2" .buy "1" 3)]).box "A" = some b ∧
      b.workingOrders.contains "1" ∧ b.workingOrders.contains "2" ∧
      ComparablePrice.isMatch bid ask = .ok false ∧ bid.price < ask.price := by
  have heval : ((sampleRun [.add (limitOrder "1" .sell "2" 5),
      .add (limitOrder "2" .buy "1" 3)]).box "A").map (fun b =>
        (b.workingOrders["1"]?, b.heap.cells 0, b.workingOrders["2"]?, b.heap.cells 1)) =
      some (some 0, some { limitOrder "1" .sell "2" 5 with
          exchangeOrderId := "Order-1", status := .working },
        some 1, some { limitOrder "2" .buy "1" 3 with
          exchangeOrderId := "Order-2", status := .working }) := by
    decide +kernel
  obtain ⟨b, hb, hv⟩ := Option.map_eq_some_iff.mp heval
  simp only [Prod.mk.injEq] at hv
  obtain ⟨h1, ho1, h2, ho2⟩ := hv
  -- both orders work, and the statement gives their prices
  obtain ⟨bid, ask, -, -, hmatch, -, -, hlt⟩ := no_working_orders_match (fun _ => {})
    sampleContracts _ "A" b hb _ _ ⟨"2", 1, h2, ho2⟩ ⟨"1", 0, h1, ho1⟩ rfl rfl
  refine ⟨b, bid, ask, hb, ?_, ?_, hmatch, hlt rfl rfl⟩
  · rw [Std.TreeMap.contains_eq_isSome_getElem?, h1]; rfl
  · rw [Std.TreeMap.contains_eq_isSome_getElem?, h2]; rfl

end TradeSimulater

end FixHandler.Trade
