import Mathlib
import FixHandler.Spec.Trade.Conservation

/-!
# The tape

The trades that are published of a contract, and the fills that are reported to either side of it, are
one list of prices and sizes. What is bought of a contract is what is sold of it, trade by trade,
whatever is requested and however the counters wrap around.

## Key results

- `Deal.Fair.onTape`: a deal is on the tape once, and once on either side
- `fills_are_tape`: the statement for every sequence of requests
-/

namespace FixHandler.Trade

open Ems (Fill BuySell)

/-- The prices and sizes of the fills of a side -/
def dealtBy (side : BuySell) (fills : List Fill) : List (String × UInt64) :=
  (fills.filter (·.buySell == side)).map fun f => (f.fillPrice, f.fillQuantity)

/-- The prices and sizes of trades of a contract -/
def tape (contract : String) (trades : List Dms.Trade) : List (String × UInt64) :=
  (trades.filter (·.contract == contract)).map fun t => (t.last.price.toString, t.last.size)

/-- Fills are read one after the other. -/
theorem dealtBy_append (side : BuySell) (fills fills' : List Fill) :
    dealtBy side (fills ++ fills') = dealtBy side fills ++ dealtBy side fills' := by
  simp [dealtBy]

/-- A deal has one party on either side. -/
theorem Deal.Fair.onTape {d : Deal} (h : d.Fair) {side : BuySell} (hside : side = .buy ∨ side = .sell)
    (contract : String) :
    dealtBy side (d.fills.filter (·.contract == contract)) = tape contract [d.trade] := by
  obtain ⟨hsides, -, hincoming, hworking⟩ := h
  by_cases hcontract : d.trade.contract = contract
  · -- both fills are of the contract, and one of them is of the side
    have hcontracts : d.incoming.contract = contract ∧ d.working.contract = contract :=
      ⟨hincoming.contract.trans hcontract, hworking.contract.trans hcontract⟩
    cases hsides with
    | inl h =>
      cases hside with
      | inl hbuy => simp [dealtBy, tape, Deal.fills, hcontract, hcontracts, h, hbuy,
          hincoming.price, hincoming.quantity]
      | inr hsell => simp [dealtBy, tape, Deal.fills, hcontract, hcontracts, h, hsell,
          hworking.price, hworking.quantity]
    | inr h =>
      cases hside with
      | inl hbuy => simp [dealtBy, tape, Deal.fills, hcontract, hcontracts, h, hbuy,
          hworking.price, hworking.quantity]
      | inr hsell => simp [dealtBy, tape, Deal.fills, hcontract, hcontracts, h, hsell,
          hincoming.price, hincoming.quantity]
  · simp [dealtBy, tape, Deal.fills, hincoming.contract, hworking.contract, hcontract]

/-- Each side's fills of fair deals are the tape. -/
theorem dealtBy_deals {ds : List Deal} (h : ∀ d ∈ ds, d.Fair) {side : BuySell}
    (hside : side = .buy ∨ side = .sell) (contract : String) :
    dealtBy side ((ds.flatMap Deal.fills).filter (·.contract == contract)) =
      tape contract (ds.map (·.trade)) := by
  induction ds with
  | nil => rfl
  | cons d ds ih =>
    have hfirst := (h d List.mem_cons_self).onTape hside contract
    have hrest := ih fun d' hd' => h d' (List.mem_cons_of_mem d hd')
    rw [List.flatMap_cons, List.filter_append, dealtBy_append, hfirst, hrest, tape, tape, tape,
      ← List.map_append, ← List.filter_append]
    rfl

namespace TradeSimulater

/-- For every sequence of requests: what was reported to either side of a contract is, in turn, what was
    published, and the box of the contract has recorded just that. -/
theorem fills_are_tape (clock : Nat → Ems.Timestamp) (contracts : List TradeContract)
    (rs : List Request) (contract : String) :
    let s := (started clock contracts).run rs
    dealtBy .buy (s.sentFills.filter (·.contract == contract)) = tape contract s.sentTrades ∧
      dealtBy .sell (s.sentFills.filter (·.contract == contract)) = tape contract s.sentTrades ∧
      ∀ b, s.box contract = some b →
        (dealtBy .buy b.filledOrders).Perm (tape contract s.sentTrades) ∧
          (dealtBy .sell b.filledOrders).Perm (tape contract s.sentTrades) := by
  have hs := WF.started clock contracts
  have hfresh := Fresh.started clock contracts
  obtain ⟨ds, hds⟩ := hfresh.dealt.run hs rs
  rw [List.nil_append] at hds
  have hsent := hfresh.sent.run hs rs
  -- what each side was sent is the tape, deal by deal
  have hbought := dealtBy_deals hds.fair (.inl rfl) contract
  have hsold := dealtBy_deals hds.fair (.inr rfl) contract
  rw [← hds.trades, ← hds.fills] at hbought hsold
  refine ⟨hbought, hsold, fun b hb => ?_⟩
  -- the box has the fills of its contract
  rw [(hsent contract b hb).1, hbought, hsold]
  exact ⟨.refl _, .refl _⟩

/-- A buy order takes three of the five that are offered. -/
theorem fills_are_tape_three :
    ∃ b, (sampleRun [.add (limitOrder "1" .sell "1" 5), .add (limitOrder "2" .buy "1" 3)]).box "A" =
        some b ∧
      (dealtBy .buy b.filledOrders).Perm (dealtBy .sell b.filledOrders) ∧
      (dealtBy .buy b.filledOrders).map (·.2) = [3] := by
  have hbox : ((sampleRun [.add (limitOrder "1" .sell "1" 5),
      .add (limitOrder "2" .buy "1" 3)]).box "A").map
        (fun b => (dealtBy .buy b.filledOrders).map (·.2)) = some [3] := by
    decide +kernel
  obtain ⟨b, hb, hthree⟩ := Option.map_eq_some_iff.mp hbox
  obtain ⟨hbought, hsold⟩ := (fills_are_tape (fun _ => {}) sampleContracts
    [.add (limitOrder "1" .sell "1" 5), .add (limitOrder "2" .buy "1" 3)] "A").2.2 b hb
  exact ⟨b, hb, hbought.trans hsold.symm, hthree⟩

end TradeSimulater

end FixHandler.Trade
