import Mathlib
import FixHandler.Spec.Trade.OrderLife

/-!
# What is done is done

An order that was cancelled, or filled and does not work any more, is done. Nothing that is requested
afterwards makes its id work again, changes the order that was cancelled, or fills anything of it.

## Key results

- `Plan.ne_of_done`: a request that is accepted is for no id that is done
- `done_for_good`: the statement for every sequence of requests
-/

namespace FixHandler.Trade

open Ems (Order Fill)

namespace Ledger

/-- The order of an id was cancelled or filled, and does not work any more. -/
structure Done (b : Ledger) (id : String) : Prop where
  working : b.working id = none
  known : b.canceled id ≠ none ∨ b.fillsOf id ≠ []

variable {b b' : Ledger} {id : String}

/-- An order that is done with stays so while nothing about it changes. -/
theorem Done.of_same (h : b.Done id) (hsame : Same id b b') : b'.Done id :=
  ⟨hsame.working, by rw [hsame.canceled, hsame.fills]; exact h.known⟩

end Ledger

namespace TradeSimulater

/-- A request that is accepted is for no id that is done. -/
theorem Plan.ne_of_done {b : Ledger} {n : UInt32} {p : Order} {r : Request} {acts : List Act}
    (h : Plan b n p r acts) {id : String} (hdone : b.Done id) : id ≠ p.clientOrderId := by
  intro heq
  subst heq
  cases h with
  | add hw hc hf ho hq hcontract hm =>
    -- a new id is neither cancelled nor filled
    cases hdone.known with
    | inl hcanceled => exact hcanceled hc
    | inr hfills =>
      apply hfills
      rw [Ledger.fillsOf, List.filter_eq_nil_iff]
      intro f hmem
      simpa using hf f hmem
  | change hw ho hq hcontract hm =>
    rw [hdone.working] at hw
    cases hw
  | delete hw =>
    rw [hdone.working] at hw
    cases hw

theorem BoxStep.same {s : TradeSimulater} {r : Request} {c : String} {b b' : TradeOrderBox}
    (h : BoxStep s r c b b') (hb : b.ledger.WF) {id : String} (hdone : b.ledger.Done id) :
    b.ledger.Same id b'.ledger := by
  cases h with
  | kept hno h =>
    subst h
    exact ⟨hdone.working, rfl, rfl⟩
  | served hyes hc acts done hplan hle hledger hend =>
    have hincoming := hplan.incoming hb (hplan.ne_of_done hdone)
    rw [hledger]
    exact Ledger.same_exec ((hplan.runs hb).of_isPrefix hle)
      (fun a ha => hincoming a (hle.subset ha)) hdone.working

/-- Whatever is requested, the box of a contract leaves what is done as it is. -/
theorem same_run {s : TradeSimulater} (hs : s.WF) (rs : List Request) {c : String} {b : TradeOrderBox}
    (hb : s.box c = some b) {id : String} (hdone : b.ledger.Done id) :
    ∃ b', (s.run rs).box c = some b' ∧ b.ledger.Same id b'.ledger := by
  induction rs generalizing s b with
  | nil => exact ⟨b, hb, hdone.working, rfl, rfl⟩
  | cons r rs ih =>
    have hsome : ((s.step r).box c).isSome := by
      rw [box_isSome_step hs, hb]
      rfl
    obtain ⟨b₁, hb₁⟩ := Option.isSome_iff_exists.mp hsome
    have hsame := (box_cases hs r hb hb₁).same (hs.box hb).1.ledger hdone
    obtain ⟨b', hb', hsame'⟩ := ih (hs.step r) hb₁ (hdone.of_same hsame)
    exact ⟨b', hb', hsame.trans hsame'⟩

/-- For every sequence of requests: what is done at some time stays done, with the same cancelled
    order and the same fills. -/
theorem done_for_good (clock : Nat → Ems.Timestamp) (contracts : List TradeContract)
    (rs later : List Request) {c : String} {b : TradeOrderBox}
    (hb : ((started clock contracts).run rs).box c = some b) {id : String} (hdone : b.ledger.Done id) :
    ∃ b', ((started clock contracts).run (rs ++ later)).box c = some b' ∧ b'.ledger.Done id ∧
      b'.ledger.canceled id = b.ledger.canceled id ∧ b'.ledger.fillsOf id = b.ledger.fillsOf id := by
  obtain ⟨b', hb', hsame⟩ := same_run ((WF.started clock contracts).run rs) later hb hdone
  rw [← run_append] at hb'
  exact ⟨b', hb', hdone.of_same hsame, hsame.canceled, hsame.fills⟩

/-- An order that was filled is sent again, changed and deleted. -/
theorem done_for_good_filled :
    ∃ b', (sampleRun ([.add (limitOrder "1" .sell "1" 5), .add (limitOrder "2" .buy "1" 3)] ++
        [.add (limitOrder "2" .buy "1" 2), .change (limitOrder "2" .buy "1" 2),
          .delete (limitOrder "2" .buy "1" 2)])).box "A" = some b' ∧ b'.ledger.Done "2" ∧
      (b'.ledger.fillsOf "2").map (·.fillQuantity) = [3] := by
  have hbox : ((sampleRun [.add (limitOrder "1" .sell "1" 5),
      .add (limitOrder "2" .buy "1" 3)]).box "A").map (fun b =>
        ((b.ledger.working "2").isNone, (b.ledger.fillsOf "2").map (·.fillQuantity))) =
        some (true, [3]) := by
    decide +kernel
  obtain ⟨b, hb, hfilled⟩ := Option.map_eq_some_iff.mp hbox
  obtain ⟨hworking, hfills⟩ := Prod.mk.inj hfilled
  -- the order is filled, and nothing of it works
  have hdone : b.ledger.Done "2" := by
    refine ⟨Option.isNone_iff_eq_none.mp hworking, .inr fun hnil => ?_⟩
    rw [hnil] at hfills
    cases hfills
  -- three requests name the order that is done
  obtain ⟨b', hb', hdone', -, hsame⟩ := done_for_good (fun _ => {}) sampleContracts
    [.add (limitOrder "1" .sell "1" 5), .add (limitOrder "2" .buy "1" 3)]
    [.add (limitOrder "2" .buy "1" 2), .change (limitOrder "2" .buy "1" 2),
      .delete (limitOrder "2" .buy "1" 2)] hb hdone
  refine ⟨b', hb', hdone', ?_⟩
  rw [hsame]
  exact hfills

end TradeSimulater

end FixHandler.Trade
