import Mathlib
import FixHandler.Spec.Trade.AlgorithmCorrect

/-!
# The order of the levels

The operator `<` of `ComparablePrice` sorts the levels of a side, and the walk of an incoming order
over the other side skips a level and stops at one. Both are right because a price that is matched
is so at every better price.

## Key results

- `Better`: the operator `<` on the prices of a side, a strict weak order
- `isMatch_of_better`: what matches a price matches a better one
- `matchLevels_eq_fillLevels`: the walk is over the levels that match, and over all of them
- `sound_key`
-/

namespace FixHandler.Trade

open Cxx (Exception Heap Ptr)
open Ems (Order)
open TradeAlgorithmSimple (matchQueue matchLevels)

namespace ComparablePrice

/-- The operator `<` says that `p` is better than `q` on a side. -/
def Better (isBuy : Bool) (p q : OrderPrice) : Prop :=
  (⟨isBuy, p⟩ : ComparablePrice).lt ⟨isBuy, q⟩ = .ok true

/-- The comparison orders the keys of a side. -/
theorem better_iff {isBuy : Bool} {p q : OrderPrice} :
    Better isBuy p q ↔ (⟨p⟩ : SidePrice isBuy) < ⟨q⟩ := by
  have hlt := SidePrice.lt_toComparable (⟨p⟩ : SidePrice isBuy) ⟨q⟩
  unfold Better
  show (SidePrice.toComparable (⟨p⟩ : SidePrice isBuy)).lt (SidePrice.toComparable ⟨q⟩) = _ ↔ _
  rw [hlt, Except.ok.injEq, decide_eq_true_eq]

/-- A price that is not better is as good or worse. -/
theorem not_better_iff {isBuy : Bool} {p q : OrderPrice} :
    ¬ Better isBuy p q ↔ (⟨q⟩ : SidePrice isBuy) ≤ ⟨p⟩ := by
  rw [better_iff, not_lt]

/-- Equal prices of a side are one key. -/
theorem eq_iff {isBuy : Bool} {p q : OrderPrice} :
    (⟨isBuy, p⟩ : ComparablePrice).eq ⟨isBuy, q⟩ = .ok true ↔ p = q := by
  simp [eq]

/-- Prices of which none is better are equal. -/
theorem incomparable_iff {isBuy : Bool} {p q : OrderPrice} :
    ¬ Better isBuy p q ∧ ¬ Better isBuy q p ↔
      (⟨isBuy, p⟩ : ComparablePrice).eq ⟨isBuy, q⟩ = .ok true := by
  rw [not_better_iff, not_better_iff, and_comm, ← le_antisymm_iff, SidePrice.mk.injEq, eq_iff]

instance isStrictWeakOrder_better (isBuy : Bool) : IsStrictWeakOrder OrderPrice (Better isBuy) where
  irrefl p h := (better_iff.mp h).ne rfl
  trans p q r hpq hqr := better_iff.mpr ((better_iff.mp hpq).trans (better_iff.mp hqr))
  incomp_trans p q r hpq hqr := by
    rw [incomparable_iff, eq_iff] at *
    exact hpq.trans hqr

/-- The market price comes first. -/
theorem better_market {isBuy : Bool} {p : OrderPrice} (h : p ≠ 0) : Better isBuy 0 p := by
  have hmarket : (p == 0) = false := beq_eq_false_iff_ne.mpr h
  simp [Better, lt, isMarket, hmarket]

/-- What matches a price matches a better one, unless that and it are market prices. -/
theorem isMatch_of_better {isBuy : Bool} {q : ComparablePrice} {a b : OrderPrice}
    (hside : q.isBuy ≠ isBuy) (hab : Better isBuy a b) (hb : q.isMatch ⟨isBuy, b⟩ = .ok true) :
    q.isMatch ⟨isBuy, a⟩ = .ok true ∨ q.isMarket = true ∧ (⟨isBuy, a⟩ : ComparablePrice).isMarket := by
  by_cases hm : q.price = 0 ∧ a = 0
  · right
    simpa [isMarket] using hm
  · left
    have hcrosses : Crosses q (SidePrice.toComparable (⟨b⟩ : SidePrice isBuy)) := by
      rw [isMatch_eq hside, Except.ok.injEq, decide_eq_true_eq] at hb
      exact hb
    have hbetter := hcrosses.of_le (better_iff.mp hab).le hm
    rw [isMatch_eq hside, Except.ok.injEq, decide_eq_true_eq]
    exact hbetter

end ComparablePrice

open ComparablePrice

/-- The walk over levels that all match: one queue after the other, until nothing is left -/
def fillLevels {isBuy : Bool} (heap : Heap Order) (orderPrice : ComparablePrice) :
    List (SidePrice isBuy × List Ptr) → OrderSize → List MatchedOrder →
      Except Exception (OrderSize × List MatchedOrder)
  | [], orderSize, matched => return (orderSize, matched)
  | (p, queue) :: levels, orderSize, matched => do
    let (orderSize, matched, done) ←
      matchQueue heap orderPrice p.toComparable queue orderSize matched
    if done then return (orderSize, matched)
    fillLevels heap orderPrice levels orderSize matched

/-- The levels that an order matches -/
def matchable {isBuy : Bool} (orderPrice : ComparablePrice)
    (levels : List (SidePrice isBuy × List Ptr)) : List (SidePrice isBuy × List Ptr) :=
  levels.filter fun level => orderPrice.isMatch level.1.toComparable matches .ok true

/-- Behind a level that does not match, and at which the order and the level are not both of the
    market, no level matches. -/
theorem matchable_eq_nil {isBuy : Bool} {orderPrice : ComparablePrice} {p : SidePrice isBuy}
    {levels : List (SidePrice isBuy × List Ptr)} (hside : orderPrice.isBuy ≠ isBuy)
    (hsorted : ∀ level ∈ levels, Better isBuy p.price level.1.price)
    (hno : orderPrice.isMatch p.toComparable ≠ .ok true)
    (hmarket : ¬ (orderPrice.isMarket = true ∧ p.toComparable.isMarket = true)) :
    matchable orderPrice levels = [] := by
  refine List.filter_eq_nil_iff.mpr fun level hlevel hmatch => ?_
  have hok : orderPrice.isMatch level.1.toComparable = .ok true := by
    split at hmatch
    · assumption
    · exact nomatch hmatch
  rcases isMatch_of_better hside (hsorted level hlevel) hok with h | h
  · exact hno h
  · exact hmarket h

/-- The walk misses no level that matches, and visits no other one. -/
theorem matchLevels_eq_fillLevels {isBuy : Bool} (heap : Heap Order) {orderPrice : ComparablePrice}
    (hside : orderPrice.isBuy ≠ isBuy) {levels : List (SidePrice isBuy × List Ptr)}
    (hsorted : levels.Pairwise fun a b => Better isBuy a.1.price b.1.price)
    (orderSize : OrderSize) (matched : List MatchedOrder) :
    matchLevels heap orderPrice levels orderSize matched =
      fillLevels heap orderPrice (matchable orderPrice levels) orderSize matched := by
  induction levels generalizing orderSize matched with
  | nil => rfl
  | cons level levels ih =>
    obtain ⟨p, queue⟩ := level
    rw [List.pairwise_cons] at hsorted
    have hmatch : orderPrice.isMatch p.toComparable =
        .ok (decide (Crosses orderPrice p.toComparable)) := isMatch_eq hside
    by_cases hmarket : orderPrice.isMarket = true ∧ p.toComparable.isMarket = true
    · -- the level is skipped, and it does not match
      have hno : ¬ Crosses orderPrice p.toComparable :=
        not_crosses_market (beq_iff_eq.mp hmarket.1) (beq_iff_eq.mp hmarket.2)
      have hfilter : matchable orderPrice ((p, queue) :: levels) = matchable orderPrice levels := by
        simp [matchable, hmatch, hno]
      rw [hfilter, ← ih hsorted.2]
      simp [matchLevels, hmarket]
    · -- not both prices are those of market orders
      have hskip : (orderPrice.isMarket && p.toComparable.isMarket) = false := by
        rw [← Bool.not_eq_true, Bool.and_eq_true]
        exact hmarket
      by_cases hcrosses : Crosses orderPrice p.toComparable
      · have hfilter : matchable orderPrice ((p, queue) :: levels) =
            (p, queue) :: matchable orderPrice levels := by
          simp [matchable, hmatch, hcrosses]
        rw [hfilter]
        simp only [matchLevels, fillLevels, hskip, hmatch, hcrosses, decide_true, ih hsorted.2]
        rfl
      · -- the walk stops here, and nothing behind it matches
        have hfilter : matchable orderPrice ((p, queue) :: levels) = matchable orderPrice levels := by
          simp [matchable, hmatch, hcrosses]
        have hnil := matchable_eq_nil hside hsorted.1 (by rw [hmatch]; simp [hcrosses]) hmarket
        rw [hfilter, hnil]
        simp only [matchLevels, fillLevels, hskip, hmatch, hcrosses, decide_false]
        rfl

/-- `ComparablePrice` is a sound key of a side: `<` is a strict weak order, total up to `==`, with
    the market price first. What matches a price of the side matches a better one, so that the walk
    over sorted levels fills from all levels that match. -/
theorem sound_key (isBuy : Bool) :
    IsStrictWeakOrder OrderPrice (Better isBuy) ∧
    (∀ p q, ¬ Better isBuy p q ∧ ¬ Better isBuy q p ↔
      (⟨isBuy, p⟩ : ComparablePrice).eq ⟨isBuy, q⟩ = .ok true) ∧
    (∀ p : OrderPrice, p ≠ 0 → Better isBuy 0 p) ∧
    (∀ q : ComparablePrice, q.isBuy ≠ isBuy → ∀ a b, Better isBuy a b →
      q.isMatch ⟨isBuy, b⟩ = .ok true →
      q.isMatch ⟨isBuy, a⟩ = .ok true ∨
        q.isMarket = true ∧ (⟨isBuy, a⟩ : ComparablePrice).isMarket = true) ∧
    ∀ (heap : Heap Order) (q : ComparablePrice) (levels : List (SidePrice isBuy × List Ptr)),
      q.isBuy ≠ isBuy → (levels.Pairwise fun a b => Better isBuy a.1.price b.1.price) →
      ∀ orderSize matched, matchLevels heap q levels orderSize matched =
        fillLevels heap q (matchable q levels) orderSize matched :=
  ⟨isStrictWeakOrder_better isBuy, fun _ _ => incomparable_iff, fun _ => better_market,
    fun _ hside _ _ => isMatch_of_better hside,
    fun heap _ _ hside hsorted => matchLevels_eq_fillLevels heap hside hsorted⟩

/-- Buy orders for 1, 2, 4 and 8 -/
private def pricedOrders : Heap Order :=
  [1, 2, 4, 8].foldl
    (fun heap quantity => (heap.alloc { clientOrderId := "b", buySell := .buy, quantity }).1)
    Heap.empty

/-- They rest at the market price, at 12, at 10 and at 9. -/
private def pricedLevels : List (SidePrice true × List Ptr) :=
  [(⟨0⟩, [0]), (⟨12⟩, [1]), (⟨10⟩, [2]), (⟨9⟩, [3])]

/-- A sell order for 10 at the price 10 is filled from all levels but the last. -/
theorem sound_key_sell :
    (∃ p : OrderPrice, p ≠ 0 ∧ Better true 0 p) ∧
    (⟨false, 10⟩ : ComparablePrice).isMatch ⟨true, 12⟩ = .ok true ∧
    matchLevels pricedOrders ⟨false, 10⟩ pricedLevels 10 [] =
      fillLevels pricedOrders ⟨false, 10⟩ (matchable ⟨false, 10⟩ pricedLevels) 10 [] ∧
    matchLevels pricedOrders ⟨false, 10⟩ pricedLevels 10 [] =
      .ok (3, [⟨0, 10, 1⟩, ⟨1, 12, 2⟩, ⟨2, 10, 4⟩]) := by
  obtain ⟨-, -, hmarket, hmatch, hwalk⟩ := sound_key true
  have hsorted : pricedLevels.Pairwise fun a b => Better true a.1.price b.1.price := by
    simp [pricedLevels, Better, ComparablePrice.lt, isMarket]
  refine ⟨⟨12, by decide, hmarket 12 (by decide)⟩, ?_, ?_, by decide +kernel⟩
  · exact (hmatch ⟨false, 10⟩ (by decide) 12 10 rfl rfl).resolve_right (by decide)
  · exact hwalk _ _ _ (by decide) hsorted 10 []

end FixHandler.Trade
