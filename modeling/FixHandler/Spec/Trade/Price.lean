import Mathlib
import FixHandler.Native.Trade.Contract
import FixHandler.Native.Trade.Simulater

/-!
# Which prices trade with each other

`Crosses` is what `ComparablePrice.isMatch` computes for two prices of opposite
sides. It is symmetric, and along the order of a side it can only get lost:
that is why a walk from the best price on may stop at the first price that does
not match. The second part says what the check of an order promises of its
price.

## Key results

- `isMatch_eq`: on opposite sides `isMatch` decides `Crosses`
- `Crosses.symm`, `Crosses.of_le`
- `sound_of_checkOrder`: an order that passes the check is `Sound`
-/

namespace FixHandler.Trade

open Cxx (Binary64 Exception)
open Ems (Order)

namespace ComparablePrice

/-- Prices of opposite sides at which a trade happens. -/
def Crosses (q p : ComparablePrice) : Prop :=
  q.isBuy ≠ p.isBuy ∧
    (q.price = 0 ∧ p.price ≠ 0 ∨ q.price ≠ 0 ∧ p.price = 0 ∨
      q.price ≠ 0 ∧ p.price ≠ 0 ∧ (if q.isBuy then p.price ≤ q.price else q.price ≤ p.price))

instance (q p : ComparablePrice) : Decidable (Crosses q p) := by
  unfold Crosses; infer_instance

/-- The comparison of prices of both sides decides whether they cross. -/
theorem isMatch_eq {q p : ComparablePrice} (h : q.isBuy ≠ p.isBuy) :
    q.isMatch p = .ok (decide (Crosses q p)) := by
  obtain ⟨b, q⟩ := q
  obtain ⟨c, p⟩ := p
  have hbc : (b == c) = false := by simpa using h
  simp only [isMatch, hbc, Bool.false_eq_true, if_false, isMarket, beq_iff_eq, Bool.and_eq_true,
    Bool.or_eq_true, Crosses]
  have hne : b ≠ c := h
  by_cases hq : q = 0 <;> by_cases hp : p = 0 <;> simp only [hq, hp, hne, and_self, if_true,
    ne_eq, not_true_eq_false, not_false_eq_true, and_false, false_and, or_false, or_true, if_false,
    decide_false, decide_true, true_and, and_true, false_or]
  by_cases hqp : q = p
  · subst hqp; cases b <;> simp
  · simp only [hqp, if_false]
    have hnat : q.toNat ≠ p.toNat := fun h => hqp (UInt32.toNat_inj.mp h)
    cases b <;> simp [UInt32.lt_iff_toNat_lt, UInt32.le_iff_toNat_le] <;> omega

/-- Crossing does not depend on which order came first. -/
theorem Crosses.symm {q p : ComparablePrice} (h : Crosses q p) : Crosses p q := by
  obtain ⟨b, q⟩ := q
  obtain ⟨c, p⟩ := p
  obtain ⟨hne, h⟩ := h
  refine ⟨hne.symm, ?_⟩
  cases b <;> cases c <;> simp_all <;> tauto

/-- Two market prices never trade. -/
theorem not_crosses_market {q p : ComparablePrice} (hq : q.price = 0) (hp : p.price = 0) :
    ¬ Crosses q p := by
  rintro ⟨-, h | h | h⟩ <;> simp_all

/-- A better price of the same side trades too, unless both prices are market prices. -/
theorem Crosses.of_le {q : ComparablePrice} {isBuy : Bool} {a b : SidePrice isBuy}
    (h : Crosses q b.toComparable) (hab : a ≤ b) (hm : ¬ (q.price = 0 ∧ a.price = 0)) :
    Crosses q a.toComparable := by
  obtain ⟨c, q⟩ := q
  obtain ⟨a⟩ := a
  obtain ⟨b⟩ := b
  obtain ⟨hne, h⟩ := h
  refine ⟨hne, ?_⟩
  have hab : SidePrice.rank (⟨a⟩ : SidePrice isBuy) ≤ SidePrice.rank (⟨b⟩ : SidePrice isBuy) := hab
  have ha := a.toNat_lt
  have hb := b.toNat_lt
  simp only [SidePrice.toComparable] at hne h hm ⊢
  -- in numbers, where a market order has the price zero
  have hzero : ∀ p : UInt32, p = 0 ↔ p.toNat = 0 := fun p => by rw [← UInt32.toNat_inj]; rfl
  cases isBuy <;> cases c <;> simp only [SidePrice.rank, ne_eq, hzero, UInt32.le_iff_toNat_le,
    Bool.false_eq_true, if_true, if_false, not_true_eq_false] at hne hab h hm ⊢
  · omega
  · split_ifs at hab <;> omega

end ComparablePrice

/-- The price of an order whose text is known to be a number. -/
def priceOf (o : Order) : ComparablePrice :=
  match ComparablePrice.ofOrder o with
  | .ok cp => cp
  | .error _ => ⟨false, 0⟩

/-- A price that can be read is the price of the order. -/
theorem priceOf_eq {o : Order} {cp : ComparablePrice} (h : ComparablePrice.ofOrder o = .ok cp) :
    priceOf o = cp := by
  simp [priceOf, h]

/-- A price is on the side of its order. -/
@[simp] theorem isBuy_priceOf_of_ok {o : Order} {cp : ComparablePrice}
    (h : ComparablePrice.ofOrder o = .ok cp) : cp.isBuy = (o.buySell == .buy) := by
  simp only [ComparablePrice.ofOrder, bind, Except.bind] at h
  split at h
  · exact nomatch h
  · cases h; rfl

/-- What trading and replacing leave alone: the order has a side and a type, its
    price is a number, and it is the market price exactly for a market order. -/
structure Sound (o : Order) : Prop where
  priced : ComparablePrice.ofOrder o = .ok (priceOf o)
  side : o.buySell ≠ .none
  typed : o.orderType ≠ .none
  market : o.orderType = .market ↔ (priceOf o).price = 0

/-- The price of a sound order is on the order's side. -/
theorem Sound.isBuy {o : Order} (h : Sound o) : (priceOf o).isBuy = (o.buySell == .buy) :=
  isBuy_priceOf_of_ok h.priced

/-- A price that is a multiple of a hundredth is zero when its hundredths are. -/
private theorem eq_zero_iff_toOrderPrice {price : Binary64}
    (h : price.eq (.fin 0) = true ∨ price.eq (toRealPrice (toOrderPrice price)) = true) :
    price.eq (.fin 0) = true ↔ toOrderPrice price = 0 := by
  constructor
  · intro h0
    cases price with
    | nan => simp [Binary64.eq] at h0
    | inf b => simp [Binary64.eq] at h0
    | fin q =>
      have : q = 0 := by simpa using h0
      subst this
      -- zero times hundred is rounded to zero
      have h100 : Binary64.ofNat 100 = .fin 100 := by decide +kernel
      simp [toOrderPrice, h100]
  · intro h0
    have hreal : toRealPrice 0 = .fin 0 := by decide +kernel
    rw [h0, hreal] at h
    exact h.elim id id

/-- What the contract's check says of an order it lets pass. -/
theorem contractAssist_checkOrder_normal {a : TradeContractAssist} {o : Order}
    (h : a.checkOrder o = .ok .normal) :
    (∃ tc, a.contracts[o.contract]? = some tc) ∧
      ∃ price, Cxx.stod o.price = .ok price ∧
        (price.eq (.fin 0) = true ∨ price.eq (toRealPrice (toOrderPrice price)) = true) := by
  simp only [TradeContractAssist.checkOrder] at h
  cases htc : a.contracts[o.contract]? with
  | none => simp [htc, pure, Except.pure] at h
  | some tc =>
    refine ⟨⟨tc, rfl⟩, ?_⟩
    cases hstod : Cxx.stod o.price with
    | error e => simp [htc, hstod, bind, Except.bind] at h
    | ok price =>
      refine ⟨price, rfl, ?_⟩
      simp only [htc, hstod, bind, Except.bind, pure, Except.pure] at h
      -- a price is zero, or a multiple of the smallest price
      by_cases h0 : price.eq (.fin 0) = true
      · exact .inl h0
      · by_cases hreal : price.eq (toRealPrice (toOrderPrice price)) = true
        · exact .inr hreal
        · simp [h0, hreal] at h

/-- An order that passes the check of a request is sound, asks for something, and
    is for a contract that is loaded. -/
theorem sound_of_checkOrder {a : TradeContractAssist} {o : Order}
    (h : TradeSimulater.checkOrder a o = .ok "") :
    Sound o ∧ o.quantity ≠ 0 ∧ ∃ tc, a.contracts[o.contract]? = some tc := by
  simp only [TradeSimulater.checkOrder] at h
  cases hc : a.checkOrder o with
  | error e => simp [hc, bind, Except.bind] at h
  | ok st =>
    simp only [hc, bind, Except.bind, pure, Except.pure] at h
    cases st with
    | contractNotExist => simp [Message.contractNotFound] at h
    | priceTooLow => simp [Message.orderPriceTooLow] at h
    | priceTooHigh => simp [Message.orderPriceTooHigh] at h
    | invalidPrice => simp [Message.orderPriceInvalid] at h
    | normal =>
      obtain ⟨htc, price, hstod, hreal⟩ := contractAssist_checkOrder_normal hc
      -- the price is zero in one form if it is in the other
      have hzero := eq_zero_iff_toOrderPrice hreal
      have hof : ComparablePrice.ofOrder o = .ok ⟨o.buySell == .buy, toOrderPrice price⟩ := by
        simp [ComparablePrice.ofOrder, hstod, bind, Except.bind, pure, Except.pure]
      simp only [hstod] at h
      cases hot : o.orderType with
      | none => simp [hot, Message.orderTypeInvalid] at h
      | limit =>
        have hbs : o.buySell ≠ .none := by rintro hbs; simp [hot, hbs, Message.orderBsInvalid] at h
        -- a limit order has a price, and a market order has none
        have hne : price.eq (.fin 0) = false := by
          by_contra hne
          simp only [Bool.not_eq_false] at hne
          simp [hot, hbs, hne, Message.limitOrderPriceInvalid] at h
        have hq : o.quantity ≠ 0 := by
          rintro hq; simp [hot, hbs, hne, hq, Message.orderQuantityInvalid] at h
        refine ⟨⟨?_, hbs, by simp [hot], ?_⟩, hq, htc⟩
        · rw [priceOf_eq hof, hof]
        · rw [priceOf_eq hof, hot]
          simp only [reduceCtorEq, false_iff]
          rw [← hzero, hne]; exact Bool.false_ne_true
      | market =>
        have hbs : o.buySell ≠ .none := by rintro hbs; simp [hot, hbs, Message.orderBsInvalid] at h
        have he : price.eq (.fin 0) = true := by
          by_contra he
          simp only [Bool.not_eq_true] at he
          simp [hot, hbs, he, Message.marketOrderPriceInvalid] at h
        have hq : o.quantity ≠ 0 := by
          rintro hq; simp [hot, hbs, he, hq, Message.orderQuantityInvalid] at h
        refine ⟨⟨?_, hbs, by simp [hot], ?_⟩, hq, htc⟩
        · rw [priceOf_eq hof, hof]
        · rw [priceOf_eq hof]
          simpa [hot] using hzero.mp he

end FixHandler.Trade
