import Mathlib
import FixHandler.Native.Trade.MarketState
import FixHandler.Spec.Trade.Ledger

/-!
# The published book follows the ledger

`Agrees` says that the published book of a contract holds, at every limit price,
the quantity that works there, and has no entry where nothing works. Each action
of the ledger comes with a change of the published book (`Act.market`). Where the
two agree that change succeeds, and while the quantity at every price fits 64
bits it keeps the agreement.

## Key results

- `Agrees.apply`: one action and its change of the published book
- `Agrees.marketRun`: a run of them, of which the last may add to the book
-/

namespace FixHandler.Trade

open Cxx (Exception)
open Ems (Order)

/-- What the published book of a ledger shows at a price. -/
def Ledger.published (b : Ledger) (cp : ComparablePrice) : Option Nat :=
  if cp.price = 0 ∨ b.total cp = 0 then none else some (b.total cp)

/-- The quantity at every limit price fits 64 bits. -/
def Ledger.Fits (b : Ledger) : Prop :=
  ∀ cp : ComparablePrice, cp.price ≠ 0 → b.total cp < 2 ^ 64

/-- The change of the published book that goes with an action. -/
def Act.market (m : TradeMarketState) : Act → Except Exception (TradeMarketState × Nat)
  | .trade _ w _ q _ => m.onOrderFilled w q
  | .rest o => m.onOrderCreated o
  | .archive _ => .ok (m, 0)
  | .cancel w => m.onOrderDeleted w
  | .withdraw w => m.onOrderDeleted w

namespace TradeMarketState

/-- The published book shows what works. -/
def Agrees (m : TradeMarketState) (b : Ledger) : Prop :=
  ∀ cp, (m.get? cp).map UInt64.toNat = b.published cp

/-- Without orders nothing is published. -/
theorem Agrees.empty (contractName contract : String) (depth : UInt32) :
    Agrees { contractName, depth } { contract } := by
  intro cp
  simp [Ledger.published, Ledger.total]

/-- Taking off a working order's price what the ledger takes off it. -/
private theorem Agrees.deleteOrder {m : TradeMarketState} {b b' : Ledger} (h : m.Agrees b)
    {w : Order} (hs : Sound w) {q : OrderSize} (hq : q ≠ 0)
    (ht : ∀ cp, b'.total cp + (if cp = priceOf w then q.toNat else 0) = b.total cp) :
    ∃ m' n, m.deleteOrder w q = .ok (m', n) ∧ m'.Agrees b' := by
  -- other prices keep their totals
  have hother : ∀ cp, cp ≠ priceOf w → b'.published cp = b.published cp := by
    intro cp hcp
    have := ht cp
    rw [if_neg hcp, Nat.add_zero] at this
    simp [Ledger.published, this]
  have hown := ht (priceOf w)
  rw [if_pos rfl] at hown
  have hq' : q.toNat ≠ 0 := fun h0 => hq (UInt64.toNat_inj.mp h0)
  by_cases hm : w.orderType = .market
  · -- a market order does not show
    have hz := hs.market.mp hm
    refine ⟨m, 0, by simp [TradeMarketState.deleteOrder, hm, pure, Except.pure], fun cp => ?_⟩
    by_cases hcp : cp = priceOf w
    · rw [h cp, hcp]
      simp [Ledger.published, hz]
    · rw [h cp, hother cp hcp]
  · -- the price of a limit order shows, with at least this quantity
    have hz : (priceOf w).price ≠ 0 := fun hz => hm (hs.market.mpr hz)
    have hget := h (priceOf w)
    rw [Ledger.published, if_neg (not_or.mpr ⟨hz, by omega⟩)] at hget
    cases hcur : m.get? (priceOf w) with
    | none => simp [hcur] at hget
    | some current =>
      rw [hcur] at hget
      simp only [Option.map_some, Option.some.injEq] at hget
      have hle : q ≤ current := UInt64.le_iff_toNat_le.mpr (by omega)
      have hsub := UInt64.toNat_sub_of_le _ _ hle
      refine ⟨_, _, by
        simp only [TradeMarketState.deleteOrder, beq_iff_eq, hm, if_false, hs.priced, hcur, bind,
          Except.bind, pure, Except.pure]
        rfl, fun cp => ?_⟩
      by_cases hcp : cp = priceOf w
      · subst hcp
        by_cases hsize : current - q = 0
        · -- nothing is left at the price, and it is erased
          have h0 : b'.total (priceOf w) = 0 := by
            rw [hsize, UInt64.toNat_zero] at hsub
            omega
          simp [hsize, SideMaps.get?_erase, Ledger.published, h0]
        · have h0 : b'.total (priceOf w) ≠ 0 := by
            intro h0
            apply hsize
            apply UInt64.toNat_inj.mp
            rw [hsub, UInt64.toNat_zero]
            omega
          simp only [hsize, if_false, SideMaps.get?_insert, if_true, Option.map_some,
            Ledger.published, hz, h0, or_self, hsub, Option.some.injEq]
          omega
      · rw [hother cp hcp, ← h cp]
        split <;> simp [SideMaps.get?_erase, SideMaps.get?_insert, hcp]

/-- Adding to a price what a new order adds to it. -/
private theorem Agrees.onOrderCreated {m : TradeMarketState} {b b' : Ledger} (h : m.Agrees b)
    {o : Order} (hs : Sound o) (hq : o.quantity ≠ 0)
    (ht : ∀ cp, b'.total cp = b.total cp + (if cp = priceOf o then o.quantity.toNat else 0)) :
    ∃ m' n, m.onOrderCreated o = .ok (m', n) ∧ (b'.Fits → m'.Agrees b') := by
  -- other prices keep their totals
  have hother : ∀ cp, cp ≠ priceOf o → b'.published cp = b.published cp := by
    intro cp hcp
    have := ht cp
    rw [if_neg hcp, Nat.add_zero] at this
    simp [Ledger.published, this]
  have hown := ht (priceOf o)
  rw [if_pos rfl] at hown
  have hq' : o.quantity.toNat ≠ 0 := fun h0 => hq (UInt64.toNat_inj.mp h0)
  by_cases hm : o.orderType = .market
  · -- a market order does not show
    have hz := hs.market.mp hm
    refine ⟨m, 0, by simp [TradeMarketState.onOrderCreated, hm, pure, Except.pure], fun _ cp => ?_⟩
    by_cases hcp : cp = priceOf o
    · rw [h cp, hcp]
      simp [Ledger.published, hz]
    · rw [h cp, hother cp hcp]
  · have hz : (priceOf o).price ≠ 0 := fun hz => hm (hs.market.mpr hz)
    have hget := h (priceOf o)
    refine ⟨_, _, by
      simp only [TradeMarketState.onOrderCreated, beq_iff_eq, hm, if_false, hs.priced, bind,
        Except.bind, pure, Except.pure]
      rfl, fun hfits cp => ?_⟩
    -- the new total fits into a size
    have hbound := hfits (priceOf o) hz
    by_cases hcp : cp = priceOf o
    · subst hcp
      have h0 : b'.total (priceOf o) ≠ 0 := by omega
      simp only [SideMaps.get?_insert, if_true, Option.map_some, Ledger.published, hz, h0, or_self,
        if_false, Option.some.injEq]
      cases hcur : m.get? (priceOf o) with
      | none =>
        rw [hcur, Ledger.published] at hget
        -- the price did not show, so nothing worked there
        have : b.total (priceOf o) = 0 := by
          by_contra hne
          simp [hz, hne] at hget
        simp only
        omega
      | some current =>
        rw [hcur, Ledger.published] at hget
        split at hget
        · exact nomatch hget
        · simp only [Option.map_some, Option.some.injEq] at hget
          simp only [UInt64.toNat_add]
          omega
    · rw [hother cp hcp, ← h cp]
      simp [SideMaps.get?_insert, hcp]

/-- The change of the published book that goes with an allowed action succeeds. It
    keeps the agreement unless it adds to a quantity that then no longer fits. -/
theorem Agrees.apply {m : TradeMarketState} {b : Ledger} (h : m.Agrees b) (hb : b.WF) {a : Act}
    (hg : b.guard a) :
    ∃ m' n, a.market m = .ok (m', n) ∧
      ((∀ cp, Ledger.added cp a = 0) ∨ (b.apply a).Fits → m'.Agrees (b.apply a)) := by
  have ht := fun cp => Ledger.total_apply hb hg cp
  cases a with
  | trade o w f q p =>
    obtain ⟨m', n, hm, ha⟩ := h.deleteOrder (hb.working hg.1).toSound hg.2.1 ht
    exact ⟨m', n, hm, fun _ => ha⟩
  | rest o =>
    obtain ⟨m', n, hm, ha⟩ := h.onOrderCreated hg.1 hg.2.1 ht
    refine ⟨m', n, hm, fun hor => ha (hor.resolve_left fun h0 => hg.2.1 ?_)⟩
    -- an order that adds nothing would have no quantity
    have := h0 (priceOf o)
    rw [Ledger.added, if_pos rfl] at this
    exact UInt64.toNat_inj.mp this
  | archive o =>
    exact ⟨m, 0, rfl, fun _ => h⟩
  | cancel w =>
    obtain ⟨m', n, hm, ha⟩ := h.deleteOrder (hb.working hg).toSound (hb.working hg).quantity ht
    exact ⟨m', n, hm, fun _ => ha⟩
  | withdraw w =>
    obtain ⟨m', n, hm, ha⟩ := h.deleteOrder (hb.working hg).toSound (hb.working hg).quantity ht
    exact ⟨m', n, hm, fun _ => ha⟩

end TradeMarketState

/-- The changes of the published book for a list of actions. -/
def marketRun (m : TradeMarketState) : List Act → Except Exception TradeMarketState
  | [] => .ok m
  | a :: as =>
    match a.market m with
    | .ok (m', _) => marketRun m' as
    | .error e => .error e

/-- The changes of the book go one after the other. -/
theorem marketRun_append (m : TradeMarketState) (as bs : List Act) :
    marketRun m (as ++ bs) =
      match marketRun m as with
      | .ok m' => marketRun m' bs
      | .error e => .error e := by
  induction as generalizing m with
  | nil => rfl
  | cons a as ih =>
    simp only [List.cons_append, marketRun]
    cases a.market m with
    | ok r => exact ih r.1
    | error e => rfl

/-- For a run of which only the last action may add to the book, every change of the
    published book succeeds, and if in the end everything fits the two agree. -/
theorem TradeMarketState.Agrees.marketRun {m : TradeMarketState} {b : Ledger} (h : m.Agrees b)
    (hb : b.WF) {as : List Act} (hr : Ledger.machine.Runs b as)
    (hadd : ∀ a ∈ as.dropLast, ∀ cp, Ledger.added cp a = 0) :
    ∃ m', marketRun m as = .ok m' ∧
      ((Ledger.machine.exec b as).Fits → m'.Agrees (Ledger.machine.exec b as)) := by
  induction as generalizing m b with
  | nil => exact ⟨m, rfl, fun _ => h⟩
  | cons a as ih =>
    obtain ⟨m₁, n, hm₁, ha⟩ := h.apply hb hr.1
    cases as with
    | nil =>
      refine ⟨m₁, ?_, fun hfits => ha (.inr hfits)⟩
      simp only [FixHandler.Trade.marketRun, hm₁]
    | cons a' as =>
      have hrest : ∀ a ∈ (a' :: as).dropLast, ∀ cp, Ledger.added cp a = 0 := by
        intro a₁ ha₁
        exact hadd a₁ (by rw [List.dropLast_cons_cons]; exact List.mem_cons_of_mem _ ha₁)
      -- only the last action adds an order, so that the totals fit before it
      have hfirst : ∀ cp, Ledger.added cp a = 0 :=
        hadd a (by rw [List.dropLast_cons_cons]; exact List.mem_cons_self)
      obtain ⟨m', hm', ha'⟩ := ih (ha (.inl hfirst)) (hb.apply hr.1) hr.2 hrest
      refine ⟨m', ?_, ha'⟩
      simp only [FixHandler.Trade.marketRun, hm₁] at hm' ⊢
      exact hm'

end FixHandler.Trade
