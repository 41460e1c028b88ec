import Mathlib
import FixHandler.Spec.Trade.SimulaterCorrect

/-!
# The published book and the working orders

`TradeMarketState` keeps the quantity at each price in a map of its own, which
the simulater updates at other moments than the order box. In every state of
every run the two agree, as long as no quantity at a price outgrows 64 bits.

## Key results

- `sum_workingAt`: the quantity of a ledger at a price is the sum over the
  working orders
- `agrees_run`: agreement in every state of a run, and no exception on the way
- `published_book_eq_working_orders`: the statement about the maps themselves
- `fits_of_requests`: the bound holds if all quantities asked for fit together
-/

namespace FixHandler.Trade

open Cxx (Exception Heap Ptr)
open Ems (Order)

namespace TradeOrderBox

/-- The working limit orders of a side at a price. -/
def workingAt (b : TradeOrderBox) (cp : ComparablePrice) : List Order :=
  b.workingWhere fun o => o.orderType == .limit && decide (ComparablePrice.ofOrder o = .ok cp)

/-- Their quantity. -/
def workingTotal (b : TradeOrderBox) (cp : ComparablePrice) : Nat :=
  ((b.workingAt cp).map (·.quantity.toNat)).sum

/-- The working limit orders at a limit price are those of the ledger. -/
private theorem mem_workingAt {b : TradeOrderBox} (hb : b.WF) {cp : ComparablePrice}
    (hcp : cp.price ≠ 0) {o : Order} :
    o ∈ b.workingAt cp ↔ b.ledger.working o.clientOrderId = some o ∧ priceOf o = cp := by
  rw [workingAt, mem_workingWhere hb.toRep, Bool.and_eq_true, beq_iff_eq, decide_eq_true_eq]
  constructor
  · rintro ⟨hw, -, hprice⟩
    exact ⟨hw, priceOf_eq hprice⟩
  · rintro ⟨hw, rfl⟩
    have hl := hb.ledger.working hw
    refine ⟨hw, ?_, hl.priced⟩
    cases hot : o.orderType with
    | none => exact absurd hot hl.typed
    | limit => rfl
    | market => exact absurd (hl.market.mp hot) hcp

/-- At a limit price the quantity of the ledger is the sum over the working orders. -/
theorem sum_workingAt {b : TradeOrderBox} (hb : b.WF) {cp : ComparablePrice}
    (hcp : cp.price ≠ 0) : b.workingTotal cp = b.ledger.total cp := by
  -- the working orders at a price are those that are queued there
  have hperm : ((b.workingAt cp).map (·.clientOrderId)).Perm (b.ledger.queue cp) := by
    have hnd : ((b.workingAt cp).map (·.clientOrderId)).Nodup := nodup_workingWhere hb.toRep _
    rw [List.perm_ext_iff_of_nodup hnd (hb.ledger.nodup cp)]
    intro id
    rw [hb.ledger.queued, List.mem_map]
    constructor
    · rintro ⟨o, ho, rfl⟩
      exact ⟨o, (mem_workingAt hb hcp).mp ho⟩
    · rintro ⟨o, ho, hprice⟩
      have hid := (hb.ledger.working ho).id
      exact ⟨o, (mem_workingAt hb hcp).mpr ⟨by rw [hid]; exact ho, hprice⟩, hid⟩
  rw [workingTotal, Ledger.total, ← (hperm.map b.ledger.sizeOf).sum_nat, List.map_map]
  congr 1
  apply List.map_congr_left
  intro o ho
  exact (Ledger.sizeOf_of_working ((mem_workingAt hb hcp).mp ho).1).symm

/-- Nothing works at a limit price of quantity zero. -/
theorem workingAt_eq_nil_iff {b : TradeOrderBox} (hb : b.WF) {cp : ComparablePrice}
    (hcp : cp.price ≠ 0) : b.workingAt cp = [] ↔ b.ledger.total cp = 0 := by
  rw [Ledger.total_eq_zero_iff hb.ledger, List.eq_nil_iff_forall_not_mem,
    List.eq_nil_iff_forall_not_mem]
  constructor
  · intro h id hid
    obtain ⟨o, ho, hprice⟩ := hb.ledger.queued.mp hid
    have := (hb.ledger.working ho).id
    exact h o ((mem_workingAt hb hcp).mpr ⟨by rw [this]; exact ho, hprice⟩)
  · intro h o ho
    exact h o.clientOrderId (hb.ledger.queued.mpr ⟨o, (mem_workingAt hb hcp).mp ho⟩)

end TradeOrderBox

/-- A book that agrees has an entry exactly where a limit order works, of the size that works there,
    and never of size zero. -/
theorem TradeMarketState.Agrees.published {m : TradeMarketState} {b : TradeOrderBox}
    (h : m.Agrees b.ledger) (hb : b.WF) {cp : ComparablePrice} (hcp : cp.price ≠ 0) :
    ((m.get? cp).isSome ↔ b.workingAt cp ≠ []) ∧
      ∀ size, m.get? cp = some size → size.toNat = b.workingTotal cp ∧ size ≠ 0 := by
  have hget := h cp
  rw [Ledger.published] at hget
  rw [ne_eq, TradeOrderBox.workingAt_eq_nil_iff hb hcp, TradeOrderBox.sum_workingAt hb hcp]
  -- nothing works at the price, or the book shows it
  by_cases h0 : b.ledger.total cp = 0
  · rw [if_pos (.inr h0), Option.map_eq_none_iff] at hget
    simp [hget, h0]
  · rw [if_neg (not_or.mpr ⟨hcp, h0⟩)] at hget
    cases hsize : m.get? cp with
    | none => simp [hsize] at hget
    | some size =>
      rw [hsize, Option.map_some, Option.some.injEq] at hget
      refine ⟨by simp [h0], fun size' h => ?_⟩
      cases h
      exact ⟨hget, fun hz => h0 (by rw [← hget, hz]; rfl)⟩

namespace TradeSimulater

/-- The working quantity at every limit price fits 64 bits, for every contract. -/
def Fits (s : TradeSimulater) : Prop :=
  ∀ c b cp, s.box c = some b → cp.price ≠ 0 → b.workingTotal cp < 2 ^ 64

/-- Every published book shows what works. -/
def Agrees (s : TradeSimulater) : Prop :=
  ∀ c b m, s.box c = some b → s.market c = some m → m.Agrees b.ledger

/-- A sum that fits in the box fits in the ledger. -/
theorem Fits.ledger {s : TradeSimulater} (h : s.Fits) (hs : s.WF) {c : String} {b : TradeOrderBox}
    (hb : s.box c = some b) : b.ledger.Fits := by
  intro cp hcp
  rw [← TradeOrderBox.sum_workingAt (hs.box hb).1 hcp]
  exact h c b cp hb hcp

/-- In the beginning both books are empty. -/
theorem Fresh.agrees {s : TradeSimulater} (hs : s.Fresh) : s.Agrees := by
  intro c b m hb hm cp
  rw [hs.market hm, hs.box hb]
  simp [Ledger.published, Ledger.total]

/-- While the two agree no change of the published book throws: an accepted request
    runs to its end. -/
theorem Agrees.shown_eq {s s' : TradeSimulater} (h : s.Agrees) (hs : s.WF) {r : Request}
    {b : TradeOrderBox} (hb : s.box r.order.contract = some b) {acts : List Act}
    (hplan : Plan b.ledger s.fillId (s.pendingOf r) r acts) {shown : List Act} {a : Act}
    (hp : shown ++ [a] <+: acts)
    (hr : Reaches r.order.contract (shown ++ [a]) shown (s.accepted r) s') {m' : TradeMarketState}
    (hm' : s'.market r.order.contract = some m') {e : Exception} : a.market m' ≠ .error e := by
  intro he
  obtain ⟨m, m₁, hm, hm₁, hrun⟩ := hr.market
  rw [market_accepted] at hm
  rw [hm'] at hm₁
  cases hm₁
  have hruns := (hplan.runs (hs.box hb).1.ledger).of_isPrefix hp
  -- along these actions the published book changes without an exception
  obtain ⟨m₂, hm₂, -⟩ := (h _ b m hb hm).marketRun (hs.box hb).1.ledger hruns (by
    intro a' ha' cp
    rw [List.dropLast_concat] at ha'
    apply hplan.added_dropLast a' _ cp
    -- what comes before the last of a prefix comes before the last of the whole
    obtain ⟨rest, rfl⟩ := hp
    rw [List.append_assoc, List.dropLast_append_of_ne_nil (by simp)]
    exact List.mem_append_left _ ha')
  rw [marketRun_append, hrun] at hm₂
  simp only [FixHandler.Trade.marketRun, he] at hm₂
  cases hm₂

/-- One request keeps the agreement. -/
theorem Agrees.step {s : TradeSimulater} (h : s.Agrees) (hs : s.WF) (r : Request)
    (hfits : (s.step r).Fits) : (s.step r).Agrees := by
  cases step_cases hs r with
  | refused hno es hes heq => rw [heq]; exact h
  | served hyes b acts done shown hb hplan hdone hreach hend =>
    rcases hend with ⟨rfl, rfl⟩ | ⟨a, m', e, rfl, hm', he, -⟩
    · intro c b' m' hb' hm'
      by_cases hc : c = r.order.contract
      · subst hc
        obtain ⟨b₀, b₁, hb₀, hb₁, -, hledger⟩ := hreach.box
        obtain ⟨m₀, m₁, hm₀, hm₁, hrun⟩ := hreach.market
        rw [box_accepted, hb] at hb₀
        rw [market_accepted] at hm₀
        rw [hb₁] at hb'
        rw [hm₁] at hm'
        cases hb₀; cases hb'; cases hm'
        -- in the contract of the request the two books change together
        obtain ⟨m₂, hm₂, hagrees⟩ := (h _ b m₀ hb hm₀).marketRun (hs.box hb).1.ledger
          (hplan.runs (hs.box hb).1.ledger) hplan.added_dropLast
        rw [hrun] at hm₂
        cases hm₂
        have hfit := hfits.ledger (hs.step r) hb₁
        rw [hledger] at hfit ⊢
        exact hagrees hfit
      · rw [hreach.frame.box c hc, box_accepted] at hb'
        rw [hreach.frame.market c hc, market_accepted] at hm'
        exact h c b' m' hb' hm'
    · -- the published book threw nothing
      exact absurd he (h.shown_eq hs hb hplan hdone hreach hm')

/-- In every state of a run whose quantities fit, the published books agree with the
    working orders. -/
theorem agrees_run {s : TradeSimulater} (hs : s.WF) (h : s.Agrees) (rs : List Request)
    (hfits : ∀ pre, pre <+: rs → (s.run pre).Fits) : (s.run rs).Agrees := by
  induction rs generalizing s with
  | nil => exact h
  | cons r rs ih =>
    have hstep := h.step hs r (hfits [r] ⟨rs, rfl⟩)
    exact ih (hs.step r) hstep fun pre hpre => hfits (r :: pre) (List.cons_prefix_cons.mpr ⟨rfl, hpre⟩)

/-- A request that ends with an exception was stopped by the check of its order. -/
theorem Agrees.error_of_handle {s s' : TradeSimulater} (h : s.Agrees) (hs : s.WF) {r : Request}
    {e : Exception} (herr : handle r s = .error e s') :
    checkOrder s.contractAssist r.order = .error e ∧ s' = s := by
  cases outcome hs r with
  | rejected hno reason heq => rw [heq] at herr; exact nomatch herr
  | thrown hno e' hcheck heq =>
    rw [heq] at herr
    cases herr
    exact ⟨hcheck, rfl⟩
  | served hyes b acts hb hplan hperf =>
    rw [herr] at hperf
    obtain ⟨shown, a, m', hp, hreach, hm', he⟩ := hperf
    exact absurd he (h.shown_eq hs hb hplan hp hreach hm')

/-! ## Texts of the exceptions -/

/-- The check of an order throws if the price cannot be read, or if the contract has no tick. -/
theorem checkOrder_error {a : TradeContractAssist} {o : Order} {e : Exception}
    (h : checkOrder a o = .error e) :
    Cxx.stod o.price = .error e ∨
      e = .undefined "division by zero" ∧ ∃ tc, a.contracts[o.contract]? = some tc ∧ tc.tick = 0 := by
  -- the exception is that of the contract's check, which reads the price first
  have hassist : ∀ {e}, a.checkOrder o = .error e → Cxx.stod o.price = .error e ∨
      e = .undefined "division by zero" ∧ ∃ tc, a.contracts[o.contract]? = some tc ∧ tc.tick = 0 := by
    intro e h
    simp only [TradeContractAssist.checkOrder, bind, Except.bind, pure, Except.pure, throw,
      throwThe, MonadExceptOf.throw] at h
    split at h
    · next tc htc =>
      split at h
      · next hstod =>
        cases h
        exact .inl hstod
      · split_ifs at h
        all_goals
          next hzero =>
          cases h
          exact .inr ⟨rfl, tc, htc, by simpa using hzero⟩
    · cases h
  simp only [checkOrder, bind, Except.bind, pure, Except.pure] at h
  cases hc : a.checkOrder o with
  | error e' =>
    rw [hc] at h
    cases h
    exact hassist hc
  | ok st =>
    rw [hc] at h
    cases st with
    | normal =>
      -- the price has been read before
      obtain ⟨-, price, hstod, -⟩ := contractAssist_checkOrder_normal hc
      simp only [hstod] at h
      split_ifs at h
    | _ => cases h

/-- The exception of `TradeMarketState::Delete_order` is none of these. -/
theorem checkOrder_ne_price_not_found {a : TradeContractAssist} {o : Order} (text : String) :
    checkOrder a o ≠ .error (.invalidArgument ("price not found: " ++ text)) := by
  intro h
  rcases checkOrder_error h with h | ⟨h, -⟩
  · rcases Cxx.stod_error h with h | h
    · have := congrArg String.toList (Exception.invalidArgument.inj h)
      rw [String.toList_append] at this
      exact absurd (List.cons.inj this).1 (by decide)
    · exact nomatch h
  · exact nomatch h

/-! ## Every run -/

/-- One request adds at most its own quantity to a price. -/
private theorem total_step_le {s : TradeSimulater} (hs : s.WF) (r : Request) {c : String}
    {b b' : TradeOrderBox} (hb : s.box c = some b) (hb' : (s.step r).box c = some b')
    (cp : ComparablePrice) :
    b'.ledger.total cp ≤ b.ledger.total cp + r.order.quantity.toNat := by
  cases box_cases hs r hb hb' with
  | kept hno h =>
    rw [h]
    exact Nat.le_add_right _ _
  | served hyes hc acts done hplan hdone hledger hend =>
    -- a step that an exception ended has done a first part of its actions
    have hruns := (hplan.runs (hs.box hb).1.ledger).of_isPrefix hdone
    have hle := Ledger.total_exec_le (hs.box hb).1.ledger hruns cp
    -- the actions add no more than the request brings
    have hsum := hplan.sum_added_le cp
    obtain ⟨rest, rfl⟩ := hdone
    rw [List.map_append, List.sum_append, pendingOf_quantity] at hsum
    rw [hledger]
    omega

/-- Quantities that fit together when all of them are asked for fit at every price. -/
theorem fits_of_requests (clock : Nat → Ems.Timestamp) (contracts : List TradeContract)
    (rs : List Request) (h : (rs.map (·.order.quantity.toNat)).sum < 2 ^ 64) :
    ∀ pre, pre <+: rs → ((started clock contracts).run pre).Fits := by
  -- a request adds at most its quantity to a price
  have hrun : ∀ (rs : List Request) (s : TradeSimulater), s.WF → ∀ n,
      (∀ c b cp, s.box c = some b → b.ledger.total cp ≤ n) →
      ∀ c b cp, (s.run rs).box c = some b →
        b.ledger.total cp ≤ n + (rs.map (·.order.quantity.toNat)).sum := by
    intro rs
    induction rs with
    | nil => exact fun s _ n hn => hn
    | cons r rs ih =>
      intro s hs n hn c b cp hb
      rw [List.map_cons, List.sum_cons, ← Nat.add_assoc]
      refine ih (s.step r) (hs.step r) _ (fun c b cp hb => ?_) c b cp hb
      obtain ⟨b₀, hb₀, -⟩ := box_step hs r hb
      exact (total_step_le hs r hb₀ hb cp).trans (Nat.add_le_add_right (hn c b₀ cp hb₀) _)
  intro pre hpre c b cp hb hcp
  have hs := WF.started clock contracts
  rw [TradeOrderBox.sum_workingAt ((hs.run pre).box hb).1 hcp]
  have hle := hrun pre _ hs 0 (fun c b cp hb => by
    rw [(Fresh.started clock contracts).box hb]
    simp [Ledger.total]) c b cp hb
  obtain ⟨rest, rfl⟩ := hpre
  rw [List.map_append, List.sum_append] at h
  omega

/-- For every sequence of requests after which, and before which, the quantities at the
    limit prices fit 64 bits: the published book has an entry exactly where a limit order
    works, of the size that works there, and never of size zero; and no request that comes
    next ends with "price not found". -/
theorem published_book_eq_working_orders (clock : Nat → Ems.Timestamp)
    (contracts : List TradeContract) (rs : List Request)
    (hfits : ∀ pre, pre <+: rs → ((started clock contracts).run pre).Fits) :
    (∀ c b m, ((started clock contracts).run rs).box c = some b →
      ((started clock contracts).run rs).market c = some m →
      ∀ cp : ComparablePrice, cp.price ≠ 0 →
        ((m.get? cp).isSome ↔ b.workingAt cp ≠ []) ∧
        ∀ size, m.get? cp = some size → size.toNat = b.workingTotal cp ∧ size ≠ 0) ∧
    ∀ r s' text, handle r ((started clock contracts).run rs) ≠
      .error (.invalidArgument ("price not found: " ++ text)) s' := by
  have hs := WF.started clock contracts
  have hwf := hs.run rs
  have hagrees := agrees_run hs (Fresh.started clock contracts).agrees rs hfits
  constructor
  · intro c b m hb hm cp hcp
    -- the books agree in every state of the run
    exact (hagrees c b m hb hm).published (hwf.box hb).1 hcp
  · intro r s' text herr
    exact checkOrder_ne_price_not_found text (hagrees.error_of_handle hwf herr).1

/-- A sell order for five and a buy order for three: two are left on offer. -/
theorem published_book_after_partial_fill :
    ∃ b m, (sampleRun [.add (limitOrder "1" .sell "1" 5), .add (limitOrder "2" .buy "1" 3)]).box "A" =
        some b ∧
      (sampleRun [.add (limitOrder "1" .sell "1" 5), .add (limitOrder "2" .buy "1" 3)]).market "A" =
        some m ∧
      b.workingTotal ⟨false, 100⟩ = 2 ∧ m.get? ⟨false, 100⟩ = some 2 := by
  -- two orders of less than 2^64 between them
  have hfits := fits_of_requests (fun _ => {}) sampleContracts
    [.add (limitOrder "1" .sell "1" 5), .add (limitOrder "2" .buy "1" 3)] (by decide)
  have hspec := (published_book_eq_working_orders (fun _ => {}) sampleContracts _ hfits).1
  have heval : ((sampleRun [.add (limitOrder "1" .sell "1" 5),
      .add (limitOrder "2" .buy "1" 3)]).box "A").map (fun b =>
        (b.workingAt ⟨false, 100⟩ != [], b.workingTotal ⟨false, 100⟩)) = some (true, 2) := by
    decide +kernel
  have hmarket : ((sampleRun [.add (limitOrder "1" .sell "1" 5),
      .add (limitOrder "2" .buy "1" 3)]).market "A").isSome := by decide +kernel
  obtain ⟨b, hb, hbv⟩ := Option.map_eq_some_iff.mp heval
  obtain ⟨m, hm⟩ := Option.isSome_iff_exists.mp hmarket
  -- two of the five are left at the price
  have hne : b.workingAt ⟨false, 100⟩ ≠ [] := by simpa using congrArg Prod.fst hbv
  have htotal : b.workingTotal ⟨false, 100⟩ = 2 := congrArg Prod.snd hbv
  obtain ⟨hiff, hsize⟩ := hspec "A" b m hb hm ⟨false, 100⟩ (by decide)
  obtain ⟨size, hget⟩ := Option.isSome_iff_exists.mp (hiff.mpr hne)
  refine ⟨b, m, hb, hm, htotal, ?_⟩
  rw [hget]
  congr 1
  apply UInt64.toNat_inj.mp
  rw [(hsize size hget).1, htotal]
  rfl

end TradeSimulater

end FixHandler.Trade
