import Mathlib
import FixHandler.ForStd.Threshold
import FixHandler.Spec.Tmalpha.MatcherCorrect

/-!
# The place of an order in the queue of its price

An order that rests gets a place behind a share of the lots of the best price of its side, at
the first moment at which this price is the price of the order. From then on the lots that are
traded at this price are added up, and the order is filled as soon as the sum is over its
place, or as soon as the best price of its side is worse than its own.

## Key results

- `hasRematching_eq`: an update moves the order as it moves a threshold counter
- `onStateChanged_own`, `onStateChanged_frame`: what an update does to one order among all
- `queue_position`: the place of an order, and the update that fills it, over whole runs
-/

namespace Cxx.Binary64

/-- Values that are not NaN are equal if none is less. -/
theorem eq_of_not_lt {x y : Binary64} (hx : x ≠ .nan) (hy : y ≠ .nan) (hxy : lt x y = false)
    (hyx : lt y x = false) : eq x y = true := by
  cases x with
  | nan => exact absurd rfl hx
  | inf a =>
    cases y with
    | nan => exact absurd rfl hy
    | inf b => cases a <;> cases b <;> simp_all [lt, eq]
    | fin y => cases a <;> simp_all [lt]
  | fin x =>
    cases y with
    | nan => exact absurd rfl hy
    | inf b => cases b <;> simp_all [lt]
    | fin y =>
      simp only [lt, decide_eq_false_iff_not, not_lt] at hxy hyx
      simp [eq, le_antisymm hyx hxy]

/-- The operator `==` of doubles does not depend on the order of its operands. -/
theorem eq_comm {x y : Binary64} (h : eq x y = true) : eq y x = true := by
  cases x with
  | nan => exact nomatch h
  | inf a => rw [← of_decide_eq_true h]; exact decide_eq_true rfl
  | fin x => rw [← of_decide_eq_true h]; exact decide_eq_true rfl

/-- Of equal doubles none is less. -/
theorem lt_of_eq {x y : Binary64} (h : eq x y = true) : lt x y = false ∧ lt y x = false := by
  -- a NaN is not equal to anything, so that equal doubles are the same value
  have hxy : x = y := by
    cases x with
    | nan => exact nomatch h
    | inf a => exact of_decide_eq_true h
    | fin x => exact of_decide_eq_true h
  rw [hxy]
  exact ⟨lt_irrefl y, lt_irrefl y⟩

end Cxx.Binary64

namespace FixHandler.Tmalpha

open Cxx (Binary64 Exception)
open Ems (Order Fill)
open Threshold (Event Counter)

namespace ReplayOrderMatcher

/-! ## An order and its counter -/

/-- The volume that was traded on the side of an order. -/
def ownVolume (o : Order) (bidVolumn askVolumn : UInt32) : UInt32 :=
  match o.buySell with
  | .sell => askVolumn
  | _ => bidVolumn

/-- The lots of a quote that an order at its price is put behind. -/
def share (tradeRate : UInt32) (best : Dms.DataPoint) : Nat :=
  best.size.toNat * tradeRate.toNat / 100

/-- What an update is for an order at the price `p`: a quote at this price is a hit, a worse
    one fills the order, and it waits through a better one, and where there is none. -/
def updateEvent (tradeRate : UInt32) (o : Order) (p : Binary64) (best : Option Dms.DataPoint)
    (volume : UInt32) : Event :=
  match best with
  | none => .skip
  | some best =>
    if best.price.eq p then .hit (share tradeRate best) volume.toNat
    else if better o p best.price then .fire
    else .skip

/-- What the market data at its creation is for an order at the price `p`. -/
def creationEvent (tradeRate : UInt32) (p : Binary64) (best : Option Dms.DataPoint) : Event :=
  match best with
  | none => .skip
  | some best => if best.price.eq p then .hit (share tradeRate best) 0 else .skip

/-- A level as the place that is stored for it, an `int`. -/
def positionOf (level : Nat) : Int32 := (UInt32.ofNat level).toInt32

/-- The order as it is kept while its counter has not fired. -/
def infoAt (order : Order) : Counter → OrderInfo
  | .armed level total => { order, position := positionOf level, turnover := UInt32.ofNat total }
  | _ => { order, position := -1 }

/-- The place is compared as an unsigned number again. -/
theorem positionOf_toUInt32 {level : Nat} (h : level < 2 ^ 31) :
    (positionOf level).toUInt32.toNat = level := by
  rw [positionOf, UInt32.toUInt32_toInt32, UInt32.toNat_ofNat_of_lt' (h.trans (by decide))]

/-- A level below 2^31 is not taken for the place -1, which stands for none. -/
theorem positionOf_ne {level : Nat} (h : level < 2 ^ 31) : positionOf level ≠ -1 := by
  intro heq
  have hnat := positionOf_toUInt32 h
  rw [heq] at hnat
  -- as an unsigned number -1 is the greatest one
  have hmax : (-1 : Int32).toUInt32.toNat = 2 ^ 32 - 1 := by decide
  omega

/-- A level below 2^31 is its place. -/
theorem positionOf_toInt {level : Nat} (h : level < 2 ^ 31) : (positionOf level).toInt = level := by
  have hbmod : (positionOf level).toInt =
      ((UInt32.ofNat level).toNat : Int).bmod (2 ^ 32) :=
    BitVec.toInt_eq_toNat_bmod (UInt32.ofNat level).toBitVec
  rw [hbmod, UInt32.toNat_ofNat_of_lt' (h.trans (by decide)), Int.bmod_def]
  omega

/-- The place is computed in 64 bits and cut to 32, which changes nothing below 2^31. -/
theorem positionAt_eq {s : ReplayOrderMatcher} {best : Dms.DataPoint}
    (h : share s.tradeRate best < 2 ^ 31) : s.positionAt best.size = positionOf (share s.tradeRate best) := by
  unfold share at h
  -- the product does not wrap around, as its hundredth part is below 2^31
  have hlt : best.size.toNat * s.tradeRate.toNat < 2 ^ 64 := by omega
  unfold positionAt positionOf
  congr 1
  rw [← UInt32.toNat_inj, UInt64.toNat_toUInt32, UInt64.toNat_div, UInt64.toNat_mul,
    UInt32.toNat_toUInt64, Nat.mod_eq_of_lt hlt, share,
    UInt32.toNat_ofNat_of_lt' (h.trans (by decide))]
  show best.size.toNat * s.tradeRate.toNat / 100 % 2 ^ 32 = _
  omega

/-- The comparison of a side is strict. -/
theorem better_of_eq {o : Order} {x y : Binary64} (h : x.eq y = true) :
    better o x y = false ∧ better o y x = false := by
  obtain ⟨hxy, hyx⟩ := Binary64.lt_of_eq h
  unfold better
  cases o.buySell
  · exact ⟨hyx, hxy⟩
  · exact ⟨hyx, hxy⟩
  · exact ⟨hxy, hyx⟩

/-- Of two prices that are no NaN one is better, or they are equal. -/
theorem eq_of_not_better {o : Order} {x y : Binary64} (hx : x ≠ .nan) (hy : y ≠ .nan)
    (hxy : better o x y = false) (hyx : better o y x = false) : x.eq y = true := by
  unfold better at hxy hyx
  cases hside : o.buySell <;> rw [hside] at hxy hyx
  · exact Binary64.eq_of_not_lt hx hy hyx hxy
  · exact Binary64.eq_of_not_lt hx hy hyx hxy
  · exact Binary64.eq_of_not_lt hx hy hxy hyx

/-- Of two prices only one can be better. -/
theorem better_asymm {o : Order} {x y : Binary64} (h : better o x y = true) :
    better o y x = false := by
  have hlt : ∀ {a b : Binary64}, a.lt b = true → b.lt a = false := fun h =>
    Binary64.not_lt_of_le (by rw [Binary64.le, h, Bool.true_or])
  unfold better at h ⊢
  cases hside : o.buySell <;> rw [hside] at h <;> exact hlt h

section UpdateEvent

variable {tradeRate volume : UInt32} {o : Order} {p : Binary64} {best : Dms.DataPoint}

/-- The order waits behind a better quote. -/
theorem updateEvent_of_better (h : better o best.price p = true) :
    updateEvent tradeRate o p (some best) volume = .skip := by
  have hne : ¬ best.price.eq p = true := fun heq => by
    rw [(better_of_eq heq).1] at h
    exact nomatch h
  have hworse : ¬ better o p best.price = true := by rw [better_asymm h]; exact Bool.false_ne_true
  show (if best.price.eq p then _ else _ : Event) = _
  rw [if_neg hne, if_neg hworse]

/-- A quote that is worse than the order fills it. -/
theorem updateEvent_of_worse (h : better o p best.price = true) :
    updateEvent tradeRate o p (some best) volume = .fire := by
  have hne : ¬ best.price.eq p = true := fun heq => by
    rw [(better_of_eq heq).2] at h
    exact nomatch h
  show (if best.price.eq p then _ else _ : Event) = _
  rw [if_neg hne, if_pos h]

/-- A quote at the price of the order uses up the queue ahead of it. -/
theorem updateEvent_of_eq (h : best.price.eq p = true) :
    updateEvent tradeRate o p (some best) volume = .hit (share tradeRate best) volume.toNat :=
  if_pos h

end UpdateEvent

/-- A quote of the own side moves the order as its event moves the counter. -/
theorem isPositionReached_eq {s : ReplayOrderMatcher} {order : Order} {p : Binary64}
    {counter : Counter} {prices : List Dms.DataPoint} {volume : UInt32}
    (hp : Cxx.stod order.price = .ok p) (hnan : p ≠ .nan) (hcounter : counter ≠ .fired)
    (hexact : ∀ best, prices.head? = some best →
      best.price ≠ .nan ∧ share s.tradeRate best < 2 ^ 31)
    {e : Event} (he : updateEvent s.tradeRate order p prices.head? volume = e)
    (hlevel : ∀ level total, counter = .armed level total → level < 2 ^ 31 ∧
      ∀ level' weight, e = .hit level' weight → total + weight < 2 ^ 32) :
    ∃ info', s.isPositionReached (infoAt order counter) prices volume (better order) =
        .ok (decide (counter.step e = .fired), info') ∧
      (counter.step e ≠ .fired → info' = infoAt order (counter.step e)) := by
  have horder : (infoAt order counter).order = order := by cases counter <;> rfl
  have hskip : counter.step .skip = counter := by cases counter <;> rfl
  have hfire : counter.step .fire = .fired := by cases counter <;> rfl
  unfold isPositionReached
  cases prices with
  | nil =>
    -- without a quote nothing happens
    subst he
    refine ⟨infoAt order counter, ?_, fun _ => (congrArg (infoAt order) hskip).symm⟩
    show Except.ok (false, infoAt order counter) = .ok (decide (counter.step .skip = .fired), _)
    rw [hskip, decide_eq_false hcounter]
  | cons best rest =>
    obtain ⟨hbest, hshare⟩ := hexact best rfl
    simp only [horder, hp, Except.ok_bind]
    rw [List.head?_cons] at he
    by_cases hbetter : better order best.price p = true
    · -- the order waits behind a better price
      rw [updateEvent_of_better hbetter] at he
      rw [if_pos hbetter, ← he, hskip, decide_eq_false hcounter]
      exact ⟨infoAt order counter, rfl, fun _ => rfl⟩
    rw [if_neg hbetter]
    by_cases hworse : better order p best.price = true
    · -- the quote has become worse than the order, so that its queue is gone
      rw [updateEvent_of_worse hworse] at he
      rw [if_pos hworse, ← he, hfire]
      exact ⟨infoAt order counter, rfl, fun h => absurd rfl h⟩
    rw [if_neg hworse]
    rw [updateEvent_of_eq (eq_of_not_better hbest hnan (Bool.eq_false_iff.mpr hbetter)
      (Bool.eq_false_iff.mpr hworse))] at he
    -- the quote is at the price of the order
    cases counter with
    | fired => exact absurd rfl hcounter
    | idle =>
      -- the first quote at its price gives the order its place
      refine ⟨infoAt order (.armed (share s.tradeRate best) 0), ?_, fun _ => by rw [← he]; rfl⟩
      rw [if_pos (show ((infoAt order .idle).position == -1) = true from rfl), positionAt_eq hshare,
        ← he]
      rfl
    | armed level total =>
      obtain ⟨hpos, htotal⟩ := hlevel level total rfl
      replace htotal : total + volume.toNat < 2 ^ 32 := htotal _ _ he.symm
      -- the sum of the volumes is kept in 32 bits, and compared with the place as an unsigned
      -- number
      have hturnover : UInt32.ofNat total + volume = UInt32.ofNat (total + volume.toNat) := by
        rw [UInt32.ofNat_add, UInt32.ofNat_toNat]
      have hover : decide (UInt32.ofNat (total + volume.toNat) > (positionOf level).toUInt32) =
          decide (level < total + volume.toNat) := by
        rw [decide_eq_decide, gt_iff_lt, UInt32.lt_iff_toNat_lt, positionOf_toUInt32 hpos,
          UInt32.toNat_ofNat_of_lt' htotal]
      have hne : ¬ ((infoAt order (.armed level total)).position == -1) = true := by
        rw [beq_iff_eq]
        exact positionOf_ne hpos
      rw [if_neg hne, ← he]
      show ∃ info', Except.ok (decide (UInt32.ofNat total + volume > (positionOf level).toUInt32),
        { infoAt order (.armed level total) with turnover := UInt32.ofNat total + volume }) = _ ∧ _
      rw [hturnover, hover]
      -- it is filled when more has been traded than was ahead of it
      refine ⟨infoAt order (.armed level (total + volume.toNat)), ?_, fun h => ?_⟩
      · by_cases hlt : level < total + volume.toNat
        · simp [Counter.step, infoAt, hlt]
        · simp [Counter.step, infoAt, hlt]
      · have hlt : ¬ level < total + volume.toNat := fun hlt => h (if_pos hlt)
        exact (congrArg (infoAt order) (if_neg hlt)).symm

/-- A price that can be read can be compared. -/
theorem isPriceMatching_readable {o : Order} {p : Binary64} (hp : Cxx.stod o.price = .ok p)
    (l2 : Dms.L2) : ∃ r, isPriceMatching o l2 = .ok r := by
  rw [isPriceMatching_eq]
  cases bestOpposite o l2 with
  | none => exact ⟨_, rfl⟩
  | some best =>
    -- a market order matches without a look at its price
    have hmatching : ∃ matched, isMatching o (crosses o best) = .ok matched := by
      unfold isMatching
      split
      · exact ⟨true, rfl⟩
      · rw [hp]
        exact ⟨_, rfl⟩
    obtain ⟨matched, hmatching⟩ := hmatching
    simp only [hmatching]
    exact ⟨_, rfl⟩

/-- An order that does not match keeps its price. -/
theorem isPriceMatching_of_not_marketable {o : Order} {p : Binary64}
    (hp : Cxx.stod o.price = .ok p) {l2 : Dms.L2} (h : ¬ Marketable o l2) :
    isPriceMatching o l2 = .ok (false, o) := by
  obtain ⟨⟨matched, o'⟩, hmatch⟩ := isPriceMatching_readable hp l2
  cases matched with
  | true => exact absurd ⟨o', hmatch⟩ h
  | false =>
    rw [hmatch, isPriceMatching_false hmatch]

/-- An update that does not match moves the order as its event moves the counter. -/
theorem hasRematching_eq {s : ReplayOrderMatcher} {order : Order} {p : Binary64}
    {counter : Counter} {state : CurrentState}
    (hstate : s.currentStates[order.contract]? = some state)
    (hmatch : ¬ Marketable order state.l2)
    (hp : Cxx.stod order.price = .ok p) (hnan : p ≠ .nan) (hcounter : counter ≠ .fired)
    (hexact : ∀ best, (ownPrices order state.l2).head? = some best →
      best.price ≠ .nan ∧ share s.tradeRate best < 2 ^ 31)
    {e : Event} (he : updateEvent s.tradeRate order p (ownPrices order state.l2).head?
      (ownVolume order state.bidVolumn state.askVolumn) = e)
    (hlevel : ∀ level total, counter = .armed level total → level < 2 ^ 31 ∧
      ∀ level' weight, e = .hit level' weight → total + weight < 2 ^ 32) :
    ∃ info', s.hasRematching (infoAt order counter) =
        .ok (decide (counter.step e = .fired), info') ∧
      (counter.step e ≠ .fired → info' = infoAt order (counter.step e)) := by
  have horder : (infoAt order counter).order = order := by cases counter <;> rfl
  have hposition := isPositionReached_eq (s := s) hp hnan hcounter hexact he hlevel
  unfold hasRematching
  simp only [horder, hstate, isPriceMatching_of_not_marketable hp hmatch, Except.ok_bind,
    Bool.false_eq_true, if_false]
  have hsame : { infoAt order counter with order } = infoAt order counter := by
    cases counter <;> rfl
  rw [hsame]
  -- the quote and the comparison are those of the order's own side
  cases hside : order.buySell with
  | buy =>
    have hcompare : better order = fun a b => b.lt a := by
      funext a b
      rw [better, hside]
    rw [ownPrices, ownVolume, hside, hcompare] at hposition
    exact hposition
  | sell =>
    have hcompare : better order = fun a b => a.lt b := by
      funext a b
      rw [better, hside]
    rw [ownPrices, ownVolume, hside, hcompare] at hposition
    exact hposition
  | none =>
    -- an order without a side has no quotes
    rw [ownPrices, hside] at he
    subst he
    have hskip : counter.step .skip = counter := by cases counter <;> rfl
    refine ⟨infoAt order counter, ?_, fun _ => (congrArg (infoAt order) hskip).symm⟩
    show Except.ok (false, infoAt order counter) = .ok (decide (counter.step .skip = .fired), _)
    rw [hskip, decide_eq_false hcounter]

/-- The best quote of the side of an order in the latest market data of its contract. -/
def ownBest (s : ReplayOrderMatcher) (o : Order) : Option Dms.DataPoint :=
  s.currentStates[o.contract]?.bind fun state => (ownPrices o state.l2).head?

/-- The first place of an order, when there is market data for its contract. -/
theorem calculateOrderPosition_of_state {s : ReplayOrderMatcher} {o : Order} {state : CurrentState}
    (hstate : s.currentStates[o.contract]? = some state) :
    s.calculateOrderPosition o = match ownPrices o state.l2 with
      | [] => Except.ok (-1)
      | best :: _ => Cxx.stod o.price >>= fun price =>
        pure (if price.eq best.price then s.positionAt best.size else -1) := by
  unfold calculateOrderPosition
  rewrite [hstate]
  rfl

/-- A new order starts as the market data at its creation moves an idle counter. -/
theorem calculateOrderPosition_eq {s : ReplayOrderMatcher} {o : Order} {p : Binary64}
    (hp : Cxx.stod o.price = .ok p)
    (hshare : ∀ best, s.ownBest o = some best → share s.tradeRate best < 2 ^ 31) (order : Order) :
    s.calculateOrderPosition o =
      .ok (infoAt order (Counter.idle.step (creationEvent s.tradeRate p (s.ownBest o)))).position := by
  unfold ownBest at hshare ⊢
  cases hstate : s.currentStates[o.contract]? with
  | none =>
    -- without market data the order has no place
    unfold calculateOrderPosition
    rewrite [hstate]
    rfl
  | some state =>
    rw [hstate] at hshare
    rw [calculateOrderPosition_of_state hstate]
    cases hprices : ownPrices o state.l2 with
    | nil =>
      simp only [Option.bind_some, hprices]
      rfl
    | cons best rest =>
      have hlevel := hshare best (by simp only [Option.bind_some, hprices, List.head?_cons])
      simp only [Option.bind_some, hprices, List.head?_cons, hp, Except.ok_bind, creationEvent]
      -- only a quote at the order's own price gives it a place
      by_cases heq : best.price.eq p = true
      · rw [if_pos heq, if_pos (Binary64.eq_comm heq), positionAt_eq hlevel]
        rfl
      · rw [if_neg heq, if_neg fun h => heq (Binary64.eq_comm h)]
        rfl

/-! ## What is known of one order -/

/-- What the matcher knows of an order: how it works, how often it is listed as working, and
    whether it is filled. -/
structure Standing where
  info : Option OrderInfo
  listed : Nat
  filled : Bool
deriving DecidableEq

namespace Standing

/-- Nothing is known of the order. -/
def unknown : Standing := ⟨none, 0, false⟩

/-- The order works. -/
def working (info : OrderInfo) : Standing := ⟨some info, 1, false⟩

/-- The order is filled. -/
def done : Standing := ⟨none, 0, true⟩

/-- How an order stands with its counter. -/
def ofCounter (order : Order) : Counter → Standing
  | .fired => done
  | counter => working (infoAt order counter)

/-- An order works as long as its counter has not fired. -/
theorem ofCounter_of_ne {order : Order} {counter : Counter} (h : counter ≠ .fired) :
    ofCounter order counter = working (infoAt order counter) := by
  cases counter with
  | fired => exact absurd rfl h
  | idle => rfl
  | armed level total => rfl

end Standing

/-- What the matcher's tables say of the order with an id. -/
def standing (s : ReplayOrderMatcher) (id : String) : Standing where
  info := s.workingOrders[id]?
  listed := s.workingOrderIds.count id
  filled := s.filledOrders.contains id

/-- Every order works under its id, but for those that were made by looking for them. -/
def Keyed (s : ReplayOrderMatcher) : Prop :=
  ∀ (id : String) (info : OrderInfo), s.workingOrders[id]? = some info →
    info = {} ∨ info.order.clientOrderId = id

/-- What a request may not touch when it is not about the order `id`. -/
structure Frame (id : String) (s s' : ReplayOrderMatcher) : Prop where
  keyed : Keyed s'
  tradeRate : s'.tradeRate = s.tradeRate
  standing : s'.standing id = s.standing id

section Frame

variable {s s' : ReplayOrderMatcher} {id id' : String} {info : OrderInfo}

/-- An entry is put in under the id of its order. -/
theorem Keyed.insert (h : Keyed s) (hworking : s'.workingOrders = s.workingOrders.insert id info)
    (hinfo : info = {} ∨ info.order.clientOrderId = id) : Keyed s' := by
  intro id' info' h'
  rw [hworking, Std.TreeMap.getElem?_insert_if] at h'
  split at h'
  · next heq =>
    cases h'
    rwa [heq]
  · exact h id' info' h'

/-- Taking an entry out leaves the others under their ids. -/
theorem Keyed.erase (h : Keyed s) (hworking : s'.workingOrders = s.workingOrders.erase id) :
    Keyed s' := by
  intro id' info' h'
  rw [hworking, Std.TreeMap.getElem?_erase_if] at h'
  split at h'
  · exact nomatch h'
  · exact h id' info' h'

/-- The standing of an order is what the three tables say of it. -/
theorem standing_eq (hworking : s'.workingOrders[id]? = s.workingOrders[id]?)
    (hids : s'.workingOrderIds.count id = s.workingOrderIds.count id)
    (hfilled : s'.filledOrders.contains id = s.filledOrders.contains id) :
    s'.standing id = s.standing id := by
  unfold standing
  rw [hworking, hids, hfilled]

/-- A fill of another order does not fill this one. -/
theorem contains_insert_of_ne {t : Std.TreeMap String Fill} {f : Fill} (h : id' ≠ id) :
    (t.insert id' f).contains id = t.contains id := by
  rw [Std.TreeMap.contains_insert]
  simp [h]

/-- An entry for another order leaves this one's alone. -/
theorem getElem?_insert_of_ne {t : Std.TreeMap String OrderInfo} (h : id' ≠ id) :
    (t.insert id' info)[id]? = t[id]? := by
  rw [Std.TreeMap.getElem?_insert_if, if_neg h.symm]

/-- Another order that is taken out leaves this one in. -/
theorem getElem?_erase_of_ne {t : Std.TreeMap String OrderInfo} (h : id' ≠ id) :
    (t.erase id')[id]? = t[id]? := by
  rw [Std.TreeMap.getElem?_erase_if, if_neg h.symm]

/-- A new order of another id leaves this one as it is. -/
theorem add_frame (h : Keyed s) {o : Order} (ho : o.clientOrderId ≠ id) :
    (add o s).Sat (fun _ s' => Frame id s s') (fun _ _ => True) := by
  refine add_sat (fun _ _ => trivial) (fun o' hmatch => ?_) (fun position _ _ => ?_)
    fun _ _ _ => trivial
  · -- it is filled at once
    obtain ⟨_, best, _, _, _, rfl⟩ := hasMatching_true hmatch
    exact ⟨h, rfl, standing_eq rfl rfl (contains_insert_of_ne ho)⟩
  · -- it works, and is listed behind the others
    refine ⟨h.insert rfl (.inr rfl), rfl, standing_eq (getElem?_insert_of_ne ho) ?_ rfl⟩
    rw [List.count_append, List.count_singleton, if_neg (by simpa using ho), Nat.add_zero]

/-- A change is of another order, or it is refused. -/
theorem change_frame (h : Keyed s) {o : Order}
    (ho : o.clientOrderId ≠ id ∨ s.workingOrders[o.clientOrderId]? = none) :
    (change o s).Sat (fun _ s' => Frame id s s') (fun _ _ => True) := by
  refine change_sat (fun _ _ => ⟨h, rfl, rfl⟩) (fun working position _ _ hworking _ => ?_)
    fun _ _ _ => trivial
  have hne : o.clientOrderId ≠ id := ho.resolve_right fun hnone => by
    rw [hworking] at hnone
    exact nomatch hnone
  exact ⟨h.insert rfl (.inr rfl), rfl, standing_eq (getElem?_insert_of_ne hne) rfl rfl⟩

/-- A cancel is of another order, or it is refused. -/
theorem delete_frame (h : Keyed s) {o : Order}
    (ho : o.clientOrderId ≠ id ∨ s.workingOrders[o.clientOrderId]? = none) :
    (delete o s).Sat (fun _ s' => Frame id s s') (fun _ _ => True) := by
  refine delete_sat (fun _ => ⟨h, rfl, rfl⟩) fun working _ _ _ hworking => ?_
  have hne : o.clientOrderId ≠ id := ho.resolve_right fun hnone => by
    rw [hworking] at hnone
    exact nomatch hnone
  refine ⟨h.erase rfl, rfl, standing_eq (getElem?_erase_of_ne hne) ?_ rfl⟩
  -- the list of what works loses the other id alone
  exact List.count_filter (by simpa using hne.symm)

/-! ## An update and one order -/

/-- What every turn of the loop keeps: the market data too. -/
structure Steady (s s' : ReplayOrderMatcher) (ids : List String) : Prop where
  keyed : Keyed s'
  tradeRate : s'.tradeRate = s.tradeRate
  currentStates : s'.currentStates = s.currentStates
  ids : s'.workingOrderIds = ids

variable {kept rest : List String} {contract : String}

/-- A turn keeps an order under its id, and fills no order that was made by looking for it. -/
theorem Keyed.rematch (h : Keyed s) {info' : OrderInfo} {filled : Bool}
    (hinfo : s.workingOrders[id']? = some info) (hmatch : s.hasRematching info = .ok (filled, info')) :
    (info' = {} ∧ filled = false) ∨ info'.order.clientOrderId = id' := by
  rcases h id' info hinfo with rfl | hid
  · rw [hasRematching_empty] at hmatch
    cases hmatch
    exact .inl ⟨rfl, rfl⟩
  · obtain ⟨price, horder⟩ := hasRematching_order hmatch
    rw [horder]
    exact .inr hid

/-- A turn of another order leaves this one as it is. -/
theorem rematchOne_frame {s₀ : ReplayOrderMatcher} (h : Steady s₀ s (kept ++ id' :: rest))
    (hne : id' ≠ id) :
    (rematchOne contract kept id' rest s).Sat
      (fun filled s' => Steady s₀ s' (if filled then kept ++ rest else kept ++ [id'] ++ rest) ∧
        s'.standing id = s.standing id) (fun _ _ => True) := by
  have hids : s.workingOrderIds = kept ++ [id'] ++ rest := by rw [h.ids, List.append_cons]
  refine rematchOne_sat (fun hnone t ht => ?_) (fun info hinfo hcontract => ?_)
    (fun _ _ _ _ _ => trivial) (fun info info' hinfo hcontract hmatch => ?_)
    fun info info' hinfo hcontract hmatch => ?_
  · -- an order is made by looking for it
    refine ⟨⟨fun id'' info'' h' => ?_, h.tradeRate, h.currentStates, hids⟩, standing_eq ?_ rfl rfl⟩
    · replace h' : t[id'']? = some info'' := h'
      rw [ht] at h'
      split at h'
      · cases h'
        exact .inl rfl
      · exact h.keyed id'' info'' h'
    · exact (ht id).trans (if_neg hne.symm)
  · exact ⟨⟨h.keyed, h.tradeRate, h.currentStates, hids⟩, rfl⟩
  · -- the other order stays, with a new entry
    have hid := (h.keyed.rematch hinfo hmatch).imp_left (·.1)
    exact ⟨⟨h.keyed.insert rfl hid, h.tradeRate, h.currentStates, hids⟩,
      standing_eq (getElem?_insert_of_ne hne) rfl rfl⟩
  · have hid : info'.order.clientOrderId = id' :=
      (h.keyed.rematch hinfo hmatch).resolve_left fun h' => nomatch h'.2
    -- the other order is filled: its entry, its place in the list and its fill are all under its
    -- own id
    have hkeyed : Keyed { s with workingOrders := s.workingOrders.insert id' info' } :=
      h.keyed.insert rfl (.inr hid)
    refine ⟨⟨hkeyed.erase rfl, h.tradeRate, h.currentStates, rfl⟩, standing_eq ?_ ?_ ?_⟩
    · show ((s.workingOrders.insert id' info').erase info'.order.clientOrderId)[id]? = _
      rw [hid, getElem?_erase_of_ne hne, getElem?_insert_of_ne hne]
    · show (kept ++ rest).count id = _
      rw [h.ids, List.count_append, List.count_append, List.count_cons_of_ne hne]
    · show (s.filledOrders.insert info'.order.clientOrderId _).contains id = _
      rw [hid, contains_insert_of_ne hne]

/-- The turn of the order itself. -/
theorem rematchOne_own {s₀ : ReplayOrderMatcher} (h : Steady s₀ s (kept ++ id :: rest))
    (hstanding : s.standing id = .working info) (hid : info.order.clientOrderId = id)
    (hcontract : info.order.contract = contract) {filled : Bool} {info' : OrderInfo}
    (hmatch : s.hasRematching info = .ok (filled, info')) :
    (rematchOne contract kept id rest s).Sat
      (fun filled' s' => Steady s₀ s' (if filled' then kept ++ rest else kept ++ [id] ++ rest) ∧
        s'.standing id = if filled then .done else .working info') (fun _ _ => True) := by
  have hinfo : s.workingOrders[id]? = some info := congrArg Standing.info hstanding
  have hlisted : s.workingOrderIds.count id = 1 := congrArg Standing.listed hstanding
  have hfilled : s.filledOrders.contains id = false := congrArg Standing.filled hstanding
  have hids : s.workingOrderIds = kept ++ [id] ++ rest := by rw [h.ids, List.append_cons]
  -- matching changes nothing of an order but its price
  have hid' : info'.order.clientOrderId = id := by
    obtain ⟨price, horder⟩ := hasRematching_order hmatch
    rw [horder]
    exact hid
  refine rematchOne_sat (fun hnone => ?_) (fun info₁ hinfo₁ hcontract₁ => ?_)
    (fun _ _ _ _ _ => trivial) (fun info₁ info₂ hinfo₁ hcontract₁ hmatch₁ => ?_)
    fun info₁ info₂ hinfo₁ hcontract₁ hmatch₁ => ?_
  · -- it is in the table, so that no entry is made for it
    rw [hinfo] at hnone
    exact nomatch hnone
  · rw [hinfo] at hinfo₁
    cases hinfo₁
    -- its contract is the one that is updated
    exact absurd hcontract hcontract₁
  · rw [hinfo] at hinfo₁
    cases hinfo₁
    rw [hmatch] at hmatch₁
    cases hmatch₁
    refine ⟨⟨h.keyed.insert rfl (.inr hid'), h.tradeRate, h.currentStates, hids⟩, ?_⟩
    -- it stays
    show Standing.mk (s.workingOrders.insert id info')[id]? (s.workingOrderIds.count id)
      (s.filledOrders.contains id) = _
    rw [Std.TreeMap.getElem?_insert_self, hlisted, hfilled]
    rfl
  · rw [hinfo] at hinfo₁
    cases hinfo₁
    rw [hmatch] at hmatch₁
    cases hmatch₁
    have hkeyed : Keyed { s with workingOrders := s.workingOrders.insert id info' } :=
      h.keyed.insert rfl (.inr hid')
    refine ⟨⟨hkeyed.erase rfl, h.tradeRate, h.currentStates, rfl⟩, ?_⟩
    -- it is filled, and was listed once, so that it is not listed any more
    have hcount : (kept ++ rest).count id = 0 := by
      rw [h.ids, List.count_append, List.count_cons_self] at hlisted
      rw [List.count_append]
      omega
    show Standing.mk ((s.workingOrders.insert id info').erase info'.order.clientOrderId)[id]?
      ((kept ++ rest).count id) ((s.filledOrders.insert info'.order.clientOrderId _).contains id) = _
    rw [hid', Std.TreeMap.getElem?_erase_self, hcount, Std.TreeMap.contains_insert_self]
    rfl

/-- The turn of the order itself, for market data of another contract. -/
theorem rematchOne_other {s₀ : ReplayOrderMatcher} (h : Steady s₀ s (kept ++ id :: rest))
    (hinfo : s.workingOrders[id]? = some info) (hcontract : info.order.contract ≠ contract) :
    (rematchOne contract kept id rest s).Sat
      (fun filled s' => Steady s₀ s' (if filled then kept ++ rest else kept ++ [id] ++ rest) ∧
        s'.standing id = s.standing id) (fun _ _ => True) := by
  have hids : s.workingOrderIds = kept ++ [id] ++ rest := by rw [h.ids, List.append_cons]
  refine rematchOne_sat (fun hnone => ?_) (fun info₁ _ _ => ?_) (fun _ _ _ _ _ => trivial)
    (fun info₁ info₂ hinfo₁ hcontract₁ _ => ?_) fun info₁ info₂ hinfo₁ hcontract₁ _ => ?_
  · rw [hinfo] at hnone
    exact nomatch hnone
  · -- an order of another contract is passed over
    exact ⟨⟨h.keyed, h.tradeRate, h.currentStates, hids⟩, rfl⟩
  · rw [hinfo] at hinfo₁
    cases hinfo₁
    exact absurd hcontract₁ hcontract
  · rw [hinfo] at hinfo₁
    cases hinfo₁
    exact absurd hcontract₁ hcontract

variable {l2 : Dms.L2} {bidVolumn askVolumn : UInt32}

/-- The state with the new market data, before the orders are rematched. -/
def updated (s : ReplayOrderMatcher) (l2 : Dms.L2) (bidVolumn askVolumn : UInt32) :
    ReplayOrderMatcher :=
  { s with currentStates := s.currentStates.insert l2.contract { l2, bidVolumn, askVolumn } }

/-- An update is nothing for an order that does not work, or that is of another contract. -/
theorem onStateChanged_frame (h : Keyed s)
    (hother : id ∈ s.workingOrderIds → ∃ info, s.workingOrders[id]? = some info ∧
      info.order.contract ≠ l2.contract) :
    (onStateChanged l2 bidVolumn askVolumn s).Sat (fun _ s' => Frame id s s') (fun _ _ => True) := by
  refine (onStateChanged_sat (I := fun kept rest s' => Steady (s.updated l2 bidVolumn askVolumn) s'
      (kept ++ rest) ∧ s'.standing id = s.standing id ∧ (id ∈ rest → id ∈ s.workingOrderIds))
    (fun kept id' rest s' hI => ?_) ⟨⟨h, rfl, rfl, rfl⟩, rfl, fun h => h⟩).mono
    (fun _ s' ⟨_, hsteady, hstanding, _⟩ => ⟨hsteady.keyed, hsteady.tradeRate, hstanding⟩)
    fun _ _ h => h
  -- the loop keeps what stands under `id`, whichever order's turn it is
  obtain ⟨hsteady, hstanding, hlisted⟩ := hI
  have hrest : id ∈ rest → id ∈ s.workingOrderIds := fun h => hlisted (List.mem_cons_of_mem _ h)
  have hturn : (rematchOne l2.contract kept id' rest s').Sat
      (fun filled s'' => Steady (s.updated l2 bidVolumn askVolumn) s'' (if filled then kept ++ rest else kept ++ [id'] ++ rest) ∧
        s''.standing id = s'.standing id) (fun _ _ => True) := by
    by_cases hne : id' = id
    · subst hne
      obtain ⟨info, hinfo, hcontract⟩ := hother (hlisted List.mem_cons_self)
      exact rematchOne_other hsteady ((congrArg Standing.info hstanding).trans hinfo) hcontract
    · exact rematchOne_frame hsteady hne
  refine hturn.mono (fun filled s'' hs'' => ?_) fun _ _ h => h
  cases filled with
  | true => exact ⟨hs''.1, hs''.2.trans hstanding, hrest⟩
  | false => exact ⟨hs''.1, hs''.2.trans hstanding, hrest⟩

/-- An update of its contract rematches a working order once. -/
theorem onStateChanged_own (h : Keyed s) (hstanding : s.standing id = .working info)
    (hid : info.order.clientOrderId = id) (hcontract : info.order.contract = l2.contract)
    {filled : Bool} {info' : OrderInfo}
    (hmatch : ∀ s' : ReplayOrderMatcher, s'.tradeRate = s.tradeRate →
      s'.currentStates[info.order.contract]? = some { l2, bidVolumn, askVolumn } →
      ∃ info'', s'.hasRematching info = .ok (filled, info'') ∧ (filled = false → info'' = info')) :
    (onStateChanged l2 bidVolumn askVolumn s).Sat
      (fun _ s' => Keyed s' ∧ s'.tradeRate = s.tradeRate ∧
        s'.standing id = if filled then .done else .working info') (fun _ _ => True) := by
  have hlisted : s.workingOrderIds.count id = 1 := congrArg Standing.listed hstanding
  refine (onStateChanged_sat (I := fun kept rest s' => Steady (s.updated l2 bidVolumn askVolumn) s'
      (kept ++ rest) ∧ (id ∈ rest → s'.standing id = .working info) ∧
      (id ∉ rest → s'.standing id = if filled then .done else .working info'))
    (fun kept id' rest s' hI => ?_) ⟨⟨h, rfl, rfl, rfl⟩, fun _ => hstanding, fun hnot => ?_⟩).mono
    (fun _ s' ⟨_, hsteady, _, hdone⟩ => ⟨hsteady.keyed, hsteady.tradeRate, hdone List.not_mem_nil⟩)
    fun _ _ h => h
  · -- until its turn the order stands as before, and from then on as its turn leaves it
    obtain ⟨hsteady, hbefore, hafter⟩ := hI
    by_cases hne : id' = id
    · subst hne
      have hworking := hbefore List.mem_cons_self
      -- it is listed once, so that it has no second turn
      have hcount : (kept ++ id' :: rest).count id' = 1 :=
        hsteady.ids ▸ congrArg Standing.listed hworking
      have hnot : id' ∉ rest := by
        rw [List.count_append, List.count_cons_self] at hcount
        exact List.count_eq_zero.mp (by omega)
      have hstate : s'.currentStates[info.order.contract]? = some { l2, bidVolumn, askVolumn } := by
        rw [hsteady.currentStates, hcontract]
        exact Std.TreeMap.getElem?_insert_self
      obtain ⟨info'', hmatch, hsame⟩ := hmatch s' hsteady.tradeRate hstate
      refine (rematchOne_own hsteady hworking hid hcontract hmatch).mono
        (fun filled' s'' hs'' => ?_) fun _ _ h => h
      have hafter : s''.standing id' = if filled then .done else .working info' := by
        rw [hs''.2]
        cases filled with
        | true => rfl
        | false => rw [hsame rfl]
      cases filled' with
      | true => exact ⟨hs''.1, fun h => absurd h hnot, fun _ => hafter⟩
      | false => exact ⟨hs''.1, fun h => absurd h hnot, fun _ => hafter⟩
    · -- another order's turn
      refine (rematchOne_frame hsteady hne).mono (fun filled' s'' hs'' => ?_) fun _ _ h => h
      have hin : id ∈ rest → s''.standing id = .working info := fun h =>
        hs''.2.trans (hbefore (List.mem_cons_of_mem _ h))
      have hout : id ∉ rest → s''.standing id = if filled then .done else .working info' :=
        fun h => hs''.2.trans (hafter fun hmem => h ((List.mem_cons.mp hmem).resolve_left
          fun heq => hne heq.symm))
      cases filled' with
      | true => exact ⟨hs''.1, hin, hout⟩
      | false => exact ⟨hs''.1, hin, hout⟩
  · -- a working order is listed
    have hmem : id ∈ s.workingOrderIds := List.count_pos_iff.mp (by omega)
    exact absurd hmem hnot

end Frame

/-! ## Whole runs -/

section Runs

variable {tradeRate : Int32} {s s' : ReplayOrderMatcher} {id : String} {c : Call}

/-- What a run leaves behind its first calls. -/
theorem run_after {first calls : List Call} {P : List Call → ReplayOrderMatcher → Prop}
    (nil : ∀ s, run tradeRate first = .ok () s → P [] s)
    (snoc : ∀ played c s s', played ++ [c] <+: calls → P played s → step c s = .ok () s' →
      P (played ++ [c]) s')
    {played : List Call} (hplayed : played <+: calls) {s : ReplayOrderMatcher}
    (h : run tradeRate (first ++ played) = .ok () s) : P played s := by
  -- the induction appends the calls at the end, as a run goes on there
  induction played using List.reverseRecOn generalizing s with
  | nil => exact nil s (by rwa [List.append_nil] at h)
  | append_singleton played c ih =>
    rw [← List.append_assoc] at h
    obtain ⟨s₀, hs₀, hstep⟩ := run_of_concat h
    exact snoc played c s₀ s hplayed (ih ((List.prefix_append played [c]).trans hplayed) hs₀) hstep

/-- A call that is not about an order leaves it as it stands. -/
theorem step_frame (h : Keyed s) (hadd : ∀ o, c.request = .add o → o.clientOrderId ≠ id)
    (hedit : ∀ o, c.request = .change o ∨ c.request = .delete o →
      o.clientOrderId ≠ id ∨ s.workingOrders[o.clientOrderId]? = none)
    (hupdate : ∀ l2 bidVolumn askVolumn, c.request = .stateChanged l2 bidVolumn askVolumn →
      id ∈ s.workingOrderIds → ∃ info, s.workingOrders[id]? = some info ∧
        info.order.contract ≠ l2.contract)
    (hstep : step c s = .ok () s') : Frame id s s' := by
  have hnow : Keyed { s with now := c.now } := h
  -- the clock is set first, and then the request is carried out
  have hsat : (handle c.request { s with now := c.now }).Sat
      (fun _ s' => Frame id { s with now := c.now } s') (fun _ _ => True) := by
    cases hrequest : c.request with
    | add o => exact add_frame hnow (hadd o hrequest)
    | change o => exact change_frame hnow (hedit o (.inl hrequest))
    | delete o => exact delete_frame hnow (hedit o (.inr hrequest))
    | query o => exact query_sat fun _ => ⟨h, rfl, rfl⟩
    | stateChanged l2 bidVolumn askVolumn =>
      exact onStateChanged_frame hnow (hupdate l2 bidVolumn askVolumn hrequest)
  have hresult : handle c.request { s with now := c.now } = .ok () s' := hstep
  rw [hresult] at hsat
  exact ⟨hsat.keyed, hsat.tradeRate, hsat.standing⟩

/-- An order that was never added is unknown. -/
theorem unknown_run {before : List Call}
    (hnew : ∀ c ∈ before, ∀ o, c.request = .add o → o.clientOrderId ≠ id)
    (hs : run tradeRate before = .ok () s) :
    Keyed s ∧ s.tradeRate = (create tradeRate).tradeRate ∧ s.standing id = .unknown := by
  refine run_induction (P := fun _ s => Keyed s ∧
    s.tradeRate = (create tradeRate).tradeRate ∧ s.standing id = .unknown)
    ⟨fun id info h => ?_, rfl, ?_⟩ (fun first c s s' hpfx hs _ hstep => ?_) (List.prefix_refl before) hs
  · -- the first state has no orders
    replace h : (∅ : Std.TreeMap String OrderInfo)[id]? = some info := h
    rw [Std.TreeMap.getElem?_emptyc] at h
    exact nomatch h
  · rfl
  · obtain ⟨hkeyed, hrate, hstanding⟩ := hs
    have hnone : s.workingOrders[id]? = none := congrArg Standing.info hstanding
    have hlisted : s.workingOrderIds.count id = 0 := congrArg Standing.listed hstanding
    -- a change or a cancel of the id itself is refused, as nothing works under it
    have hframe : Frame id s s' := by
      refine step_frame hkeyed (hnew c (hpfx.subset (List.mem_append_right _
        (List.mem_singleton.mpr rfl)))) (fun o _ => ?_) (fun _ _ _ _ hmem => ?_) hstep
      · by_cases ho : o.clientOrderId = id
        · exact .inr (by rwa [ho])
        · exact .inl ho
      · exact absurd hmem (List.count_eq_zero.mp hlisted)
    exact ⟨hframe.keyed, hframe.tradeRate.trans hrate, hframe.standing.trans hstanding⟩

/-- A new order that works starts its counter with the market data of that moment. -/
theorem standing_created {o : Order} {now : Ems.Timestamp} {p : Binary64} (h : Keyed s)
    (hunknown : s.standing o.clientOrderId = .unknown) (hp : Cxx.stod o.price = .ok p)
    (hshare : ∀ best, s.ownBest o = some best → share s.tradeRate best < 2 ^ 31)
    (hstep : step ⟨.add o, now⟩ s = .ok () s') (hworks : o.clientOrderId ∈ s'.workingOrders) :
    Keyed s' ∧ s'.tradeRate = s.tradeRate ∧
      s'.standing o.clientOrderId = .working (infoAt (workingOrder now o s.exchangeOrderIdOf)
        (Counter.idle.step (creationEvent s.tradeRate p (s.ownBest o)))) := by
  have hnone : s.workingOrders[o.clientOrderId]? = none := congrArg Standing.info hunknown
  have hlisted : s.workingOrderIds.count o.clientOrderId = 0 := congrArg Standing.listed hunknown
  have hfilled : s.filledOrders.contains o.clientOrderId = false := congrArg Standing.filled hunknown
  have hsat : (add o { s with now }).Sat (fun _ s' => o.clientOrderId ∈ s'.workingOrders →
      Keyed s' ∧ s'.tradeRate = s.tradeRate ∧
        s'.standing o.clientOrderId = .working (infoAt (workingOrder now o s.exchangeOrderIdOf)
          (Counter.idle.step (creationEvent s.tradeRate p (s.ownBest o)))))
      (fun _ _ => True) := by
    refine add_sat (fun _ _ => trivial) (fun o' hmatch hmem => ?_)
      (fun position hmatch hposition _ => ?_) fun _ _ _ => trivial
    · -- the order is filled at once
      replace hmem : o.clientOrderId ∈ s.workingOrders := hmem
      rw [Std.TreeMap.mem_iff_isSome_getElem?, hnone] at hmem
      exact nomatch hmem
    · -- the place that is stored is the one its first event gives to the counter
      have heq : infoAt (workingOrder now o s.exchangeOrderIdOf)
          (Counter.idle.step (creationEvent s.tradeRate p (s.ownBest o))) =
          { order := workingOrder now o s.exchangeOrderIdOf, position } := by
        have hcalc := calculateOrderPosition_eq hp hshare (workingOrder now o s.exchangeOrderIdOf)
        replace hposition : s.calculateOrderPosition o = .ok position := hposition
        rw [hposition] at hcalc
        cases hcalc
        unfold creationEvent
        split
        · rfl
        · split <;> rfl
      refine ⟨Keyed.insert (s := { s with now }) h rfl (.inr rfl), rfl, ?_⟩
      show Standing.mk (s.workingOrders.insert o.clientOrderId
          { order := workingOrder now o s.exchangeOrderIdOf, position })[o.clientOrderId]?
        ((s.workingOrderIds ++ [o.clientOrderId]).count o.clientOrderId)
        (s.filledOrders.contains o.clientOrderId) = _
      rw [Std.TreeMap.getElem?_insert_self, List.count_append, hlisted, List.count_singleton_self,
        hfilled, heq]
      rfl
  have hresult : add o { s with now } = .ok () s' := hstep
  rw [hresult] at hsat
  exact hsat hworks

/-- What a call is for an order at the price `p`: only the updates of its contract count. -/
def eventOf (tradeRate : UInt32) (o : Order) (p : Binary64) (c : Call) : Option Event :=
  match c.request with
  | .stateChanged l2 bidVolumn askVolumn =>
    if l2.contract = o.contract then
      some (updateEvent tradeRate o p (ownPrices o l2).head? (ownVolume o bidVolumn askVolumn))
    else none
  | _ => none

/-- The moments of an order: its creation, and the updates of its contract since. -/
def moments (tradeRate : UInt32) (o : Order) (p : Binary64) (creation : Option Dms.DataPoint)
    (calls : List Call) : List Event :=
  creationEvent tradeRate p creation :: calls.filterMap (eventOf tradeRate o p)

/-- A call that the order `o` can wait through: it does not ask for this order by its id, and
    an update does not match it and has prices and sizes that are exact. -/
structure Waits (tradeRate : UInt32) (o : Order) (c : Call) : Prop where
  leaves : ∀ o', c.request = .add o' ∨ c.request = .change o' ∨ c.request = .delete o' →
    o'.clientOrderId ≠ o.clientOrderId
  noMatch : ∀ l2 bidVolumn askVolumn, c.request = .stateChanged l2 bidVolumn askVolumn →
    l2.contract = o.contract → ¬ Marketable o l2
  sizes : ∀ l2 bidVolumn askVolumn, c.request = .stateChanged l2 bidVolumn askVolumn →
    l2.contract = o.contract → ∀ best, (ownPrices o l2).head? = some best →
      best.price ≠ .nan ∧ share tradeRate best < 2 ^ 31

section Moments

variable {rate : UInt32} {o : Order} {p : Binary64} {creation : Option Dms.DataPoint}
  {calls played : List Call}

/-- A call that is nothing for an order adds no moment. -/
theorem moments_concat_none (h : eventOf rate o p c = none) :
    moments rate o p creation (played ++ [c]) = moments rate o p creation played := by
  rw [moments, List.filterMap_append, List.filterMap_cons_none h, List.filterMap_nil,
    List.append_nil, moments]

/-- A call that is an event for an order adds this moment. -/
theorem moments_concat_some {e : Event} (h : eventOf rate o p c = some e) :
    moments rate o p creation (played ++ [c]) = moments rate o p creation played ++ [e] := by
  rw [moments, List.filterMap_append, List.filterMap_cons_some h, List.filterMap_nil, moments,
    List.cons_append]

/-- The moments of the first calls come first. -/
theorem moments_of_isPrefix (h : played <+: calls) :
    moments rate o p creation played <+: moments rate o p creation calls :=
  List.cons_prefix_cons.mpr ⟨rfl, h.filterMap _⟩

/-- Every place is one behind a share below `2 ^ 31`. -/
theorem share_of_hit (hcreation : ∀ best, creation = some best → share rate best < 2 ^ 31)
    (hwaits : ∀ c ∈ calls, Waits rate o c) {level weight : Nat}
    (h : Event.hit level weight ∈ moments rate o p creation calls) : level < 2 ^ 31 := by
  -- a hit is the creation itself, or an update that met the order's price
  rcases List.mem_cons.mp h with h | h
  · unfold creationEvent at h
    split at h
    · exact nomatch h
    · split at h
      · cases h
        exact hcreation _ rfl
      · exact nomatch h
  · obtain ⟨c, hc, hevent⟩ := List.mem_filterMap.mp h
    unfold eventOf at hevent
    split at hevent
    · next l2 bidVolumn askVolumn hrequest =>
      split at hevent
      · next hcontract =>
        obtain hevent := Option.some.inj hevent
        unfold updateEvent at hevent
        split at hevent
        · exact nomatch hevent
        · next best hbest =>
          split at hevent
          · cases hevent
            exact ((hwaits c hc).sizes l2 bidVolumn askVolumn hrequest hcontract best hbest).2
          · split at hevent <;> exact nomatch hevent
      · exact nomatch hevent
    · exact nomatch hevent

end Moments

/-- An update of the order's contract is an event. -/
theorem eventOf_stateChanged {rate : UInt32} {o : Order} {p : Binary64} {l2 : Dms.L2}
    {bidVolumn askVolumn : UInt32} (hrequest : c.request = .stateChanged l2 bidVolumn askVolumn)
    (hcontract : l2.contract = o.contract) :
    eventOf rate o p c =
      some (updateEvent rate o p (ownPrices o l2).head? (ownVolume o bidVolumn askVolumn)) := by
  rw [eventOf, hrequest]
  exact if_pos hcontract

/-- Only an update of the order's contract is an event. -/
theorem eq_stateChanged_of_event {rate : UInt32} {o : Order} {p : Binary64} {e : Event}
    (h : eventOf rate o p c = some e) : ∃ l2 bidVolumn askVolumn,
      c.request = .stateChanged l2 bidVolumn askVolumn ∧ l2.contract = o.contract := by
  unfold eventOf at h
  split at h
  · next l2 bidVolumn askVolumn hrequest =>
    split at h
    · next hcontract => exact ⟨l2, bidVolumn, askVolumn, hrequest, hcontract⟩
    · exact nomatch h
  · exact nomatch h

/-- A call that an order waits through moves it as its event moves the counter. -/
theorem step_moves {o order : Order} {p : Binary64} {counter : Counter} (h : Keyed s)
    (horder : ∃ now exchangeOrderId, order = workingOrder now o exchangeOrderId)
    (hp : Cxx.stod o.price = .ok p) (hnan : p ≠ .nan)
    (hstanding : s.standing o.clientOrderId = .ofCounter order counter)
    (hwaits : Waits s.tradeRate o c)
    (hlevel : ∀ level total, counter = .armed level total → level < 2 ^ 31 ∧
      ∀ level' weight, eventOf s.tradeRate o p c = some (.hit level' weight) →
        total + weight < 2 ^ 32)
    (hstep : step c s = .ok () s') :
    Keyed s' ∧ s'.tradeRate = s.tradeRate ∧ s'.standing o.clientOrderId = .ofCounter order
      (match eventOf s.tradeRate o p c with
        | none => counter
        | some e => counter.step e) := by
  obtain ⟨now, exchangeOrderId, rfl⟩ := horder
  by_cases hfired : counter = .fired
  · -- an order that is filled is not listed
    subst hfired
    have hlisted : s.workingOrderIds.count o.clientOrderId = 0 :=
      congrArg Standing.listed hstanding
    have hframe : Frame o.clientOrderId s s' := step_frame h
      (fun o' ho' => hwaits.leaves o' (.inl ho')) (fun o' ho' => .inl (hwaits.leaves o' (.inr ho')))
      (fun _ _ _ _ hmem => absurd hmem (List.count_eq_zero.mp hlisted)) hstep
    refine ⟨hframe.keyed, hframe.tradeRate, ?_⟩
    rw [hframe.standing, hstanding]
    split <;> rfl
  -- otherwise it works, with its counter in its entry
  rw [Standing.ofCounter_of_ne hfired] at hstanding
  have hinfo : s.workingOrders[o.clientOrderId]? =
      some (infoAt (workingOrder now o exchangeOrderId) counter) :=
    congrArg Standing.info hstanding
  have hsame : (infoAt (workingOrder now o exchangeOrderId) counter).order =
      workingOrder now o exchangeOrderId := by
    cases counter <;> rfl
  cases hevent : eventOf s.tradeRate o p c with
  | none =>
    have hframe : Frame o.clientOrderId s s' := by
      refine step_frame h (fun o' ho' => hwaits.leaves o' (.inl ho'))
        (fun o' ho' => .inl (hwaits.leaves o' (.inr ho')))
        (fun l2 bidVolumn askVolumn hrequest _ => ⟨_, hinfo, fun hcontract => ?_⟩) hstep
      -- an update of its contract would be an event
      rw [hsame] at hcontract
      rw [eventOf_stateChanged (o := o) hrequest hcontract.symm] at hevent
      exact nomatch hevent
    refine ⟨hframe.keyed, hframe.tradeRate, ?_⟩
    rw [hframe.standing, hstanding, Standing.ofCounter_of_ne hfired]
  | some e =>
    obtain ⟨l2, bidVolumn, askVolumn, hrequest, hcontract⟩ := eq_stateChanged_of_event hevent
    have he : eventOf s.tradeRate o p c = some (updateEvent s.tradeRate o p (ownPrices o l2).head?
        (ownVolume o bidVolumn askVolumn)) := eventOf_stateChanged hrequest hcontract
    rw [hevent] at he
    -- whether it matches depends on its side, type and price, which its report has kept
    have hsides : Marketable (workingOrder now o exchangeOrderId) l2 ↔ Marketable o l2 :=
      marketable_congr rfl rfl rfl
    have hmarket : ¬ Marketable (workingOrder now o exchangeOrderId) l2 := fun hmatch =>
      hwaits.noMatch l2 bidVolumn askVolumn hrequest hcontract (hsides.mp hmatch)
    have hsat : (onStateChanged l2 bidVolumn askVolumn { s with now := c.now }).Sat
        (fun _ s' => Keyed s' ∧ s'.tradeRate = s.tradeRate ∧ s'.standing o.clientOrderId =
          if decide (counter.step e = .fired) then .done
          else .working (infoAt (workingOrder now o exchangeOrderId) (counter.step e)))
        (fun _ _ => True) := by
      refine onStateChanged_own (s := { s with now := c.now }) h hstanding (by rw [hsame]; rfl)
        (by rw [hsame]; exact hcontract.symm) fun s₁ hrate hstate => ?_
      rw [hsame] at hstate
      replace hrate : s₁.tradeRate = s.tradeRate := hrate
      -- no sum of volumes wraps around on the way
      have hlevel' : ∀ level total, counter = .armed level total → level < 2 ^ 31 ∧
          ∀ level' weight, e = .hit level' weight → total + weight < 2 ^ 32 := by
        intro level total harmed
        obtain ⟨hpos, hsum⟩ := hlevel level total harmed
        exact ⟨hpos, fun level' weight heq => hsum level' weight (hevent.trans (congrArg some heq))⟩
      obtain ⟨info', hmatch, hkept⟩ := hasRematching_eq (s := s₁) hstate hmarket hp hnan hfired
        (hrate ▸ hwaits.sizes l2 bidVolumn askVolumn hrequest hcontract)
        (hrate ▸ (Option.some.inj he).symm) hlevel'
      exact ⟨info', hmatch, fun hnot => hkept (of_decide_eq_false hnot)⟩
    have hresult : handle c.request { s with now := c.now } = .ok () s' := hstep
    rw [hrequest] at hresult
    replace hresult : onStateChanged l2 bidVolumn askVolumn { s with now := c.now } = .ok () s' :=
      hresult
    rw [hresult] at hsat
    obtain ⟨hkeyed, hrate, hstanding'⟩ := hsat
    refine ⟨hkeyed, hrate, hstanding'.trans ?_⟩
    by_cases hstep : counter.step e = .fired
    · simp only [hstep, decide_true, if_true]
      rfl
    · simp only [hstep, decide_false, Bool.false_eq_true, if_false]
      exact (Standing.ofCounter_of_ne hstep).symm

/-- The order stands as its moments have moved the counter, in every state that a run goes
    through after its creation. -/
theorem standing_of_run {before calls : List Call} {o : Order} {now : Ems.Timestamp}
    {p : Binary64} {s₀ s₁ : ReplayOrderMatcher}
    (hnew : ∀ c ∈ before, ∀ o', c.request = .add o' → o'.clientOrderId ≠ o.clientOrderId)
    (hs₀ : run tradeRate before = .ok () s₀) (hs₁ : step ⟨.add o, now⟩ s₀ = .ok () s₁)
    (hworks : o.clientOrderId ∈ s₁.workingOrders) (hp : Cxx.stod o.price = .ok p)
    (hnan : p ≠ .nan)
    (hcreation : ∀ best, s₀.ownBest o = some best →
      share (create tradeRate).tradeRate best < 2 ^ 31)
    (hwaits : ∀ c ∈ calls, Waits (create tradeRate).tradeRate o c)
    (htotal : Threshold.total (moments (create tradeRate).tradeRate o p (s₀.ownBest o) calls) < 2 ^ 32)
    {played : List Call} (hplayed : played <+: calls) {s : ReplayOrderMatcher}
    (hs : run tradeRate (before ++ ⟨.add o, now⟩ :: played) = .ok () s) :
    Keyed s ∧ s.tradeRate = (create tradeRate).tradeRate ∧
      s.standing o.clientOrderId = .ofCounter (workingOrder now o s₀.exchangeOrderIdOf)
        ((moments (create tradeRate).tradeRate o p (s₀.ownBest o) played).foldl Counter.step
          .idle) := by
  obtain ⟨hkeyed₀, hrate₀, hunknown⟩ := unknown_run hnew hs₀
  rw [List.append_cons] at hs
  refine run_after (P := fun played s => Keyed s ∧ s.tradeRate = (create tradeRate).tradeRate ∧
    s.standing o.clientOrderId = .ofCounter (workingOrder now o s₀.exchangeOrderIdOf)
      ((moments (create tradeRate).tradeRate o p (s₀.ownBest o) played).foldl Counter.step .idle))
    (fun s hs => ?_) (fun played c s s' hpfx hP hstep => ?_) hplayed hs
  · -- right after its creation only the first moment has come
    rw [run_concat hs₀] at hs
    rw [hs₁] at hs
    cases hs
    obtain ⟨hkeyed, hrate, hstanding⟩ := standing_created hkeyed₀ hunknown hp
      (fun best hbest => hrate₀ ▸ hcreation best hbest) hs₁ hworks
    refine ⟨hkeyed, hrate.trans hrate₀, ?_⟩
    rw [hstanding, hrate₀]
    refine (Standing.ofCounter_of_ne ?_).symm
    unfold creationEvent
    split
    · exact nofun
    · split <;> exact nofun
  · obtain ⟨hkeyed, hrate, hstanding⟩ := hP
    have hc : c ∈ calls := hpfx.subset (List.mem_append_right _ (List.mem_singleton.mpr rfl))
    have hbefore : played <+: calls := (List.prefix_append played [c]).trans hpfx
    -- what `step_moves` asks of the counter holds of the moments so far
    have hlevel : ∀ level total, (moments (create tradeRate).tradeRate o p (s₀.ownBest o)
          played).foldl Counter.step .idle = .armed level total → level < 2 ^ 31 ∧
        ∀ level' weight, eventOf s.tradeRate o p c = some (.hit level' weight) →
          total + weight < 2 ^ 32 := by
      -- the places and the sums stay in range
      intro level total harmed
      obtain ⟨hlevel, hsum⟩ := Threshold.of_foldl_step_eq_armed harmed
      obtain ⟨weight, hhit⟩ := Threshold.mem_of_level? hlevel
      refine ⟨share_of_hit hcreation (fun c hc => hwaits c (hbefore.subset hc)) hhit,
        fun level' weight' hevent => ?_⟩
      rw [hrate] at hevent
      have hle : Threshold.total (moments (create tradeRate).tradeRate o p (s₀.ownBest o)
            (played ++ [c])) ≤
          Threshold.total (moments (create tradeRate).tradeRate o p (s₀.ownBest o) calls) :=
        Threshold.total_le_of_prefix (moments_of_isPrefix hpfx)
      rw [moments_concat_some hevent, Threshold.total_append_of_some hlevel, hsum] at hle
      exact lt_of_le_of_lt hle htotal
    obtain ⟨hkeyed', hrate', hstanding'⟩ :=
      step_moves hkeyed ⟨now, _, rfl⟩ hp hnan hstanding (hrate ▸ hwaits c hc) hlevel hstep
    refine ⟨hkeyed', hrate'.trans hrate, hstanding'.trans ?_⟩
    rw [hrate]
    cases hevent : eventOf (create tradeRate).tradeRate o p c with
    | none => rw [moments_concat_none hevent]
    | some e =>
      rw [moments_concat_some hevent, List.foldl_append, List.foldl_cons, List.foldl_nil]

/-! ## Prices that can be read -/

/-- The prices of all working orders can be read. -/
def Readable (s : ReplayOrderMatcher) : Prop :=
  ∀ (id : String) (info : OrderInfo), s.workingOrders[id]? = some info →
    info = {} ∨ ∃ p, Cxx.stod info.order.price = .ok p

/-- An order with a price that can be read is matched without an exception. -/
theorem hasMatching_readable {o : Order} {p : Binary64} (hp : Cxx.stod o.price = .ok p) :
    ∃ r, s.hasMatching o = .ok r := by
  unfold hasMatching
  split
  · exact ⟨_, rfl⟩
  · exact isPriceMatching_readable hp _

/-- An order with a price that can be read gets its place without an exception. -/
theorem calculateOrderPosition_readable {o : Order} {p : Binary64}
    (hp : Cxx.stod o.price = .ok p) : ∃ position, s.calculateOrderPosition o = .ok position := by
  cases hstate : s.currentStates[o.contract]? with
  | none =>
    unfold calculateOrderPosition
    rewrite [hstate]
    exact ⟨_, rfl⟩
  | some state =>
    rw [calculateOrderPosition_of_state hstate, hp]
    cases ownPrices o state.l2 with
    | nil => exact ⟨_, rfl⟩
    | cons best rest => exact ⟨_, rfl⟩

/-- An order with a price that can be read is rematched without an exception. -/
theorem hasRematching_readable {info : OrderInfo} {p : Binary64}
    (hp : Cxx.stod info.order.price = .ok p) : ∃ r, s.hasRematching info = .ok r := by
  -- the price is read once more, for the place in the queue
  have hposition : ∀ prices volume compare,
      ∃ r, s.isPositionReached info prices volume compare = .ok r := by
    intro prices volume compare
    unfold isPositionReached
    cases prices with
    | nil => exact ⟨_, rfl⟩
    | cons best rest =>
      simp only [hp, Except.ok_bind]
      split
      · exact ⟨_, rfl⟩
      · split
        · exact ⟨_, rfl⟩
        · split <;> exact ⟨_, rfl⟩
  unfold hasRematching
  split
  · exact ⟨_, rfl⟩
  · next state _ =>
    obtain ⟨⟨matched, order⟩, hmatch⟩ := isPriceMatching_readable hp state.l2
    rw [hmatch]
    cases matched with
    | true => exact ⟨_, rfl⟩
    | false =>
      rw [isPriceMatching_false hmatch]
      simp only [Except.ok_bind, Bool.false_eq_true, if_false]
      cases info.order.buySell with
      | none => exact ⟨_, rfl⟩
      | buy => exact hposition _ _ _
      | sell => exact hposition _ _ _

/-- An entry with a price that can be read keeps the others. -/
theorem Readable.insert {info : OrderInfo} (h : Readable s)
    (hworking : s'.workingOrders = s.workingOrders.insert id info)
    (hinfo : info = {} ∨ ∃ p, Cxx.stod info.order.price = .ok p) : Readable s' := by
  intro id' info' h'
  rw [hworking, Std.TreeMap.getElem?_insert_if] at h'
  split at h'
  · cases h'
    exact hinfo
  · exact h id' info' h'

/-- Taking an entry out keeps the others. -/
theorem Readable.erase (h : Readable s) (hworking : s'.workingOrders = s.workingOrders.erase id) :
    Readable s' := by
  intro id' info' h'
  rw [hworking, Std.TreeMap.getElem?_erase_if] at h'
  split at h'
  · exact nomatch h'
  · exact h id' info' h'

/-- A turn reads the price of a working order only. -/
theorem Readable.rematchOne {contract : String} {kept rest : List String} (h : Readable s)
    (hkeyed : Keyed s) : (rematchOne contract kept id rest s).Sat
      (fun _ s' => Readable s' ∧ Keyed s') (fun _ _ => False) := by
  refine rematchOne_sat (fun hnone t ht => ?_) (fun _ _ _ => ⟨h, hkeyed⟩)
    (fun info e hinfo _ herror => ?_) (fun info info' hinfo _ hmatch => ?_)
    fun info info' hinfo _ hmatch => ?_
  · -- an entry that is made by looking for it has no price to read
    have hnew : ∀ (id' : String) (info' : OrderInfo), t[id']? = some info' →
        info' = {} ∨ s.workingOrders[id']? = some info' := by
      intro id' info' h'
      rw [ht] at h'
      split at h'
      · cases h'
        exact .inl rfl
      · exact .inr h'
    exact ⟨fun id' info' h' => (hnew id' info' h').elim .inl (h id' info'),
      fun id' info' h' => (hnew id' info' h').elim .inl (hkeyed id' info')⟩
  · -- an exception would come from the price of the entry
    rcases h id info hinfo with rfl | ⟨p, hp⟩
    · rw [hasRematching_empty] at herror
      exact nomatch herror
    · obtain ⟨r, hr⟩ := hasRematching_readable (s := s) hp
      rw [hr] at herror
      exact nomatch herror
  · have hid := (hkeyed.rematch hinfo hmatch).imp_left (·.1)
    refine ⟨h.insert rfl ?_, hkeyed.insert rfl hid⟩
    rcases h id info hinfo with rfl | ⟨p, hp⟩
    · rw [hasRematching_empty] at hmatch
      cases hmatch
      exact .inl rfl
    · -- an order that stays keeps its price
      have hsame : info'.order = info.order := by
        rcases hasRematching_cases hmatch with ⟨-, -, rfl⟩ | ⟨_, -, ⟨hfalse, -⟩ | ⟨-, hsame, -⟩⟩
        · rfl
        · exact nomatch hfalse
        · exact hsame
      exact .inr ⟨p, hsame ▸ hp⟩
  · -- the order that is filled works no longer
    have hid : info'.order.clientOrderId = id :=
      (hkeyed.rematch hinfo hmatch).resolve_left fun h' => nomatch h'.2
    have hold : ∀ (id' : String) (info'' : OrderInfo),
        (s.rematched kept id rest info').workingOrders[id']? = some info'' →
          s.workingOrders[id']? = some info'' := by
      intro id' info'' h'
      replace h' : ((s.workingOrders.insert id info').erase
        info'.order.clientOrderId)[id']? = some info'' := h'
      rw [hid, Std.TreeMap.getElem?_erase_if] at h'
      split at h'
      · exact nomatch h'
      · next hne => rwa [getElem?_insert_of_ne (Ne.symm hne)] at h'
    exact ⟨fun id' info'' h' => h id' info'' (hold id' info'' h'),
      fun id' info'' h' => hkeyed id' info'' (hold id' info'' h')⟩

/-- A call whose prices can be read returns. -/
theorem Readable.step (h : Readable s) (hkeyed : Keyed s)
    (hprices : ∀ o, c.request = .add o ∨ c.request = .change o → ∃ p, Cxx.stod o.price = .ok p) :
    (step c s).Sat (fun _ s' => Readable s' ∧ Keyed s') (fun _ _ => False) := by
  have hnow : Keyed { s with now := c.now } := hkeyed
  have hread : Readable { s with now := c.now } := h
  show (handle c.request { s with now := c.now }).Sat _ _
  cases hrequest : c.request with
  | add o =>
    -- the two exceptions of an `Add` come from its price
    obtain ⟨p, hp⟩ := hprices o (.inl hrequest)
    refine add_sat (fun e herror => ?_) (fun _ _ => ⟨h, hkeyed⟩)
      (fun position _ _ => ⟨hread.insert rfl (.inr ⟨p, hp⟩), hnow.insert rfl (.inr rfl)⟩)
      fun e _ herror => ?_
    · obtain ⟨r, hr⟩ := hasMatching_readable (s := { s with now := c.now }) hp
      rw [hr] at herror
      exact nomatch herror
    · obtain ⟨r, hr⟩ := calculateOrderPosition_readable (s := { s with now := c.now }) hp
      rw [hr] at herror
      exact nomatch herror
  | change o =>
    -- so does the one of a `Change`
    obtain ⟨p, hp⟩ := hprices o (.inr hrequest)
    refine change_sat (fun _ _ => ⟨h, hkeyed⟩)
      (fun _ _ _ _ _ _ => ⟨hread.insert rfl (.inr ⟨p, hp⟩), hnow.insert rfl (.inr rfl)⟩)
      fun e _ herror => ?_
    obtain ⟨r, hr⟩ := calculateOrderPosition_readable (s := { s with now := c.now }) hp
    rw [hr] at herror
    exact nomatch herror
  | delete o =>
    exact delete_sat (fun _ => ⟨h, hkeyed⟩) fun _ _ _ _ _ => ⟨hread.erase rfl, hnow.erase rfl⟩
  | query o => exact query_sat fun _ => ⟨h, hkeyed⟩
  | stateChanged l2 bidVolumn askVolumn =>
    show (onStateChanged l2 bidVolumn askVolumn { s with now := c.now }).Sat _ _
    refine (onStateChanged_sat (s := { s with now := c.now })
      (I := fun _ _ s' => Readable s' ∧ Keyed s') (fun kept id rest s' hI => ?_)
      ⟨hread, hnow⟩).mono (fun _ s' ⟨_, h⟩ => h) fun _ _ h => h
    refine (hI.1.rematchOne hI.2).mono (fun filled s'' hs'' => ?_) fun _ _ h => h
    cases filled <;> exact hs''

/-- A run whose prices can be read returns. -/
theorem run_returns {calls : List Call} (hprices : ∀ c ∈ calls, ∀ o,
    c.request = .add o ∨ c.request = .change o → ∃ p, Cxx.stod o.price = .ok p) :
    ∃ s, run tradeRate calls = .ok () s ∧ Readable s ∧ Keyed s := by
  -- the induction is on the calls, the last one at the end
  induction calls using List.reverseRecOn with
  | nil =>
    refine ⟨create tradeRate, rfl, fun id info h => ?_, fun id info h => ?_⟩
    all_goals
      replace h : (∅ : Std.TreeMap String OrderInfo)[id]? = some info := h
      rw [Std.TreeMap.getElem?_emptyc] at h
      exact nomatch h
  | append_singleton calls c ih =>
    obtain ⟨s, hs, hread, hkeyed⟩ := ih fun c' hc' => hprices c' (List.mem_append_left _ hc')
    have hsat := hread.step hkeyed (hprices c (List.mem_append_right _ (List.mem_singleton.mpr rfl)))
    rw [run_concat hs]
    cases hstep : step c s with
    | ok a s' =>
      rw [hstep] at hsat
      exact ⟨s', rfl, hsat⟩
    | error e s' =>
      rw [hstep] at hsat
      exact hsat.elim

end Runs

/-! ## The law of the queue -/

/-- The order works at the place that its first moment at its price gave it, with what was
    traded at this price since. -/
def QueuesAt (s : ReplayOrderMatcher) (id : String) (moments : List Event) : Prop :=
  ∃ info : OrderInfo, s.workingOrders[id]? = some info ∧ id ∉ s.filledOrders ∧
    info.position.toInt = ((Threshold.level? moments).map Int.ofNat).getD (-1) ∧
    info.turnover.toNat = Threshold.total moments

/-- The order is filled. -/
def IsFilled (s : ReplayOrderMatcher) (id : String) : Prop :=
  id ∉ s.workingOrders ∧ id ∈ s.filledOrders

/-- The table of fills says whether an order is filled. -/
theorem not_filled_of_standing {s : ReplayOrderMatcher} {id : String}
    (h : (s.standing id).filled = false) : id ∉ s.filledOrders := fun hmem => by
  have hcontains : (s.standing id).filled = true := Std.TreeMap.contains_iff_mem.mpr hmem
  rw [h] at hcontains
  exact nomatch hcontains

/-- An order whose standing is that of its counter queues until the counter fires, and is filled
    from then on. -/
theorem queuesAt_of_standing {s : ReplayOrderMatcher} {id : String} {order : Order}
    {events : List Event}
    (h : s.standing id = .ofCounter order (events.foldl Counter.step .idle))
    (hlevel : ∀ level, Threshold.level? events = some level → level < 2 ^ 31)
    (htotal : Threshold.total events < 2 ^ 32) :
    (¬ Threshold.Fired events → s.QueuesAt id events) ∧
      (Threshold.Fired events → s.IsFilled id) := by
  constructor
  · intro hfired
    rw [Threshold.foldl_step_of_not_fired hfired, Threshold.counterOf] at h
    -- it has its place from its first hit on
    cases hfirst : Threshold.level? events with
    | none =>
      rw [hfirst] at h
      refine ⟨infoAt order .idle, congrArg Standing.info h,
        not_filled_of_standing (congrArg Standing.filled h), ?_, ?_⟩
      · rw [hfirst]
        rfl
      · rw [Threshold.total_of_none hfirst]
        rfl
    | some level =>
      rw [hfirst] at h
      refine ⟨infoAt order (.armed level (Threshold.total events)), congrArg Standing.info h,
        not_filled_of_standing (congrArg Standing.filled h), ?_, UInt32.toNat_ofNat_of_lt' htotal⟩
      rw [hfirst]
      exact positionOf_toInt (hlevel level hfirst)
  · intro hfired
    rw [Threshold.foldl_step_of_fired hfired] at h
    -- a counter that has fired stands for an order that is done
    have hnone : s.workingOrders[id]? = none := congrArg Standing.info h
    have hfilled : s.filledOrders.contains id = true := congrArg Standing.filled h
    refine ⟨fun hmem => ?_, Std.TreeMap.contains_iff_mem.mp hfilled⟩
    rw [Std.TreeMap.mem_iff_isSome_getElem?, hnone] at hmem
    cases hmem

/-- The law of the queue, for an order `o` at the price `p` under an id of its own, that works
    after it was added, over every sequence of calls that it can wait through: it waits at the
    place of its first moment at its price, and it is filled at the first update at which the
    best price of its side is worse, or is its own and the volume since is over its place. An
    update without a quote of its side, or with a better one, changes nothing. And the run goes
    on, as long as the prices of the orders can be read. -/
theorem queue_position (tradeRate : Int32) (before calls : List Call) (o : Order)
    (now : Ems.Timestamp) (p : Binary64) (s₀ s₁ : ReplayOrderMatcher)
    (hnew : ∀ c ∈ before, ∀ o', c.request = .add o' → o'.clientOrderId ≠ o.clientOrderId)
    (hs₀ : run tradeRate before = .ok () s₀) (hs₁ : step ⟨.add o, now⟩ s₀ = .ok () s₁)
    (hworks : o.clientOrderId ∈ s₁.workingOrders)
    (hp : Cxx.stod o.price = .ok p) (hnan : p ≠ .nan)
    (hcreation : ∀ best, s₀.ownBest o = some best →
      share (create tradeRate).tradeRate best < 2 ^ 31)
    (hwaits : ∀ c ∈ calls, Waits (create tradeRate).tradeRate o c)
    (htotal : Threshold.total (moments (create tradeRate).tradeRate o p (s₀.ownBest o) calls) <
      2 ^ 32) :
    (∀ played, played <+: calls → ∀ s, run tradeRate (before ++ ⟨.add o, now⟩ :: played) = .ok () s →
      let seen := moments (create tradeRate).tradeRate o p (s₀.ownBest o) played
      (¬ Threshold.Fired seen → s.QueuesAt o.clientOrderId seen) ∧
        (Threshold.Fired seen → s.IsFilled o.clientOrderId)) ∧
    (∀ played c, played ++ [c] <+: calls → ∀ s s',
      run tradeRate (before ++ ⟨.add o, now⟩ :: played) = .ok () s → step c s = .ok () s' →
      ∀ l2 bidVolumn askVolumn, c.request = .stateChanged l2 bidVolumn askVolumn →
        l2.contract = o.contract →
        (∀ best, (ownPrices o l2).head? = some best → better o best.price p = true) →
        s'.standing o.clientOrderId = s.standing o.clientOrderId) ∧
    ((∀ c ∈ before ++ ⟨.add o, now⟩ :: calls, ∀ o',
        c.request = .add o' ∨ c.request = .change o' → ∃ q, Cxx.stod o'.price = .ok q) →
      ∃ s, run tradeRate (before ++ ⟨.add o, now⟩ :: calls) = .ok () s) := by
  -- what stands under the id is what its moments make of an idle counter
  have hrun : ∀ {played : List Call} (hplayed : played <+: calls) {s : ReplayOrderMatcher}
      (hs : run tradeRate (before ++ ⟨.add o, now⟩ :: played) = .ok () s), _ :=
    fun hplayed _ hs =>
      standing_of_run hnew hs₀ hs₁ hworks hp hnan hcreation hwaits htotal hplayed hs
  refine ⟨fun played hplayed s hs => ?_, fun played c hpfx s s' hs hstep l2 bidVolumn askVolumn
    hrequest hcontract hbetter => ?_, fun hprices => ?_⟩
  · -- the places and the sums stay in range, as the order waits through all calls
    obtain ⟨-, -, hstanding⟩ := hrun hplayed hs
    refine queuesAt_of_standing hstanding (fun level hlevel => ?_) ?_
    · obtain ⟨weight, hhit⟩ := Threshold.mem_of_level? hlevel
      exact share_of_hit hcreation (fun c hc => hwaits c (hplayed.subset hc)) hhit
    · exact lt_of_le_of_lt (Threshold.total_le_of_prefix (moments_of_isPrefix hplayed)) htotal
  · have hplayed : played <+: calls := (List.prefix_append played [c]).trans hpfx
    -- an update with a better quote, or with none, is the event that skips
    have hs' : run tradeRate (before ++ ⟨.add o, now⟩ :: (played ++ [c])) = .ok () s' := by
      rw [← List.cons_append, ← List.append_assoc, run_concat hs, hstep]
    obtain ⟨-, -, hstanding⟩ := hrun hplayed hs
    obtain ⟨-, -, hstanding'⟩ := hrun hpfx hs'
    have hevent : eventOf (create tradeRate).tradeRate o p c = some .skip := by
      rw [eventOf_stateChanged hrequest hcontract]
      cases hbest : (ownPrices o l2).head? with
      | none => rfl
      | some best => rw [updateEvent_of_better (hbetter best hbest)]
    rw [hstanding', hstanding, moments_concat_some hevent, List.foldl_append, List.foldl_cons,
      List.foldl_nil]
    congr 1
    generalize List.foldl _ _ _ = counter
    cases counter <;> rfl
  · obtain ⟨s, hs, -⟩ := run_returns hprices
    exact ⟨s, hs⟩

private def queuedBuy : Order :=
  { clientOrderId := "C1", contract := "T1", buySell := .buy, price := "10", quantity := 1, orderType := .limit }

/-- Lots are bid at 10, some more are offered at 11, and some were bought. -/
private def bidAtTen (size : UInt64) (bidVolumn : UInt32) : Call :=
  ⟨.stateChanged { contract := "T1", bid := [⟨.fin 10, size⟩], offer := [⟨.fin 11, 5⟩] } bidVolumn 0, {}⟩

private def queuedFirst : ReplayOrderMatcher := (run 50 [bidAtTen 50 90]).state

private def queuedSecond : ReplayOrderMatcher := (step ⟨.add queuedBuy, {}⟩ queuedFirst).state

/-- An order to buy at 10 is put behind the half of 50 lots. It waits while 20 lots are traded,
    and is filled with the next 6. -/
theorem queue_position_half :
    (∃ s, run 50 [bidAtTen 50 90, ⟨.add queuedBuy, {}⟩, bidAtTen 40 20] = .ok () s ∧
      s.QueuesAt "C1" [.hit 25 0, .hit 20 20]) ∧
    ∃ s, run 50 [bidAtTen 50 90, ⟨.add queuedBuy, {}⟩, bidAtTen 40 20, bidAtTen 40 6] = .ok () s ∧
      s.IsFilled "C1" := by
  -- the order is accepted and works
  have hs₁ : step ⟨.add queuedBuy, {}⟩ queuedFirst = .ok () queuedSecond := by
    have hok : (match step ⟨.add queuedBuy, {}⟩ queuedFirst with
      | .ok _ _ => true
      | .error _ _ => false) = true := by decide +kernel
    cases hstep : step ⟨.add queuedBuy, {}⟩ queuedFirst with
    | ok a s => rw [queuedSecond, hstep]; rfl
    | error e s =>
      rw [hstep] at hok
      exact nomatch hok
  have hp : Cxx.stod queuedBuy.price = .ok (.fin 10) := by decide +kernel
  -- the two updates are for its contract and do not match it
  have hwaits : ∀ c ∈ [bidAtTen 40 20, bidAtTen 40 6], Waits (create 50).tradeRate queuedBuy c := by
    intro c hc
    have hc : ∃ bidVolumn, c = bidAtTen 40 bidVolumn := by
      rcases List.mem_cons.mp hc with rfl | hc
      · exact ⟨20, rfl⟩
      · exact ⟨6, List.mem_singleton.mp hc⟩
    obtain ⟨bidVolumn, rfl⟩ := hc
    refine ⟨fun o' h => ?_, fun l2 _ _ h _ => ?_, fun l2 _ _ h _ best hbest => ?_⟩
    · rcases h with h | h | h <;> exact nomatch h
    · cases h
      decide +kernel
    · cases h
      cases hbest
      exact ⟨nofun, by decide⟩
  have hlaw := queue_position 50 [bidAtTen 50 90] [bidAtTen 40 20, bidAtTen 40 6] queuedBuy {}
    (.fin 10) queuedFirst queuedSecond (fun c hc o' h => by
      rw [List.mem_singleton.mp hc] at h
      exact nomatch h) rfl hs₁ (by decide +kernel) hp nofun (fun best hbest => by
      have hsize : queuedFirst.ownBest queuedBuy = some ⟨.fin 10, 50⟩ := by decide +kernel
      rw [hsize] at hbest
      cases hbest
      decide) hwaits (by decide +kernel)
  obtain ⟨hlaw, -, hreturns⟩ := hlaw
  -- the run returns, as the one price in it can be read
  obtain ⟨s', hs'⟩ := hreturns fun c hc o' h => by
    have hadd : o' = queuedBuy := by
      simp only [List.singleton_append, List.mem_cons, List.not_mem_nil, or_false] at hc
      rcases hc with rfl | rfl | rfl | rfl <;> rcases h with h | h <;> cases h
      rfl
    rw [hadd]
    exact ⟨_, hp⟩
  have hwhole : run 50 ([bidAtTen 50 90, ⟨.add queuedBuy, {}⟩, bidAtTen 40 20] ++
      [bidAtTen 40 6]) = .ok () s' := hs'
  obtain ⟨s, hs, -⟩ := run_of_concat hwhole
  have hfirst := hlaw [bidAtTen 40 20] ⟨[bidAtTen 40 6], rfl⟩ s hs
  have hsecond := hlaw [bidAtTen 40 20, bidAtTen 40 6] List.prefix_rfl s' hs'
  -- its moments: its place at its creation, and the lots that were traded
  have hseen : moments (create 50).tradeRate queuedBuy (.fin 10) (queuedFirst.ownBest queuedBuy)
      [bidAtTen 40 20] = [.hit 25 0, .hit 20 20] := by decide +kernel
  have hseen' : moments (create 50).tradeRate queuedBuy (.fin 10) (queuedFirst.ownBest queuedBuy)
      [bidAtTen 40 20, bidAtTen 40 6] = [.hit 25 0, .hit 20 20, .hit 20 6] := by decide +kernel
  simp only [hseen] at hfirst
  simp only [hseen'] at hsecond
  refine ⟨⟨s, hs, hfirst.1 fun hfired => ?_⟩, s', hs', hsecond.2 ?_⟩
  · have hcounter := Threshold.foldl_step_of_fired hfired
    exact absurd hcounter (by decide)
  · exact ⟨[.hit 25 0, .hit 20 20], .hit 20 6, List.prefix_rfl, .inr ⟨nofun, 25, rfl, by decide⟩⟩

end ReplayOrderMatcher

end FixHandler.Tmalpha
