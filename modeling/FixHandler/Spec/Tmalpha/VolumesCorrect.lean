import Mathlib
import FixHandler.ForStd.EachStep
import FixHandler.ForStd.TreeMap
import FixHandler.Native.Tmalpha.ReplayListener

/-!
# Traded volumes are handed on

What the L2 changed callback is given adds up to what was traded since the first turnover, if each
L2 follows a turnover of its own that raises the total, and none comes before the second turnover.
The volume of the last turnover is not cleared when it was handed on, and it is replaced by the next
one if it was not; before the first turnover the total is taken to be 0.

## Key results

- `calculateCurrentTradeVolumn_sum`: the two sides share the volume of the interval
- `handedOnce_iff`: the sequences of events where everything is handed on once
-/

namespace FixHandler.Tmalpha.Listener

/-! ## The division -/

/-- A size that is cast to an `int` wraps around. -/
theorem toInt_toInt32 (n : UInt32) : n.toInt32.toInt = (n.toNat : Int).bmod (2 ^ 32) :=
  BitVec.toInt_eq_toNat_bmod n.toBitVec

/-- A volume of 31 bits is an `int`. -/
theorem toInt_volumn {volumn : UInt64} (h : volumn.toNat < 2 ^ 31) :
    volumn.toUInt32.toInt32.toInt = volumn.toNat := by
  rw [toInt_toInt32, UInt64.toNat_toUInt32, Int.bmod_def]
  omega

/-- The rest of a volume is computed without overflow. -/
theorem toInt_askV {volumn : UInt64} {bidV : Int32} (hvolumn : volumn.toNat < 2 ^ 31)
    (hbid : 0 < bidV) :
    (volumn - bidV.toInt64.toUInt64).toUInt32.toInt32.toInt = volumn.toNat - bidV.toInt := by
  have hpos : 0 < bidV.toInt := Int32.lt_iff_toInt_lt.mp hbid
  have hlt := bidV.toInt_lt
  have hle : 0 ≤ bidV.toInt64 := by
    rw [Int64.le_iff_toInt_le, Int32.toInt_toInt64]
    exact hpos.le
  have hbits : (bidV.toInt64.toUInt64.toNat : Int) = bidV.toInt := by
    rw [Int64.toNat_toUInt64_of_le hle, Int64.cast_toNatClampNeg _ hle, Int32.toInt_toInt64]
  rw [toInt_toInt32, UInt64.toNat_toUInt32, UInt64.toNat_sub, Int.bmod_def]
  omega

/-- A share that is not negative is cast back to itself. -/
theorem toNat_toUInt32 {n : Int32} (h : 0 ≤ n) : (n.toUInt32.toNat : Int) = n.toInt := by
  rw [Int32.toNat_toUInt32_of_le h, Int32.cast_toNatClampNeg _ h]

/-- The two sides share the volume, whatever the division says, and none of them is negative. -/
theorem share_sum {volumn : UInt64} (bidV : Int32) (hvolumn : volumn.toNat < 2 ^ 31) :
    let askV := (volumn - bidV.toInt64.toUInt64).toUInt32.toInt32
    let shares : UInt32 × UInt32 :=
      if bidV ≤ 0 then (0, volumn.toUInt32)
      else if askV ≤ 0 then (volumn.toUInt32, 0)
      else (bidV.toUInt32, askV.toUInt32)
    shares.1.toNat + shares.2.toNat = volumn.toNat ∧
      0 ≤ shares.1.toInt32.toInt ∧ 0 ≤ shares.2.toInt32.toInt := by
  -- a volume of less than 2^31 is not cut
  have hsmall : volumn.toUInt32.toNat = volumn.toNat := by
    rw [UInt64.toNat_toUInt32]
    omega
  have hvolumnLe : 0 ≤ volumn.toUInt32.toInt32.toInt := by
    rw [toInt_volumn hvolumn]
    exact Int.natCast_nonneg _
  have hzeroLe : 0 ≤ (0 : UInt32).toInt32.toInt := by decide
  dsimp only
  by_cases hbid : bidV ≤ 0
  · rw [if_pos hbid]
    exact ⟨by rw [hsmall]; exact Nat.zero_add _, hzeroLe, hvolumnLe⟩
  · rw [if_neg hbid]
    -- the bid has a share, and the offer has the rest
    have hbidPos : 0 < bidV.toInt := by
      rw [Int32.le_iff_toInt_le] at hbid
      exact not_le.mp hbid
    have hask := toInt_askV hvolumn (Int32.lt_iff_toInt_lt.mpr hbidPos)
    generalize (volumn - bidV.toInt64.toUInt64).toUInt32.toInt32 = askV at hask ⊢
    by_cases haskLe : askV ≤ 0
    · rw [if_pos haskLe]
      exact ⟨hsmall, hvolumnLe, hzeroLe⟩
    · rw [if_neg haskLe]
      have haskPos : 0 < askV.toInt := by
        rw [Int32.le_iff_toInt_le] at haskLe
        exact not_le.mp haskLe
      have hbidNat := toNat_toUInt32 (Int32.le_iff_toInt_le.mpr hbidPos.le)
      have haskNat := toNat_toUInt32 (Int32.le_iff_toInt_le.mpr haskPos.le)
      refine ⟨by dsimp only; omega, ?_, ?_⟩
      · rw [Int32.toInt32_toUInt32]
        exact hbidPos.le
      · rw [Int32.toInt32_toUInt32]
        exact haskPos.le

/-- No best price of an L2 is positive: nothing is divided for it. -/
def Priceless (l2 : L2) : Prop := bestPrice l2.bid ≤ 0 ∧ bestPrice l2.offer ≤ 0

instance (l2 : L2) : Decidable (Priceless l2) := inferInstanceAs (Decidable (_ ∧ _))

/-- The volume of the interval is handed on, or nothing. -/
theorem calculateCurrentTradeVolumn_sum {current : Traded} {l2 : L2} {volumeMultiple : Int32}
    (hvolumn : current.volumn.toNat < 2 ^ 31) (hmultiple : 0 < volumeMultiple)
    (hprices : bestPrice l2.bid ≠ bestPrice l2.offer) :
    let volumn := calculateCurrentTradeVolumn current l2 volumeMultiple
    volumn.1.toNat + volumn.2.toNat =
        (if 0 < current.turnover ∧ ¬ Priceless l2 then current.volumn.toNat else 0) ∧
      0 ≤ volumn.1.toInt32.toInt ∧ 0 ≤ volumn.2.toInt32.toInt := by
  have hmultiple' : ¬ volumeMultiple ≤ 0 := by
    rw [Int32.le_iff_toInt_le]
    exact not_le.mpr (Int32.lt_iff_toInt_lt.mp hmultiple)
  by_cases hhanded : 0 < current.turnover ∧ ¬ Priceless l2
  · rw [if_pos hhanded]
    by_cases hzero : current.volumn = 0
    · -- an empty interval
      have hnone : calculateCurrentTradeVolumn current l2 volumeMultiple = (0, 0) :=
        if_pos (.inr (.inl hzero))
      rw [hnone, hzero]
      decide
    · -- nothing prevents that the volume is shared
      have hsome : ¬ (volumeMultiple ≤ 0 ∨ current.volumn = 0 ∨ current.turnover ≤ 0 ∨
          (bestPrice l2.bid ≤ 0 ∧ bestPrice l2.offer ≤ 0) ∨
          bestPrice l2.bid = bestPrice l2.offer) := by
        rw [not_or, not_or, not_or, not_or]
        exact ⟨hmultiple', hzero, not_le.mpr hhanded.1, hhanded.2, hprices⟩
      unfold calculateCurrentTradeVolumn
      dsimp only
      rw [if_neg hsome]
      exact share_sum _ hvolumn
  · -- without a rise of the turnover, or without prices, nothing is handed on
    have hnone : calculateCurrentTradeVolumn current l2 volumeMultiple = (0, 0) := by
      refine if_pos (.inr (.inr ?_))
      by_cases hturnover : current.turnover ≤ 0
      · exact .inl hturnover
      · exact .inr (.inl (not_not.mp fun h => hhanded ⟨not_le.mp hturnover, h⟩))
    rw [if_neg hhanded, hnone]
    decide

/-! ## The interval -/

/-- The rise of a total is its difference to the last one. -/
theorem risen_eq {total last : UInt64} (hle : last ≤ total) (htotal : total.toNat < 2 ^ 31) :
    (max 0 (total.toUInt32.toInt32 - last.toUInt32.toInt32)).toInt64.toUInt64 = total - last := by
  have hle' : last.toNat ≤ total.toNat := UInt64.le_iff_toNat_le.mp hle
  -- both totals are below 2^31, so their difference fits in 32 bits
  have hdiff : (total.toUInt32.toInt32 - last.toUInt32.toInt32).toInt =
      total.toNat - last.toNat := by
    rw [Int32.toInt_sub, toInt_volumn htotal, toInt_volumn (by omega), Int.bmod_def]
    omega
  generalize total.toUInt32.toInt32 - last.toUInt32.toInt32 = risen at hdiff ⊢
  have hrisen : 0 ≤ risen.toInt := by omega
  have hle32 : 0 ≤ risen := Int32.le_iff_toInt_le.mpr hrisen
  have hmax : max 0 risen = risen := if_pos hle32
  have hle64 : 0 ≤ risen.toInt64 := by
    rw [Int64.le_iff_toInt_le, Int32.toInt_toInt64]
    exact hrisen
  -- the difference is not negative, so it is the same number with 64 bits
  have hnat : (risen.toInt64.toUInt64.toNat : Int) = risen.toInt := by
    rw [Int64.toNat_toUInt64_of_le hle64, Int64.cast_toNatClampNeg _ hle64, Int32.toInt_toInt64]
  rw [hmax]
  apply UInt64.toNat_inj.mp
  rw [UInt64.toNat_sub_of_le _ _ hle]
  omega

/-! ## What is handed on -/

/-- The turnover of an event of the contract -/
def turnoverOf (contract : String) : Event → Option Turnover
  | .onTurnover turnover => if turnover.contract = contract then some turnover else none
  | .onL2 _ _ => none

/-- The turnovers of a contract -/
def turnovers (contract : String) (events : List Event) : List Turnover :=
  events.filterMap (turnoverOf contract)

/-- The rise of the total volume from the first turnover to the last one -/
def rise (turnovers : List Turnover) : Nat :=
  match turnovers.head?, turnovers.getLast? with
  | some first, some last => last.totalVolume.toNat - first.totalVolume.toNat
  | _, _ => 0

/-- The volumes that the callback was given for a contract -/
def totalHanded (contract : String) (calls : List L2Changed) : Nat :=
  ((calls.filter (·.l2.contract = contract)).map fun call =>
    call.bidVolumn.toNat + call.askVolumn.toNat).sum

/-- The calls of a new listener -/
def callsOf (events : List Event) : List L2Changed := (ReplayListener.run {} events).2

/-- At each L2 of the contract, what was handed on is what the total has risen by. -/
def Balanced (contract : String) : List Event → Prop :=
  List.EachStep fun before event =>
    match event with
    | .onTurnover _ => True
    | .onL2 l2 _ => l2.contract = contract →
      totalHanded contract (callsOf (before ++ [event])) = rise (turnovers contract before)

/-- Everything is handed on once, in volumes that are not negative. -/
def HandedOnce (contract : String) (events : List Event) : Prop :=
  Balanced contract events ∧ ∀ call ∈ callsOf events, call.l2.contract = contract →
    0 ≤ call.bidVolumn.toInt32.toInt ∧ 0 ≤ call.askVolumn.toInt32.toInt

/-- An L2 of the contract has a multiple, and two best prices that differ. -/
def Quoted (contract : String) : Event → Prop
  | .onTurnover _ => True
  | .onL2 l2 volumeMultiple => l2.contract = contract →
    0 < volumeMultiple ∧ bestPrice l2.bid ≠ bestPrice l2.offer

instance (contract : String) (event : Event) : Decidable (Quoted contract event) :=
  match event with
  | .onTurnover _ => inferInstanceAs (Decidable True)
  | .onL2 _ _ => inferInstanceAs (Decidable (_ → _))

/-- The events of a contract: totals of 31 bits that do not fall, and its L2s -/
structure Feed (contract : String) (events : List Event) : Prop where
  small : ∀ turnover ∈ turnovers contract events, turnover.totalVolume.toNat < 2 ^ 31
  increasing : (turnovers contract events).Pairwise fun earlier later =>
    earlier.totalVolume ≤ later.totalVolume
  quoted : ∀ event ∈ events, Quoted contract event

/-- The contract of an event -/
def Event.contract : Event → String
  | .onTurnover turnover => turnover.contract
  | .onL2 l2 _ => l2.contract

/-- What is known of a contract: the first total, the last two, and the total at the last L2, or at
    the first turnover if there was no L2 since. -/
structure Seen where
  first : Option UInt64 := none
  accounted : UInt64 := 0
  previous : Traded := {}
  last : Traded := {}
deriving DecidableEq, Repr

/-- An event of any contract -/
def see (contract : String) (s : Seen) : Event → Seen
  | .onTurnover turnover =>
    if turnover.contract = contract then {
      first := some (s.first.getD turnover.totalVolume)
      accounted := if s.first.isNone then turnover.totalVolume else s.accounted
      previous := s.last
      last := { volumn := turnover.totalVolume, turnover := turnover.turnover } }
    else s
  | .onL2 l2 _ => if l2.contract = contract then { s with accounted := s.last.volumn } else s

/-- What was seen of a contract -/
def seen (contract : String) (events : List Event) : Seen := events.foldl (see contract) {}

/-- An L2 that comes when the last turnover, and no other, has raised the total since the last L2,
    or when nothing has; before the first turnover the total was 0. -/
def Seen.Single (s : Seen) (l2 : L2) : Prop :=
  s.accounted =
    if s.previous.turnover < s.last.turnover ∧ ¬ Priceless l2 then s.previous.volumn
    else s.last.volumn

instance (s : Seen) (l2 : L2) : Decidable (s.Single l2) := inferInstanceAs (Decidable (_ = _))

/-- Each L2 of the contract is of this kind. -/
def Alternating (contract : String) : List Event → Prop :=
  List.EachStep fun before event =>
    match event with
    | .onTurnover _ => True
    | .onL2 l2 _ => l2.contract = contract → (seen contract before).Single l2

variable {contract : String}

/-- The first event is handled first. -/
theorem run_cons (s : ReplayListener) (event : Event) (events : List Event) :
    s.run (event :: events) =
      (((s.step event).1.run events).1, (s.step event).2 ++ ((s.step event).1.run events).2) :=
  rfl

/-- Events are handled one after the other. -/
theorem run_append (s : ReplayListener) (events events' : List Event) :
    s.run (events ++ events') =
      (((s.run events).1.run events').1, (s.run events).2 ++ ((s.run events).1.run events').2) := by
  induction events generalizing s with
  | nil => rfl
  | cons event events ih =>
    rw [List.cons_append, run_cons, run_cons, ih, List.append_assoc]

/-- What the listener keeps for a contract -/
structure Kept (contract : String) (s : ReplayListener) (seen : Seen) : Prop where
  last : s.lastTotalTurnover[contract]?.getD {} = seen.last
  current : s.currentTurnover[contract]?.getD {} =
    { volumn := seen.last.volumn - seen.previous.volumn
      turnover := max 0 (seen.last.turnover - seen.previous.turnover) }
  rising : seen.previous.volumn ≤ seen.last.volumn
  small : seen.last.volumn.toNat < 2 ^ 31

/-- An event keeps it, if its turnover is not below the last one. -/
theorem Kept.step {s : ReplayListener} {seen : Seen} (h : Kept contract s seen) (event : Event)
    (hturnover : ∀ turnover, event = .onTurnover turnover → turnover.contract = contract →
      seen.last.volumn ≤ turnover.totalVolume ∧ turnover.totalVolume.toNat < 2 ^ 31) :
    Kept contract (s.step event).1 (see contract seen event) := by
  cases event with
  | onTurnover turnover =>
    unfold see
    dsimp only [ReplayListener.step, ReplayListener.onTurnover]
    by_cases hcontract : turnover.contract = contract
    · -- the total has risen, so that the difference does not wrap
      obtain ⟨hle, hsmall⟩ := hturnover turnover rfl hcontract
      rw [if_pos hcontract, hcontract, h.last, risen_eq hle hsmall]
      constructor
      · rw [Std.TreeMap.getElem?_insert_self]
        rfl
      · rw [Std.TreeMap.getElem?_insert_self]
        rfl
      · exact hle
      · exact hsmall
    · rw [if_neg hcontract]
      constructor
      · dsimp only
        rw [Std.TreeMap.getElem?_insert_if, if_neg (Ne.symm hcontract)]
        exact h.last
      · dsimp only
        rw [Std.TreeMap.getElem?_insert_if, if_neg (Ne.symm hcontract)]
        exact h.current
      · exact h.rising
      · exact h.small
  | onL2 l2 volumeMultiple =>
    unfold see
    dsimp only [ReplayListener.step, ReplayListener.onL2]
    by_cases hcontract : l2.contract = contract
    · rw [if_pos hcontract, hcontract]
      constructor
      · exact h.last
      · dsimp only
        rw [Std.TreeMap.getElem?_insert_self]
        exact h.current
      · exact h.rising
      · exact h.small
    · rw [if_neg hcontract]
      constructor
      · exact h.last
      · dsimp only
        rw [Std.TreeMap.getElem?_insert_if, if_neg (Ne.symm hcontract)]
        exact h.current
      · exact h.rising
      · exact h.small

/-- The last event is seen last. -/
theorem seen_append (events : List Event) (event : Event) :
    seen contract (events ++ [event]) = see contract (seen contract events) event :=
  List.foldl_append

/-- The last event is handed on last. -/
theorem callsOf_append (events : List Event) (event : Event) :
    callsOf (events ++ [event]) =
      callsOf events ++ ((ReplayListener.run {} events).1.step event).2 := by
  unfold callsOf
  rw [run_append, run_cons]
  exact congrArg _ (List.append_nil _)

/-- The volumes of two lists of calls are added. -/
theorem totalHanded_append (calls calls' : List L2Changed) :
    totalHanded contract (calls ++ calls') = totalHanded contract calls + totalHanded contract calls' := by
  unfold totalHanded
  rw [List.filter_append, List.map_append, List.sum_append]

/-- The volume of one call counts for its contract. -/
theorem totalHanded_singleton (call : L2Changed) :
    totalHanded contract [call] =
      if call.l2.contract = contract then call.bidVolumn.toNat + call.askVolumn.toNat else 0 := by
  unfold totalHanded
  by_cases h : call.l2.contract = contract
  · rw [if_pos h, List.filter_cons_of_pos (by simpa using h)]
    exact Nat.add_zero _
  · rw [if_neg h, List.filter_cons_of_neg (by simpa using h)]
    rfl

/-- The call for an L2 -/
def callFor (s : ReplayListener) (l2 : L2) (volumeMultiple : Int32) : L2Changed :=
  let volumn := calculateCurrentTradeVolumn (s.currentTurnover[l2.contract]?.getD {}) l2
    volumeMultiple
  { l2, bidVolumn := volumn.1, askVolumn := volumn.2 }

/-- A quote is handed on with the volume since the last turnover. -/
theorem step_onL2 (s : ReplayListener) (l2 : L2) (volumeMultiple : Int32) :
    (s.step (.onL2 l2 volumeMultiple)).2 = [callFor s l2 volumeMultiple] :=
  rfl

/-- The turnovers are collected event by event. -/
theorem turnovers_append (events : List Event) (event : Event) :
    turnovers contract (events ++ [event]) =
      turnovers contract events ++ (turnoverOf contract event).toList := by
  unfold turnovers
  rw [List.filterMap_append]
  cases h : turnoverOf contract event with
  | none => rw [List.filterMap_cons_none h]; rfl
  | some turnover => rw [List.filterMap_cons_some h]; rfl

/-- A turnover of the contract is one. -/
theorem turnoverOf_onTurnover {turnover : Turnover} (h : turnover.contract = contract) :
    turnoverOf contract (.onTurnover turnover) = some turnover :=
  if_pos h

/-- A turnover of another contract is none. -/
theorem turnoverOf_of_ne {turnover : Turnover} (h : turnover.contract ≠ contract) :
    turnoverOf contract (.onTurnover turnover) = none :=
  if_neg h

/-- The first events of a feed are a feed. -/
theorem Feed.of_prefix {events events' : List Event} (h : Feed contract events')
    (hpfx : events <+: events') : Feed contract events where
  small turnover hturnover := h.small turnover ((hpfx.filterMap _).subset hturnover)
  increasing := h.increasing.sublist (hpfx.filterMap _).sublist
  quoted event hevent := h.quoted event (hpfx.subset hevent)

/-- What holds of a contract after some events: what was handed on is what is accounted for, as long
    as it was balanced. -/
structure Followed (contract : String) (events : List Event) : Prop where
  kept : Kept contract (ReplayListener.run {} events).1 (seen contract events)
  first : (seen contract events).first = (turnovers contract events).head?.map (·.totalVolume)
  last : (seen contract events).last.volumn =
    ((turnovers contract events).getLast?.map (·.totalVolume)).getD 0
  handed : Balanced contract events → totalHanded contract (callsOf events) =
    (seen contract events).accounted.toNat - ((seen contract events).first.getD 0).toNat
  firstLe : ((seen contract events).first.getD 0) ≤ (seen contract events).accounted
  accountedLe : (seen contract events).accounted ≤ (seen contract events).last.volumn

/-- The rise, from what is known of the contract -/
theorem Followed.rise_eq {events : List Event} (h : Followed contract events) :
    rise (turnovers contract events) =
      (seen contract events).last.volumn.toNat - ((seen contract events).first.getD 0).toNat := by
  rw [h.first, h.last]
  unfold rise
  cases hhead : (turnovers contract events).head? with
  | none =>
    rw [List.head?_eq_none_iff.mp hhead]
    rfl
  | some first =>
    cases hlast : (turnovers contract events).getLast? with
    | none =>
      rw [List.getLast?_eq_none_iff.mp hlast] at hhead
      exact nomatch hhead
    | some last => rfl

/-- The totals of a feed do not fall. -/
theorem Followed.last_le {events : List Event} {turnover : Turnover}
    (h : Followed contract events) (hfeed : Feed contract (events ++ [.onTurnover turnover]))
    (hcontract : turnover.contract = contract) :
    (seen contract events).last.volumn ≤ turnover.totalVolume ∧
      turnover.totalVolume.toNat < 2 ^ 31 := by
  have happend := @turnovers_append contract events (.onTurnover turnover)
  rw [turnoverOf_onTurnover hcontract] at happend
  constructor
  · have hpairwise := hfeed.increasing
    rw [happend] at hpairwise
    -- the record that was kept is the last turnover of the feed
    rw [h.last]
    cases hlast : (turnovers contract events).getLast? with
    | none => exact UInt64.le_iff_toNat_le.mpr (Nat.zero_le _)
    | some last =>
      exact (List.pairwise_append.mp hpairwise).2.2 last (List.mem_of_getLast? hlast) turnover
        List.mem_cons_self
  · -- the feed keeps every total below 2^31
    refine hfeed.small turnover ?_
    rw [happend]
    exact List.mem_append_right _ List.mem_cons_self

/-- In the beginning nothing is kept. -/
theorem kept_nil : Kept contract {} {} where
  last := by
    rw [show ({} : ReplayListener).lastTotalTurnover = ∅ from rfl, Std.TreeMap.getElem?_emptyc]
    rfl
  current := by
    rw [show ({} : ReplayListener).currentTurnover = ∅ from rfl, Std.TreeMap.getElem?_emptyc,
      sub_self (0 : ℚ), max_self]
    rfl
  rising := UInt64.le_refl 0
  small := by decide

/-- In the beginning nothing is handed on. -/
theorem followed_nil : Followed contract [] where
  kept := kept_nil
  first := rfl
  last := rfl
  handed _ := rfl
  firstLe := UInt64.le_refl 0
  accountedLe := UInt64.le_refl 0

/-- The last event changes the state last. -/
theorem run_singleton_state (events : List Event) (event : Event) :
    (ReplayListener.run {} (events ++ [event])).1 =
      ((ReplayListener.run {} events).1.step event).1 := by
  rw [run_append]
  rfl

/-- A turnover of the contract -/
theorem Followed.onTurnover {events : List Event} {turnover : Turnover}
    (h : Followed contract events) (hfeed : Feed contract (events ++ [.onTurnover turnover]))
    (hcontract : turnover.contract = contract) :
    Followed contract (events ++ [.onTurnover turnover]) := by
  have hle := h.last_le hfeed hcontract
  -- the turnover becomes the last one
  have hseen : seen contract (events ++ [.onTurnover turnover]) = {
      first := some ((seen contract events).first.getD turnover.totalVolume)
      accounted := if (seen contract events).first.isNone then turnover.totalVolume
        else (seen contract events).accounted
      previous := (seen contract events).last
      last := { volumn := turnover.totalVolume, turnover := turnover.turnover } } :=
    (seen_append events _).trans (if_pos hcontract)
  have hturnovers := @turnovers_append contract events (.onTurnover turnover)
  rw [turnoverOf_onTurnover hcontract, Option.toList_some] at hturnovers
  have hfirst := h.first
  -- a turnover is not handed on by itself
  have hbalanced (hb : Balanced contract (events ++ [.onTurnover turnover])) :
      totalHanded contract (callsOf (events ++ [.onTurnover turnover])) =
        (seen contract events).accounted.toNat - ((seen contract events).first.getD 0).toNat := by
    rw [callsOf_append, totalHanded_append, h.handed (List.eachStep_append_singleton.mp hb).1]
    rfl
  constructor
  · rw [run_singleton_state, seen_append]
    exact h.kept.step _ fun turnover' heq _ => Event.onTurnover.inj heq ▸ hle
  · rw [hseen, hturnovers, hfirst]
    cases turnovers contract events <;> rfl
  · rw [hseen, hturnovers, List.getLast?_concat]
    rfl
  · intro hb
    rw [hbalanced hb, hseen]
    cases hnone : (seen contract events).first with
    | none =>
      -- nothing is accounted for before the first turnover
      have hlast := h.last
      rw [hnone, eq_comm, Option.map_eq_none_iff, List.head?_eq_none_iff] at hfirst
      rw [hfirst] at hlast
      have haccounted := UInt64.le_iff_toNat_le.mp h.accountedLe
      have hzero : (seen contract events).last.volumn.toNat = 0 := congrArg UInt64.toNat hlast
      simp only [Option.isNone_none, if_true, Option.getD_none, Option.getD_some]
      omega
    | some first => rfl
  · rw [hseen]
    cases hnone : (seen contract events).first with
    | none => exact UInt64.le_refl _
    | some first =>
      have hle' := h.firstLe
      rw [hnone] at hle'
      exact hle'
  · rw [hseen]
    cases (seen contract events).first with
    | none => exact UInt64.le_refl _
    | some first => exact UInt64.le_trans h.accountedLe hle.1

/-- An L2 of the contract -/
theorem Followed.onL2 {events : List Event} {l2 : L2} {volumeMultiple : Int32}
    (h : Followed contract events) (hcontract : l2.contract = contract) :
    Followed contract (events ++ [.onL2 l2 volumeMultiple]) := by
  -- a level accounts for all that the last turnover had
  have hseen : seen contract (events ++ [.onL2 l2 volumeMultiple]) =
      { seen contract events with accounted := (seen contract events).last.volumn } :=
    (seen_append events _).trans (if_pos hcontract)
  -- no turnover is added
  have hturnovers := @turnovers_append contract events (.onL2 l2 volumeMultiple)
  rw [turnoverOf, Option.toList_none, List.append_nil] at hturnovers
  constructor
  · rw [run_singleton_state, seen_append]
    exact h.kept.step _ fun turnover heq => nomatch heq
  · rw [hseen, hturnovers]
    exact h.first
  · rw [hseen, hturnovers]
    exact h.last
  · intro hb
    rw [(List.eachStep_append_singleton.mp hb).2 hcontract, h.rise_eq, hseen]
  · rw [hseen]
    exact UInt64.le_trans h.firstLe h.accountedLe
  · rw [hseen]
    exact UInt64.le_refl _

/-- An event of another contract -/
theorem Followed.other {events : List Event} {event : Event} (h : Followed contract events)
    (hcontract : event.contract ≠ contract) : Followed contract (events ++ [event]) := by
  have hseen : seen contract (events ++ [event]) = seen contract events := by
    rw [seen_append]
    cases event with
    | onTurnover turnover => exact if_neg hcontract
    | onL2 l2 volumeMultiple => exact if_neg hcontract
  have hturnovers : turnovers contract (events ++ [event]) = turnovers contract events := by
    rw [turnovers_append]
    cases event with
    | onTurnover turnover => rw [turnoverOf_of_ne hcontract]; exact List.append_nil _
    | onL2 l2 volumeMultiple => exact List.append_nil _
  -- a quote of another contract hands on nothing of this one
  have hcalls : totalHanded contract (callsOf (events ++ [event])) = totalHanded contract (callsOf events) := by
    rw [callsOf_append, totalHanded_append]
    cases event with
    | onTurnover turnover => rfl
    | onL2 l2 volumeMultiple =>
      rw [step_onL2, totalHanded_singleton]
      exact congrArg _ (if_neg hcontract)
  constructor
  · rw [run_singleton_state, seen_append]
    refine h.kept.step _ fun turnover heq hturnover => ?_
    rw [heq] at hcontract
    exact absurd hturnover hcontract
  · rw [hseen, hturnovers]
    exact h.first
  · rw [hseen, hturnovers]
    exact h.last
  · intro hb
    rw [hcalls, hseen]
    exact h.handed (List.eachStep_append_singleton.mp hb).1
  · rw [hseen]
    exact h.firstLe
  · rw [hseen]
    exact h.accountedLe

/-- What was handed on follows from what was seen, along every feed. -/
theorem followed {events : List Event} (hfeed : Feed contract events) :
    Followed contract events := by
  induction events using List.reverseRecOn with
  | nil => exact followed_nil
  | append_singleton events event ih =>
    have h := ih (hfeed.of_prefix (List.prefix_append _ _))
    by_cases hcontract : event.contract = contract
    · cases event with
      | onTurnover turnover => exact h.onTurnover hfeed hcontract
      | onL2 l2 volumeMultiple => exact h.onL2 hcontract
    · exact h.other hcontract

/-- The volumes for an L2 of the contract -/
theorem Kept.callFor {s : ReplayListener} {seen : Seen} (h : Kept contract s seen) {l2 : L2}
    {volumeMultiple : Int32} (hcontract : l2.contract = contract) (hmultiple : 0 < volumeMultiple)
    (hprices : bestPrice l2.bid ≠ bestPrice l2.offer) :
    let call := callFor s l2 volumeMultiple
    call.bidVolumn.toNat + call.askVolumn.toNat =
        (if seen.previous.turnover < seen.last.turnover ∧ ¬ Priceless l2 then
          seen.last.volumn.toNat - seen.previous.volumn.toNat
        else 0) ∧
      0 ≤ call.bidVolumn.toInt32.toInt ∧ 0 ≤ call.askVolumn.toInt32.toInt := by
  have hdiff := UInt64.toNat_sub_of_le _ _ h.rising
  have hsmall := h.small
  -- the test is on the rise of the turnover
  have hturnover : 0 < max 0 (seen.last.turnover - seen.previous.turnover) ↔
      seen.previous.turnover < seen.last.turnover := by
    rw [lt_max_iff, sub_pos]
    exact or_iff_right (lt_irrefl 0)
  have hcurrent := h.current
  rw [← hcontract] at hcurrent
  unfold Listener.callFor
  dsimp only
  rw [hcurrent, ← hdiff]
  simp only [← hturnover]
  exact calculateCurrentTradeVolumn_sum (by dsimp only; omega) hmultiple hprices

/-- What is handed on is balanced if and only if each L2 comes after one rise, and no other. -/
theorem balanced_iff {events : List Event} (hfeed : Feed contract events) :
    Balanced contract events ↔ Alternating contract events := by
  refine List.eachStep_congr fun before event hpfx hbalanced => ?_
  cases event with
  | onTurnover turnover => exact Iff.rfl
  | onL2 l2 volumeMultiple =>
    refine forall_congr' fun hcontract => ?_
    have h := followed (hfeed.of_prefix ((List.prefix_append before _).trans hpfx))
    obtain ⟨hmultiple, hprices⟩ := hfeed.quoted _
      (hpfx.subset (List.mem_append_right _ List.mem_cons_self)) hcontract
    have hfirst := UInt64.le_iff_toNat_le.mp h.firstLe
    have haccounted := UInt64.le_iff_toNat_le.mp h.accountedLe
    have hrising := UInt64.le_iff_toNat_le.mp h.kept.rising
    -- a quote hands on the last rise, if the turnover has risen too
    have hcall := (h.kept.callFor hcontract hmultiple hprices).1
    rw [callsOf_append, totalHanded_append, h.handed hbalanced, h.rise_eq, step_onL2,
      totalHanded_singleton, if_pos (show (callFor _ l2 _).l2.contract = _ from hcontract), hcall]
    unfold Seen.Single
    split
    · rw [← UInt64.toNat_inj]
      omega
    · rw [← UInt64.toNat_inj]
      omega

/-- No volume is negative. -/
theorem nonneg_of_mem {events : List Event} (hfeed : Feed contract events) {call : L2Changed}
    (hcall : call ∈ callsOf events) (hcontract : call.l2.contract = contract) :
    0 ≤ call.bidVolumn.toInt32.toInt ∧ 0 ≤ call.askVolumn.toInt32.toInt := by
  induction events using List.reverseRecOn with
  | nil => exact nomatch hcall
  | append_singleton events event ih =>
    have hbefore := hfeed.of_prefix (List.prefix_append events [event])
    rw [callsOf_append, List.mem_append] at hcall
    -- a call of the events before, or that of the last event
    rcases hcall with hcall | hcall
    · exact ih hbefore hcall
    · cases event with
      | onTurnover turnover => exact nomatch hcall
      | onL2 l2 volumeMultiple =>
        rw [step_onL2, List.mem_singleton] at hcall
        rw [hcall] at hcontract ⊢
        obtain ⟨hmultiple, hprices⟩ := hfeed.quoted _
          (List.mem_append_right _ List.mem_cons_self) hcontract
        exact ((followed hbefore).kept.callFor hcontract hmultiple hprices).2

/-- Everything is handed on once, in volumes that are not negative, if and only if each L2 comes
    after one rise, and no other. -/
theorem handedOnce_iff {events : List Event} (hfeed : Feed contract events) :
    HandedOnce contract events ↔ Alternating contract events := by
  rw [← balanced_iff hfeed]
  exact and_iff_left fun call => nonneg_of_mem hfeed

/-- A turnover of a contract -/
def traded (totalVolume : UInt64) (turnover : ℚ) : Event :=
  .onTurnover { contract := "IF1703", totalVolume, turnover }

/-- An L2 with two best prices -/
def quoted : Event :=
  .onL2 { contract := "IF1703", bid := [⟨10, 1⟩], offer := [⟨11, 1⟩] } 1

/-- A feed in which turnovers and quotes alternate -/
theorem handedOnce_alternating : HandedOnce "IF1703" [traded 0 0, traded 4 42, quoted] := by
  have hfeed : Feed "IF1703" [traded 0 0, traded 4 42, quoted] := ⟨by decide, by decide, by decide⟩
  have hturnovers : Alternating "IF1703" [traded 0 0, traded 4 42] := by
    rintro before (turnover | ⟨l2, volumeMultiple⟩) hpfx
    · trivial
    · exact absurd (hpfx.subset (List.mem_append_right _ List.mem_cons_self))
        (by simp [traded])
  have hone : Alternating "IF1703" ([traded 0 0, traded 4 42] ++ [quoted]) :=
    List.eachStep_append_singleton.mpr ⟨hturnovers, fun _ => by decide +kernel⟩
  exact (handedOnce_iff hfeed).mpr hone

/-- The whole total is handed on after the first turnover. -/
theorem first_total_handed :
    Feed "IF1703" [traded 4 42, quoted] ∧ ¬ HandedOnce "IF1703" [traded 4 42, quoted] := by
  refine ⟨⟨by decide, by decide, by decide⟩, fun h => ?_⟩
  have hbalanced := h.1 [traded 4 42] quoted (List.prefix_refl _) rfl
  exact absurd hbalanced (by decide +kernel)

end FixHandler.Tmalpha.Listener
