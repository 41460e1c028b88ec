import Mathlib
import FixHandler.Spec.Trade.SimulaterCorrect

/-!
# The life of one order

What the actions of a request mean for a single client order id. For every id
but that of the request they are trades of an order that rests, at most. For
the id of the request they are its own trades, and then what is left of it rests
or is cancelled (`Arrived`); an exception may cut that short.

## Key results

- `Plan.incoming`: only the id of a request comes in with its actions
- `Ledger.same_exec`: what actions leave of an id that does not work and does not come in
- `Matching.arrived`: what a ledger knows of an incoming order afterwards
- `Sent.run`: what the boxes have recorded are the fills that were sent
-/

namespace FixHandler.Trade

open Ems (Order Fill)

/-- The id that comes in with an action, or makes way for its replacement. -/
def Act.incoming : Act → Option String
  | .trade o _ _ _ _ => some o.clientOrderId
  | .rest o => some o.clientOrderId
  | .archive o => some o.clientOrderId
  | .cancel _ => none
  | .withdraw w => some w.clientOrderId

/-- A round brings in the order that is matched. -/
theorem incoming_trades (o : Order) (n : UInt32) (rounds : List Round) :
    ∀ a ∈ trades o n rounds, a.incoming = some o.clientOrderId := by
  induction rounds generalizing n with
  | nil => exact fun a ha => absurd ha List.not_mem_nil
  | cons r rounds ih =>
    intro a ha
    rcases List.mem_cons.mp ha with rfl | ha
    · rfl
    · exact ih _ a ha

/-- So does what becomes of its rest. -/
theorem incoming_leftover (o : Order) (remainder : OrderSize) (isDelete : Bool) :
    ∀ a ∈ leftover o remainder isDelete, a.incoming = some o.clientOrderId := by
  intro a ha
  unfold leftover at ha
  split at ha
  · exact absurd ha List.not_mem_nil
  · split at ha <;> rw [List.mem_singleton] at ha <;> subst ha <;> rfl

/-- Only the id of a request comes in with its actions. -/
theorem TradeSimulater.Plan.incoming {b : Ledger} {n : UInt32} {p : Order}
    {r : TradeSimulater.Request} {acts : List Act} (h : Plan b n p r acts) (hb : b.WF) {id : String}
    (hid : id ≠ p.clientOrderId) : ∀ a ∈ acts, a.incoming ≠ some id := by
  -- the actions of the loop bring in one order, whose id is another
  have hmatched : ∀ rounds remainder isDelete,
      ∀ a ∈ trades p n rounds ++ leftover p remainder isDelete, a.incoming ≠ some id := by
    intro rounds remainder isDelete a ha heq
    have := (List.mem_append.mp ha).elim (incoming_trades p n rounds a)
      (incoming_leftover p remainder isDelete a)
    rw [heq] at this
    exact hid (Option.some.inj this)
  cases h with
  | add hw hc hf ho hq hcontract hm => exact hmatched _ _ _
  | change hw ho hq hcontract hm =>
    intro a ha
    -- the order that makes way has the id of the one that replaces it
    rcases List.mem_cons.mp ha with rfl | ha
    · intro heq
      exact hid ((Option.some.inj heq).symm.trans (hb.working hw).id)
    · exact hmatched _ _ _ a ha
  | delete hw =>
    intro a ha
    rw [List.mem_singleton] at ha
    subst ha
    exact fun h => nomatch h

/-- An action that an id does not come in with fills it only where it rests. -/
theorem Act.filter_fills {a : Act} {id : String} (ha : a.incoming ≠ some id) :
    a.fills.filter (·.clientOrderId == id) = match a with
      | .trade _ w f q p => if w.clientOrderId = id then [fillOf w f q p] else []
      | _ => [] := by
  cases a with
  | trade o w f q p =>
    have hne : o.clientOrderId ≠ id := fun h => ha (congrArg some h)
    by_cases hid : w.clientOrderId = id <;> simp [Act.fills, fillOf, hne, hid]
  | _ => rfl

/-- The quantity an action fills of an id that rests. -/
def Act.filled (id : String) : Act → Nat
  | .trade _ w _ q _ => if w.clientOrderId = id then q.toNat else 0
  | _ => 0

/-- What an action fills of an order that it does not bring in. -/
theorem Act.sum_fills {a : Act} {id : String} (ha : a.incoming ≠ some id) :
    ((a.fills.filter (·.clientOrderId == id)).map (·.fillQuantity.toNat)).sum = a.filled id := by
  rw [Act.filter_fills ha]
  cases a with
  | trade o w f q p => by_cases hid : w.clientOrderId = id <;> simp [Act.filled, hid, fillOf]
  | _ => rfl

namespace Ledger

/-- Removing an order makes no order work. -/
theorem working_of_remove {b : Ledger} {w : Order} {id : String} {v : Order}
    (h : (b.remove w).working id = some v) : b.working id = some v := by
  rw [remove_working] at h
  split at h
  · exact nomatch h
  · exact h

/-- The fills recorded for an id. -/
def fillsOf (b : Ledger) (id : String) : List Fill := b.fills.filter (·.clientOrderId == id)

/-- The fills of an action are recorded behind the others. -/
theorem fills_apply (b : Ledger) (a : Act) : (b.apply a).fills = b.fills ++ a.fills :=
  (exec_fills b [a]).trans (by simp)

/-- The fills of one order are too. -/
theorem fillsOf_apply (b : Ledger) (a : Act) (id : String) :
    (b.apply a).fillsOf id = b.fillsOf id ++ a.fills.filter (·.clientOrderId == id) := by
  rw [fillsOf, fills_apply, List.filter_append, fillsOf]

/-- An id does not work, and is cancelled and filled as it was. -/
structure Same (id : String) (b b' : Ledger) : Prop where
  working : b'.working id = none
  canceled : b'.canceled id = b.canceled id
  fills : b'.fillsOf id = b.fillsOf id

section Same

variable {b b' : Ledger} {id : String}

/-- Nothing changes along two steps. -/
theorem Same.trans {b'' : Ledger} (h : Same id b b') (h' : Same id b' b'') : Same id b b'' :=
  ⟨h'.working, h'.canceled.trans h.canceled, h'.fills.trans h.fills⟩

/-- An action leaves an id that does not work as it is, unless it comes in. -/
theorem same_apply {a : Act} (hg : b.guard a) (ha : a.incoming ≠ some id)
    (hw : b.working id = none) : Same id b (b.apply a) := by
  -- an order that works is another one
  have hne : ∀ w : Order, b.working w.clientOrderId = some w → id ≠ w.clientOrderId := by
    intro w h heq
    rw [← heq, hw] at h
    cases h
  have hfills := fillsOf_apply b a id
  rw [Act.filter_fills ha] at hfills
  cases a with
  | trade o w f q p =>
    have hid := hne w hg.1
    refine ⟨?_, ?_, ?_⟩
    · rw [trade_working, if_neg hid]
      exact hw
    · rw [trade_canceled]
    · simpa [Ne.symm hid] using hfills
  | rest o =>
    have hid : id ≠ o.clientOrderId := fun h => ha (congrArg some h.symm)
    refine ⟨?_, ?_, by simpa using hfills⟩
    · simp only [apply, Function.update_of_ne hid]
      exact hw
    · rfl
  | archive o =>
    have hid : id ≠ o.clientOrderId := fun h => ha (congrArg some h.symm)
    refine ⟨hw, ?_, by simpa using hfills⟩
    simp only [apply, Function.update_of_ne hid]
  | cancel w =>
    have hid := hne w hg
    refine ⟨?_, ?_, by simpa using hfills⟩
    · simp only [apply, remove_working, if_neg hid]
      exact hw
    · simp only [apply, Function.update_of_ne hid]
  | withdraw w =>
    refine ⟨?_, ?_, by simpa using hfills⟩
    · simp only [apply, remove_working, if_neg (hne w hg)]
      exact hw
    · simp only [apply, remove_canceled]

/-- Along a run that it does not come in with, an id that does not work stays as it is. -/
theorem same_exec {as : List Act} (hr : machine.Runs b as) (ha : ∀ a ∈ as, a.incoming ≠ some id)
    (hw : b.working id = none) : Same id b (machine.exec b as) :=
  hr.invariant_of_forall (I := Same id b)
    (fun _ _ h hg ha => h.trans (same_apply hg ha h.working)) ha ⟨hw, rfl, rfl⟩

/-- An id that neither works nor is cancelled stays so along such a run. -/
theorem closed_exec {as : List Act} (hr : machine.Runs b as) (ha : ∀ a ∈ as, a.incoming ≠ some id)
    (hw : b.working id = none) (hc : b.canceled id = none) :
    (machine.exec b as).working id = none ∧ (machine.exec b as).canceled id = none :=
  have hsame := same_exec hr ha hw
  ⟨hsame.working, hsame.canceled.trans hc⟩

end Same

/-- Fills are of the contract whose ledger records them, and of something. -/
theorem fills_of_runs {b : Ledger} (hb : b.WF) {as : List Act} (h : machine.Runs b as) :
    ∀ f ∈ as.flatMap Act.fills, f.contract = b.contract ∧ f.fillQuantity ≠ 0 := by
  induction as generalizing b with
  | nil => exact fun f hf => absurd hf List.not_mem_nil
  | cons a as ih =>
    intro f hf
    rw [List.flatMap_cons, List.mem_append] at hf
    rcases hf with hf | hf
    · cases a with
      | trade o w n q p =>
        obtain ⟨hw, hq, -, -, -, hc⟩ := h.1
        simp only [Act.fills, List.mem_cons, List.not_mem_nil, or_false] at hf
        -- a trade gives one fill to each side
        rcases hf with rfl | rfl
        · exact ⟨hc, hq⟩
        · exact ⟨(hb.working hw).contract, hq⟩
      | _ => exact absurd hf List.not_mem_nil
    · have := ih (hb.apply h.1) h.2 f hf
      rwa [apply_contract] at this

end Ledger

/-! ## An order comes in -/

/-- An exception leaves the first rounds. -/
theorem prefix_trades {o : Order} {n : UInt32} {rounds : List Round} {done : List Act}
    (h : done <+: trades o n rounds) : ∃ rounds', rounds' <+: rounds ∧ done = trades o n rounds' := by
  induction rounds generalizing n done with
  | nil => exact ⟨[], List.prefix_rfl, List.prefix_nil.mp h⟩
  | cons r rounds ih =>
    cases done with
    | nil => exact ⟨[], List.nil_prefix, rfl⟩
    | cons a done =>
      obtain ⟨rfl, hdone⟩ := List.cons_prefix_cons.mp h
      obtain ⟨rounds', hp, rfl⟩ := ih hdone
      exact ⟨r :: rounds', List.cons_prefix_cons.mpr ⟨rfl, hp⟩, rfl⟩

/-- Stopped before its end, the matching of an order has done some of the rounds, and
    nothing about what is left. -/
theorem prefix_matched {o : Order} {n : UInt32} {rounds : List Round} {remainder : OrderSize}
    {isDelete : Bool} {done : List Act}
    (h : done <+: trades o n rounds ++ leftover o remainder isDelete) :
    ∃ rounds' remainder', rounds' <+: rounds ∧
      done = trades o n rounds' ++ leftover o remainder' isDelete ∧
      (remainder' = 0 ∨ remainder' = remainder ∧ rounds' = rounds) := by
  -- there is at most one action about what is left
  have hcases : done <+: trades o n rounds ∨
      done = trades o n rounds ++ leftover o remainder isDelete := by
    unfold leftover at h ⊢
    split at h
    · exact .inl (by rwa [List.append_nil] at h)
    · next hz =>
      rw [if_neg hz]
      cases isDelete <;> exact (List.prefix_concat_iff.mp h).symm
  rcases hcases with h | rfl
  · -- an exception in the loop leaves nothing to be done about the rest
    obtain ⟨rounds', hp, rfl⟩ := prefix_trades h
    exact ⟨rounds', 0, hp, by simp [leftover], .inl rfl⟩
  · exact ⟨rounds, remainder, List.prefix_rfl, rfl, .inr ⟨rfl, rfl⟩⟩

/-- What a ledger knows of an order that came in, after some rounds and with what was
    left of it. -/
structure Arrived (b b' : Ledger) (o : Order) (rounds : List Round) (remainder : OrderSize)
    (isDelete : Bool) : Prop where
  working : b'.working o.clientOrderId = if remainder = 0 ∨ isDelete = true then none
    else some { remainderOf o remainder with status := .working }
  canceled : b'.canceled o.clientOrderId = if remainder = 0 ∨ isDelete = false then none
    else some { remainderOf o remainder with status := .cancelled }
  fills : ∃ new, b'.fillsOf o.clientOrderId = b.fillsOf o.clientOrderId ++ new ∧
    (∀ f ∈ new, f.exchangeOrderId = o.exchangeOrderId) ∧
    new.map (·.fillQuantity) = rounds.map (·.quantity)

namespace Ledger

/-- The fills of an incoming order are one for each of its rounds. -/
theorem filter_fills_trades (o : Order) (n : UInt32) {rounds : List Round}
    (h : ∀ r ∈ rounds, r.working.clientOrderId ≠ o.clientOrderId) :
    (∀ f ∈ ((trades o n rounds).flatMap Act.fills).filter (·.clientOrderId == o.clientOrderId),
      f.exchangeOrderId = o.exchangeOrderId) ∧
    (((trades o n rounds).flatMap Act.fills).filter (·.clientOrderId == o.clientOrderId)).map
      (·.fillQuantity) = rounds.map (·.quantity) := by
  induction rounds generalizing n with
  | nil => exact ⟨by simp [trades], rfl⟩
  | cons r rounds ih =>
    obtain ⟨hex, hq⟩ := ih (n + 1) fun r' hr' => h r' (List.mem_cons_of_mem _ hr')
    have hne := h r List.mem_cons_self
    -- a round records one fill of this order, the other one is of the resting order
    have hsplit : ((trades o n (r :: rounds)).flatMap Act.fills).filter
          (·.clientOrderId == o.clientOrderId) =
        fillOf o (fillIdText (n + 1)) r.quantity r.price ::
          ((trades o (n + 1) rounds).flatMap Act.fills).filter
            (·.clientOrderId == o.clientOrderId) := by
      simp [trades, Act.fills, fillOf, hne]
    rw [hsplit]
    refine ⟨fun f hf => ?_, by rw [List.map_cons, hq]; rfl⟩
    rcases List.mem_cons.mp hf with rfl | hf
    · rfl
    · exact hex f hf

/-- The rest of an order works, or is cancelled, or there is none. -/
theorem exec_leftover (b : Ledger) (o : Order) (remainder : OrderSize) (isDelete : Bool)
    (hw : b.working o.clientOrderId = none) (hc : b.canceled o.clientOrderId = none) :
    (machine.exec b (leftover o remainder isDelete)).working o.clientOrderId =
      (if remainder = 0 ∨ isDelete = true then none
        else some { remainderOf o remainder with status := .working }) ∧
    (machine.exec b (leftover o remainder isDelete)).canceled o.clientOrderId =
      (if remainder = 0 ∨ isDelete = false then none
        else some { remainderOf o remainder with status := .cancelled }) ∧
    (machine.exec b (leftover o remainder isDelete)).fills = b.fills := by
  by_cases h0 : remainder = 0
  · simp [leftover, h0, hw, hc]
  · cases isDelete <;> simp [leftover, h0, hw, hc, apply]

end Ledger

section

variable {b : Ledger} {o : Order} {rounds rounds' : List Round} {remainder remainder' : OrderSize}
  {isDelete : Bool} (h : Matching b o rounds remainder isDelete)

include h

/-- Rounds that were done, and what was left, are no more than the order asked for. -/
theorem Matching.total_le (hp : rounds' <+: rounds)
    (hend : remainder' = 0 ∨ remainder' = remainder ∧ rounds' = rounds) :
    (rounds'.map (·.quantity.toNat)).sum + remainder'.toNat ≤ o.quantity.toNat := by
  have htotal := h.total
  rcases hend with rfl | ⟨rfl, rfl⟩
  · have hle := (hp.sublist.map (·.quantity.toNat)).sum_le_sum fun _ _ => Nat.zero_le _
    rw [UInt64.toNat_zero]
    omega
  · exact htotal.le

/-- If something was left, they are all that it asked for. -/
theorem Matching.total_eq (hend : remainder' = 0 ∨ remainder' = remainder ∧ rounds' = rounds)
    (h0 : remainder' ≠ 0) :
    (rounds'.map (·.quantity.toNat)).sum + remainder'.toNat = o.quantity.toNat := by
  obtain ⟨rfl, rfl⟩ := hend.resolve_left h0
  exact h.total

end

section

variable {b : Ledger} {o : Order} {rounds : List Round} {remainder : OrderSize} {isDelete : Bool}
  (h : Matching b o rounds remainder isDelete)
  (hw : b.working o.clientOrderId = none) (hc : b.canceled o.clientOrderId = none) (n : UInt32)

include h hw hc

/-- Some rounds of a matching, and what is made of the remainder after them, leave the
    incoming order arrived. -/
theorem Matching.arrived_of_isPrefix {rounds' : List Round} (hp : rounds' <+: rounds)
    (remainder' : OrderSize) :
    Arrived b (Ledger.machine.exec b (trades o n rounds' ++ leftover o remainder' isDelete)) o
      rounds' remainder' isDelete := by
  -- the order does not meet itself, as it does not work yet
  have hne : ∀ r ∈ rounds', r.working.clientOrderId ≠ o.clientOrderId := by
    intro r hr heq
    have := h.working r (hp.subset hr)
    rw [heq, hw] at this
    exact nomatch this
  have hw' : (Ledger.machine.exec b (trades o n rounds')).working o.clientOrderId = none := by
    rw [Ledger.exec_trades_working_of_ne b o n hne, hw]
  obtain ⟨hwork, hcan, hfills⟩ := Ledger.exec_leftover _ o remainder' isDelete hw'
    (by rw [Ledger.exec_trades_canceled, hc])
  obtain ⟨hex, hq⟩ := Ledger.filter_fills_trades o n hne
  rw [Guarded.exec_append]
  refine ⟨hwork, hcan, _, ?_, hex, hq⟩
  rw [Ledger.fillsOf, hfills, Ledger.exec_fills, List.filter_append, Ledger.fillsOf]

/-- A matching that is carried out, or cut short, leaves the incoming order arrived. -/
theorem Matching.arrived {done : List Act}
    (hdone : done <+: trades o n rounds ++ leftover o remainder isDelete) :
    ∃ rounds' remainder', Arrived b (Ledger.machine.exec b done) o rounds' remainder' isDelete ∧
      rounds' <+: rounds ∧ (remainder' = 0 ∨ remainder' = remainder ∧ rounds' = rounds) := by
  obtain ⟨rounds', remainder', hp, rfl, hend⟩ := prefix_matched hdone
  exact ⟨rounds', remainder', h.arrived_of_isPrefix hw hc n hp remainder', hp, hend⟩

end

namespace TradeSimulater

/-! ## What is recorded is what was sent -/

/-- Every box has recorded the fills of its contract that were reported. -/
def Sent (s : TradeSimulater) : Prop :=
  ∀ c b, s.box c = some b → b.filledOrders = s.sentFills.filter (·.contract == c) ∧
    ∀ f ∈ b.filledOrders, f.fillQuantity ≠ 0

/-- What a request records it also sends. -/
theorem Sent.step {s : TradeSimulater} (h : s.Sent) (hs : s.WF) (r : Request) :
    (s.step r).Sent := by
  intro c b' hb'
  cases step_cases hs r with
  | refused hno es hes heq =>
    rw [heq, box_sent] at hb'
    rw [heq, sentFills_sent, hes.1, List.append_nil]
    exact h c b' hb'
  | served hyes b acts done shown hb hplan hdone hreach hend =>
    have hwf := hs.box hb
    have hnew := Ledger.fills_of_runs hwf.1.ledger ((hplan.runs hwf.1.ledger).of_isPrefix hdone)
    have hsent : (s.step r).sentFills = s.sentFills ++ done.flatMap Act.fills := by
      rw [hreach.fills]
      simp only [sentFills, events_accepted]
    rw [hsent, List.filter_append]
    by_cases hc : c = r.order.contract
    · subst hc
      obtain ⟨b₀, b₁, hb₀, hb₁, -, hledger⟩ := hreach.box
      rw [box_accepted, hb] at hb₀
      rw [hb₁] at hb'
      cases hb₀; cases hb'
      have hfills : b'.filledOrders = b.filledOrders ++ done.flatMap Act.fills :=
        (congrArg Ledger.fills hledger).trans (Ledger.exec_fills b.ledger done)
      -- all new fills are of the contract of the request
      have hown : (done.flatMap Act.fills).filter (·.contract == r.order.contract) =
          done.flatMap Act.fills :=
        List.filter_eq_self.mpr fun f hf => by
          rw [(hnew f hf).1, beq_iff_eq]
          exact hwf.2
      rw [hfills, hown, (h _ b hb).1]
      refine ⟨rfl, fun f hf => ?_⟩
      rw [← (h _ b hb).1] at hf
      exact (List.mem_append.mp hf).elim ((h _ b hb).2 f) fun hf => (hnew f hf).2
    · rw [hreach.frame.box c hc, box_accepted] at hb'
      -- so no other contract gets any of them
      have hnone : (done.flatMap Act.fills).filter (·.contract == c) = [] :=
        List.filter_eq_nil_iff.mpr fun f hf => by
          rw [(hnew f hf).1, beq_iff_eq]
          exact fun heq => hc (heq.symm.trans hwf.2)
      rw [hnone, List.append_nil]
      exact h c b' hb'

/-- What a run records it also sends. -/
theorem Sent.run {s : TradeSimulater} (h : s.Sent) (hs : s.WF) (rs : List Request) :
    (s.run rs).Sent := by
  induction rs generalizing s with
  | nil => exact h
  | cons r rs ih => exact ih (h.step hs r) (hs.step r)

/-- In the beginning nothing is recorded or sent. -/
theorem Fresh.sent {s : TradeSimulater} (hs : s.Fresh) : s.Sent := by
  intro c b hb
  have hnil : b.filledOrders = [] := congrArg Ledger.fills (hs.box hb)
  simp [hnil, sentFills, hs.events]

end TradeSimulater

/-! ## Ids that count up -/

/-- The id that a 32 bit counter yields at its `k`-th value. -/
def countedText (pre : String) (k : Nat) : String := pre ++ (UInt32.ofNat k).toNat.repr

/-- Until the counter wraps around, no id comes twice. -/
theorem nodup_countedText (pre : String) (n : Nat) {len : Nat} (h : len ≤ 2 ^ 32) :
    ((List.range' n len).map (countedText pre)).Nodup := by
  refine List.Nodup.map_on (fun i hi j hj heq => ?_) List.nodup_range'
  rw [List.mem_range'_1] at hi hj
  rw [countedText, countedText, String.append_right_inj, Nat.repr_inj, UInt32.toNat_ofNat',
    UInt32.toNat_ofNat'] at heq
  omega

/-- After a wrap-around the ids come again. -/
theorem countedText_add (pre : String) (k : Nat) :
    countedText pre (k + 2 ^ 32) = countedText pre k := by
  have hwrap : UInt32.ofNat (k + 2 ^ 32) = UInt32.ofNat k := by
    rw [← UInt32.toNat_inj, UInt32.toNat_ofNat', UInt32.toNat_ofNat', Nat.add_mod_right]
  rw [countedText, countedText, hwrap]

end FixHandler.Trade
