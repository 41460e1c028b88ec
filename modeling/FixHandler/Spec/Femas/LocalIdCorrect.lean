import Mathlib
import FixHandler.ForStd.TreeMap
import FixHandler.Native.Femas.Communicator

/-!
# Local ids and client ids of the FEMAS gateway

A local id is used for one request, but an order that the gateway rejects itself registers its
client id for the next local id without using it. The id stays, and the request that comes next
is taken for the rejected order.

## Key results

- `ordermap_next`: what is registered for the next local id
- `apart_iff`: local ids and client ids stay together exactly if each request after rejected
  orders has the client id of the first of them
-/

namespace FixHandler.Femas

open Cxx (atoi)
open Ems

/-- A report on a local id shows the client id, if its time can be read at all. -/
structure State.Forwards (s : State) (n : Int32) (c : String) : Prop where
  onOrder : ∀ p : OrderField, atoi p.userOrderLocalID = n →
    (s.onOrder p).map (·.clientOrderId) = p.submitTime.map fun _ => c
  onFill : ∀ p : TradeField, atoi p.userOrderLocalID = n →
    (s.onFill p).map (·.clientOrderId) = p.fillTime.map fun _ => c
  onInsertOrder : ∀ (p : InputOrderField) (errorID : Int32), atoi p.userOrderLocalID = n →
    (s.onInsertOrder p errorID).map (·.clientOrderId) = p.submitTime.map fun _ => c

/-- The local id that a request is made with. -/
def Output.localId : Output → Option Int32
  | .reqOrderInsert _ requestID => some requestID
  | .reqOrderAction _ requestID => some requestID
  | .reqQryOrder _ requestID => some requestID
  | .onOrder _ => none

/-- The client id that a command registers -/
def Command.clientOrderId : Command → String
  | .add order => order.clientOrderId
  | .delete order => order.clientOrderId
  | .query order => order.clientOrderId

/-- An order that the gateway rejects itself. -/
def Command.rejected : Command → Bool
  | .add order => refuses order
  | _ => false

/-- Orders and client ids are kept apart in a run. -/
structure Apart (settings : Settings) (s : State) (commands : List Command) : Prop where
  /-- from an order on that is sent, its reports show its client id -/
  forwards : ∀ before order between after, commands = before ++ .add order :: (between ++ after) →
    order.clientOrderId ≠ "" →
    ∀ input n, .reqOrderInsert input n ∈ ((s.run settings before).step settings (.add order)).1 →
      input.userOrderLocalID = toString n.toInt ∧
      (s.run settings (before ++ .add order :: between)).Forwards n order.clientOrderId
  /-- no two requests share a local id -/
  distinct : ((s.outputs settings commands).filterMap Output.localId).Nodup
  /-- what is registered stays -/
  kept : ∀ before after, commands = before ++ after → ∀ (k : Int32) (c : String),
    (s.run settings before).ordermap[k]? = some c →
    (s.run settings commands).ordermap[k]? = some c
  /-- the client id of a request is registered -/
  entered : ∀ before command after, commands = before ++ command :: after →
    ∀ output ∈ ((s.run settings before).step settings command).1, ∀ n ∈ output.localId,
      (s.run settings commands).ordermap[n]? = some command.clientOrderId

/-! ## One call -/

section Step

variable {settings : Settings} {s : State}

variable (settings s) in
/-- All that a call does: the client id is registered for the next local id, and unless the order
    is rejected, a request is made with this id. -/
theorem step_cases (c : Command) :
    (c.rejected = true ∧ (s.step settings c).2 = s.addOrderId c.clientOrderId ∧
      ∀ o ∈ (s.step settings c).1, o.localId = none) ∨
    (c.rejected = false ∧ (s.step settings c).2 = (s.addOrderId c.clientOrderId).next ∧
      ∃ o, (s.step settings c).1 = [o] ∧ o.localId = some s.maxOrderLocalID) := by
  cases c with
  | add order =>
    show (refuses order = true ∧ (add settings s order).2 = _ ∧ ∀ o ∈ (add settings s order).1, _) ∨
      (refuses order = false ∧ (add settings s order).2 = _ ∧ ∃ o, (add settings s order).1 = _ ∧ _)
    unfold add
    dsimp only
    -- an order that is refused takes no local id
    cases hrefuses : refuses order with
    | true =>
      refine .inl ⟨rfl, rfl, ?_⟩
      intro o ho
      rw [if_pos rfl, List.mem_singleton] at ho
      rw [ho]
      rfl
    | false => exact .inr ⟨rfl, rfl, _, rfl, rfl⟩
  | delete order => exact .inr ⟨rfl, rfl, _, rfl, rfl⟩
  | query order => exact .inr ⟨rfl, rfl, _, rfl, rfl⟩

/-- A command registers its client id under the local id that is next, if that is free. -/
theorem step_ordermap (c : Command) :
    (s.step settings c).2.ordermap = s.ordermap.insertIfNew s.maxOrderLocalID c.clientOrderId := by
  obtain ⟨-, hs, -⟩ | ⟨-, hs, -⟩ := step_cases settings s c
  · rw [hs]
    rfl
  · rw [hs]
    rfl

/-- The first command of a run -/
theorem run_cons (c : Command) (cs : List Command) :
    s.run settings (c :: cs) = (s.step settings c).2.run settings cs := rfl

/-- A run in two parts -/
theorem run_append (cs cs' : List Command) :
    s.run settings (cs ++ cs') = (s.run settings cs).run settings cs' :=
  List.foldl_append

/-- The last command of a run -/
theorem run_concat (cs : List Command) (c : Command) :
    s.run settings (cs ++ [c]) = ((s.run settings cs).step settings c).2 :=
  run_append cs [c]

/-- What is registered stays. -/
theorem run_kept (cs : List Command) {k : Int32} {c : String} :
    ∀ {s : State}, s.ordermap[k]? = some c → (s.run settings cs).ordermap[k]? = some c := by
  induction cs with
  | nil => exact fun h => h
  | cons d cs ih =>
    intro s h
    refine ih ?_
    rw [step_ordermap]
    exact Std.TreeMap.getElem?_insertIfNew_of_some h _ _

end Step

/-! ## Local ids -/

section Run

variable {settings : Settings} {s : State}

/-- The local id is raised below its greatest value. -/
theorem toInt_succ {n : Int32} (h : n.toInt + 1 < 2 ^ 31) : (n + 1).toInt = n.toInt + 1 := by
  have := n.le_toInt
  rw [Int32.toInt_add, Int.bmod_eq_of_le] <;> simp <;> omega

/-- The number of requests -/
def sent (commands : List Command) : Nat := commands.countP fun c => !c.rejected

/-- The next local id has moved on by the number of requests; the client ids are registered for
    the local ids before it, and for it the one of the first of the orders that have been rejected
    since the last request. -/
theorem ordermap_next (hkeys : ∀ (k : Int32), k ∈ s.ordermap → k < s.maxOrderLocalID)
    (commands : List Command) (hids : s.maxOrderLocalID.toInt + sent commands < 2 ^ 31) :
    (s.run settings commands).maxOrderLocalID.toInt = s.maxOrderLocalID.toInt + sent commands ∧
    (s.run settings commands).ordermap[(s.run settings commands).maxOrderLocalID]? =
      ((commands.rtakeWhile Command.rejected).head?).map Command.clientOrderId ∧
    ∀ k ∈ (s.run settings commands).ordermap, k ≤ (s.run settings commands).maxOrderLocalID := by
  -- the ids registered under the next local id are those of the last commands refused in a row, and
  -- the first of them stays
  induction commands using List.reverseRecOn with
  | nil =>
    refine ⟨by simp [State.run, sent], ?_, fun k hk => Int32.le_of_lt (hkeys k hk)⟩
    rw [List.rtakeWhile_nil]
    exact Std.TreeMap.getElem?_eq_none fun hmem => Int32.lt_irrefl (hkeys _ hmem)
  | append_singleton cs c ih =>
    have hsent : sent (cs ++ [c]) = sent cs + if c.rejected then 0 else 1 := by
      unfold sent
      rw [List.countP_append, List.countP_singleton]
      cases c.rejected <;> rfl
    obtain ⟨hnext, hwaiting, hbelow⟩ := ih (by omega)
    rw [run_concat]
    -- the keys after the client id of `c` is registered
    have hkeys' : ∀ k ∈ ((s.run settings cs).step settings c).2.ordermap,
        k ≤ (s.run settings cs).maxOrderLocalID := by
      intro k hk
      rw [step_ordermap, Std.TreeMap.mem_insertIfNew] at hk
      rcases hk with heq | hk
      · rw [← Std.LawfulEqCmp.eq_of_compare heq]
        exact Int32.le_refl _
      · exact hbelow k hk
    obtain ⟨hc, hs, -⟩ | ⟨hc, hs, -⟩ := step_cases settings (s.run settings cs) c
    · rw [hc, if_pos rfl, Nat.add_zero] at hsent
      rw [hs] at hkeys' ⊢
      refine ⟨hsent ▸ hnext, ?_, hkeys'⟩
      rw [List.rtakeWhile_concat_pos _ _ _ hc]
      show ((s.run settings cs).ordermap.insertIfNew (s.run settings cs).maxOrderLocalID _)[
        (s.run settings cs).maxOrderLocalID]? = _
      rw [Std.TreeMap.getElem?_insertIfNew_if]
      -- the first in the row registers its id, a later one finds it taken
      cases hlist : cs.rtakeWhile Command.rejected with
      | nil =>
        rw [hlist] at hwaiting
        rw [if_pos ⟨rfl, hwaiting⟩]
        rfl
      | cons first rest =>
        have hfirst : (s.run settings cs).ordermap[(s.run settings cs).maxOrderLocalID]? =
            some first.clientOrderId := by
          rw [hwaiting, hlist]
          rfl
        rw [hfirst, if_neg fun h => nomatch h.2]
        rfl
    · -- a request moves the local id on, to one that nothing is registered under
      rw [hc, if_neg Bool.false_ne_true] at hsent
      have hsucc : ((s.run settings cs).maxOrderLocalID + 1).toInt =
          (s.run settings cs).maxOrderLocalID.toInt + 1 := toInt_succ (by omega)
      rw [hs] at hkeys' ⊢
      refine ⟨?_, ?_, fun k hk => Int32.le_trans (hkeys' k hk) ?_⟩
      · show ((s.run settings cs).maxOrderLocalID + 1).toInt = _
        omega
      · rw [List.rtakeWhile_concat_neg _ _ _ (by rw [hc]; exact Bool.false_ne_true)]
        refine Std.TreeMap.getElem?_eq_none fun hmem => ?_
        have := Int32.le_iff_toInt_le.mp (hkeys' _ hmem)
        change ((s.run settings cs).maxOrderLocalID + 1).toInt ≤ _ at this
        omega
      · rw [Int32.le_iff_toInt_le]
        show _ ≤ ((s.run settings cs).maxOrderLocalID + 1).toInt
        omega

/-- The requests that are made before an id is reached use other ids. -/
theorem nodup_localIds (commands : List Command) :
    ∀ {s : State}, s.maxOrderLocalID.toInt + sent commands < 2 ^ 31 →
      (∀ n ∈ (s.outputs settings commands).filterMap Output.localId,
        s.maxOrderLocalID.toInt ≤ n.toInt) ∧
      ((s.outputs settings commands).filterMap Output.localId).Nodup := by
  induction commands with
  | nil => exact fun _ => ⟨fun n hn => absurd hn List.not_mem_nil, .nil⟩
  | cons c cs ih =>
    intro s hids
    have hsent : sent (c :: cs) = (if c.rejected then 0 else 1) + sent cs := by
      unfold sent
      rw [List.countP_cons]
      cases c.rejected <;> simp [Nat.add_comm]
    rw [State.outputs, List.filterMap_append]
    obtain ⟨hc, hs, hnone⟩ | ⟨hc, hs, o, ho, hid⟩ := step_cases settings s c
    · -- no request is made
      rw [hc, if_pos rfl, Nat.zero_add] at hsent
      have hnil : (s.step settings c).1.filterMap Output.localId = [] :=
        List.filterMap_eq_nil_iff.mpr hnone
      rw [hnil, List.nil_append, hs]
      exact ih (by rw [← hsent]; exact hids)
    · rw [hc, if_neg Bool.false_ne_true] at hsent
      -- a request moves the local id on
      have hsucc : (s.addOrderId c.clientOrderId).next.maxOrderLocalID.toInt =
          s.maxOrderLocalID.toInt + 1 := by
        show (s.maxOrderLocalID + 1).toInt = _
        exact toInt_succ (by omega)
      rw [hsent] at hids
      obtain ⟨hge, hnodup⟩ := ih (s := (s.addOrderId c.clientOrderId).next) (by
        rw [hsucc]
        omega)
      -- the request takes the local id, and the later ones are greater
      have hone : (s.step settings c).1.filterMap Output.localId = [s.maxOrderLocalID] := by
        rw [ho, List.filterMap_cons_some hid, List.filterMap_nil]
      rw [hone, hs]
      refine ⟨?_, List.nodup_cons.mpr ⟨fun hmem => ?_, hnodup⟩⟩
      · intro n hn
        rcases List.mem_cons.mp hn with rfl | hn
        · exact le_refl _
        · have := hge n hn
          omega
      · have := hge _ hmem
        omega

/-- A report with a registered local id is forwarded under its client id. -/
theorem forwards_of_getOrderId {s : State} {n : Int32} {c : String} (hc : c ≠ "")
    (h : s.ordermap[n]? = some c) : s.Forwards n c := by
  -- the client id is found, whatever the text for an unknown order is
  have hid : ∀ localID unknown, atoi localID = n → s.clientOrderId localID unknown = c := by
    rintro localID unknown rfl
    unfold State.clientOrderId State.getOrderId
    rw [h]
    exact if_neg hc
  constructor
  · intro p hp
    unfold State.onOrder
    cases p.submitTime with
    | none => rfl
    | some t => exact congrArg some (hid _ _ hp)
  · intro p hp
    unfold State.onFill
    cases p.fillTime with
    | none => rfl
    | some t => exact congrArg some (hid _ _ hp)
  · intro p errorID hp
    unfold State.onInsertOrder
    cases p.submitTime with
    | none => rfl
    | some t => exact congrArg some (hid _ _ hp)

/-- The local id of an order that is sent is a text. -/
theorem userOrderLocalID_eq {order : Order} {input : InputOrderField} {n : Int32}
    (h : .reqOrderInsert input n ∈ (s.step settings (.add order)).1) :
    input.userOrderLocalID = toString n.toInt := by
  change _ ∈ (add settings s order).1 at h
  unfold add at h
  dsimp only at h
  split at h
  · exact nomatch List.mem_singleton.mp h
  · cases List.mem_singleton.mp h
    rfl

/-- An order that is sent was not refused. -/
theorem sends_of_reqOrderInsert {order : Order} {input : InputOrderField} {n : Int32}
    (h : .reqOrderInsert input n ∈ (s.step settings (.add order)).1) :
    (Command.add order).rejected = false := by
  obtain ⟨-, -, hnone⟩ | ⟨hc, -⟩ := step_cases settings s (.add order)
  · exact nomatch hnone _ h
  · exact hc

/-- What a request finds registered for its local id stays. -/
theorem entered_iff (hkeys : ∀ (k : Int32), k ∈ s.ordermap → k < s.maxOrderLocalID)
    (before : List Command) (command : Command) (after : List Command)
    (hids : s.maxOrderLocalID.toInt + sent (before ++ command :: after) < 2 ^ 31)
    (hsends : command.rejected = false) :
    (∀ output ∈ ((s.run settings before).step settings command).1, ∀ n ∈ output.localId,
      (s.run settings (before ++ command :: after)).ordermap[n]? = some command.clientOrderId) ↔
    ∀ first ∈ (before.rtakeWhile Command.rejected).head?,
      first.clientOrderId = command.clientOrderId := by
  have hle : sent before ≤ sent (before ++ command :: after) := by
    unfold sent
    rw [List.countP_append]
    omega
  have hbefore : s.maxOrderLocalID.toInt + sent before < 2 ^ 31 := by omega
  obtain ⟨-, hwaiting, -⟩ := ordermap_next hkeys before hbefore
  obtain ⟨hc, -⟩ | ⟨-, -, o, ho, hid⟩ := step_cases settings
    (s.run settings before) command
  · rw [hsends] at hc
    exact nomatch hc
  rw [ho]
  -- the id that is registered for the local id after the call
  have hstep : ∀ c : String,
      ((s.run settings before).step settings command).2.ordermap[
        (s.run settings before).maxOrderLocalID]? = some c →
      (s.run settings (before ++ command :: after)).ordermap[
        (s.run settings before).maxOrderLocalID]? = some c := by
    intro c h
    rw [run_append, run_cons]
    exact run_kept after h
  rw [step_ordermap] at hstep
  cases hfirst : (before.rtakeWhile Command.rejected).head? with
  | none =>
    rw [hfirst] at hwaiting
    -- no order was refused just before, so the id is free
    refine iff_of_true ?_ fun first h => nomatch h
    intro output houtput n hn
    rw [List.mem_singleton.mp houtput, hid] at hn
    cases hn
    refine hstep _ ?_
    rw [Std.TreeMap.getElem?_insertIfNew_of_none hwaiting, if_pos rfl]
  | some first =>
    rw [hfirst] at hwaiting
    -- the first order refused just before has the local id taken
    have hold := hstep first.clientOrderId
      (Std.TreeMap.getElem?_insertIfNew_of_some hwaiting _ _)
    constructor
    · intro h first' hfirst'
      cases hfirst'
      exact Option.some_inj.mp (hold.symm.trans (h o List.mem_cons_self _ hid))
    · intro h output houtput n hn
      rw [List.mem_singleton.mp houtput, hid] at hn
      cases hn
      rw [hold, h first rfl]

/-- Orders and client ids are kept apart in a run exactly if each request that follows orders
    that the gateway has rejected is made for the client id of the first of them. -/
theorem apart_iff (hkeys : ∀ (k : Int32), k ∈ s.ordermap → k < s.maxOrderLocalID)
    (commands : List Command) (hids : s.maxOrderLocalID.toInt + sent commands < 2 ^ 31) :
    Apart settings s commands ↔
      ∀ before command after, commands = before ++ command :: after → command.rejected = false →
        ∀ first ∈ (before.rtakeWhile Command.rejected).head?,
          first.clientOrderId = command.clientOrderId := by
  constructor
  · rintro h before command after rfl hsends
    exact (entered_iff hkeys before command after hids hsends).mp (h.entered before command after rfl)
  · intro h
    have hentered : ∀ before command after, commands = before ++ command :: after →
        ∀ output ∈ ((s.run settings before).step settings command).1, ∀ n ∈ output.localId,
          (s.run settings commands).ordermap[n]? = some command.clientOrderId := by
      rintro before command after rfl
      cases hsends : command.rejected with
      | false =>
        exact (entered_iff hkeys before command after hids hsends).mpr
          (h before command after rfl hsends)
      | true =>
        -- a command that is refused makes no request
        intro output houtput n hn
        obtain ⟨-, -, hnone⟩ | ⟨hc, -⟩ := step_cases settings
          (s.run settings before) command
        · rw [hnone output houtput] at hn
          exact nomatch hn
        · rw [hsends] at hc
          exact nomatch hc
    refine ⟨?_, (nodup_localIds commands hids).2, ?_, hentered⟩
    · -- the reports of an order arrive between its command and the end of the run
      rintro before order between after rfl hne input n hinput
      refine ⟨userOrderLocalID_eq hinput, forwards_of_getOrderId hne ?_⟩
      have hle : sent (before ++ .add order :: between) ≤
          sent (before ++ .add order :: (between ++ after)) := by
        unfold sent
        rw [← List.cons_append, ← List.append_assoc, @List.countP_append _ _ _ after]
        omega
      have hsends : (Command.add order).rejected = false := sends_of_reqOrderInsert hinput
      exact (entered_iff hkeys before (.add order) between (by omega) hsends).mpr
        (h before (.add order) (between ++ after) rfl hsends) _ hinput n rfl
    · -- what is registered stays
      rintro before after rfl k c hk
      rw [run_append]
      exact run_kept after hk

end Run

/-- An order without a price and, after it, an order that is sent -/
def refusedFirst : List Command :=
  [.add { clientOrderId := "c1", price := "0", quantity := 1 },
    .add { clientOrderId := "c2", price := "5", quantity := 1 }]

/-- The report on the order `c2` is forwarded with the id `c1`. -/
theorem report_of_refused : ¬ Apart {} { maxOrderLocalID := 1 } refusedFirst := by
  intro h
  have hforwards := h.forwards [.add { clientOrderId := "c1", price := "0", quantity := 1 }]
    { clientOrderId := "c2", price := "5", quantity := 1 } [] [] rfl (by decide)
    (inputOrder {} { clientOrderId := "c2", price := "5", quantity := 1 } 1) 1 (by decide +kernel)
  have hreport := hforwards.2.onOrder { userOrderLocalID := "1" } (by decide +kernel)
  exact absurd hreport (by decide +kernel)

/-- A client that repeats an order with the price it forgot keeps its reports. -/
theorem apart_iff_repeated :
    Apart {} { maxOrderLocalID := 1 }
        [.add { clientOrderId := "c1", price := "0", quantity := 1 },
          .add { clientOrderId := "c1", price := "5", quantity := 1 }] ↔
      ∀ before command after,
        [Command.add { clientOrderId := "c1", price := "0", quantity := 1 },
          .add { clientOrderId := "c1", price := "5", quantity := 1 }] = before ++ command :: after →
        command.rejected = false →
        ∀ first ∈ (before.rtakeWhile Command.rejected).head?,
          first.clientOrderId = command.clientOrderId :=
  apart_iff (fun k hk => absurd hk Std.TreeMap.not_mem_emptyc) _ (by decide +kernel)

end FixHandler.Femas
