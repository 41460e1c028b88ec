import Mathlib
import FixHandler.ForStd.TreeMap
import FixHandler.Native.Rem.EESTraderApiManger

/-!
# The id of the client in the reports of the REM gateway

Both maps of the manager only grow, so that an order keeps its client id and its market token
over all callbacks. A report that is made from the client token shows the client id. A report
that is made from the market token alone shows no id at all, since the client token that is found
is not looked up.

## Key results

- `step_ordermap`, `step_orderTokenmap`: what is registered stays
- `keepsId_iff`: the reports of an order show its client id exactly if none of them is made from
  the market token alone
-/

namespace FixHandler.Rem

open Ems

/-! ## Which order a callback is about -/

/-- The client token that a callback carries. -/
def Event.clientToken : Event → Option UInt32
  | .onOrderAccept a => some a.clientOrderToken
  | .onOrderReject r => some r.clientOrderToken
  | .onOrderExecution e => some e.clientOrderToken
  | .onOrderCxled c => some c.clientOrderToken
  | .onQueryTradeOrder q => some q.clientOrderToken
  | .onQueryTradeOrderExec q _ => some q.clientOrderToken
  | _ => none

/-- The market token of a callback that carries no client token, with the text that stands for
    the client id of an unknown order. -/
def Event.marketToken : Event → Option (Int64 × String)
  | .onOrderMarketAccept a =>
    some (a.marketOrderToken, toString a.marketOrderToken.toInt ++ "|" ++ a.marketOrderId)
  | .onOrderMarketReject r =>
    some (r.marketOrderToken, r.account ++ "|" ++ toString r.marketOrderToken.toInt)
  | .onCxlOrderReject r =>
    some (r.marketOrderToken, r.account ++ "|" ++ toString r.marketOrderToken.toInt)
  | _ => none

/-- A callback about the order with these tokens -/
def Event.IsOf (t : UInt32) (m : Int64) (e : Event) : Prop :=
  e.clientToken = some t ∨ e.marketToken.map Prod.fst = some m

instance {t : UInt32} {m : Int64} {e : Event} : Decidable (e.IsOf t m) :=
  inferInstanceAs (Decidable (_ ∨ _))

/-- The reports about one order in a run -/
def State.reportsOf (t : UInt32) (m : Int64) : State → List Event → List Report
  | _, [] => []
  | s, e :: es => (if e.IsOf t m then (s.step e).1 else []) ++ (s.step e).2.reportsOf t m es

/-- Every report has this id, and it is not empty. -/
def KeepsId (c : String) (reports : List Report) : Prop :=
  ∀ r ∈ reports, r.clientOrderId = c ∧ r.clientOrderId ≠ ""

/-! ## What is registered stays -/

section Registered

variable {s : State} {k : Int32}

/-- A registered client id is not replaced. -/
theorem addOrderId_ordermap {c d : String} {k' : Int32} (h : s.ordermap[k]? = some c) :
    (s.addOrderId d k').ordermap[k]? = some c :=
  Std.TreeMap.getElem?_insertIfNew_of_some h k' d

/-- A bound market token is not bound anew. -/
theorem addOrderToken_orderTokenmap {t t' k' : Int32} (h : s.orderTokenmap[k]? = some t) :
    (s.addOrderToken t' k').orderTokenmap[k]? = some t :=
  Std.TreeMap.getElem?_insertIfNew_of_some h k' t'

/-- The state after a callback with a client token -/
theorem clientOrderIdByToken_state {t : UInt32} {m : Int64} {unknown : String} :
    (s.clientOrderIdByToken t m unknown).2 =
      if s.getOrderId t.toInt32 = "" then s else s.addOrderToken t.toInt32 m.toInt32 := by
  unfold State.clientOrderIdByToken
  dsimp only
  split <;> rfl

/-- All that an event does to the maps: an id is registered, or the market token of a known
    client token is bound, or nothing. -/
theorem step_maps (s : State) (e : Event) :
    (∃ c t, e = .addOrderId c t ∧ (s.step e).2 = s.addOrderId c t.toInt32) ∨
    (∃ t m, s.getOrderId t ≠ "" ∧ (s.step e).2.ordermap = s.ordermap ∧
      (s.step e).2.orderTokenmap = (s.addOrderToken t m).orderTokenmap) ∨
    ((s.step e).2.ordermap = s.ordermap ∧ (s.step e).2.orderTokenmap = s.orderTokenmap) := by
  -- a callback with both tokens
  have hboth : ∀ (s' : State) (t : UInt32) (m : Int64) (unknown : String),
      s'.ordermap = s.ordermap → s'.orderTokenmap = s.orderTokenmap →
      (s.step e).2 = (s'.clientOrderIdByToken t m unknown).2 →
      (∃ t m, s.getOrderId t ≠ "" ∧ (s.step e).2.ordermap = s.ordermap ∧
        (s.step e).2.orderTokenmap = (s.addOrderToken t m).orderTokenmap) ∨
      ((s.step e).2.ordermap = s.ordermap ∧ (s.step e).2.orderTokenmap = s.orderTokenmap) := by
    intro s' t m unknown hids htokens hs
    rw [hs, clientOrderIdByToken_state]
    by_cases hid : s'.getOrderId t.toInt32 = ""
    · rw [if_pos hid]
      exact .inr ⟨hids, htokens⟩
    · rw [if_neg hid]
      unfold State.getOrderId at hid
      rw [hids] at hid
      refine .inl ⟨t.toInt32, m.toInt32, hid, hids, ?_⟩
      unfold State.addOrderToken
      rw [htokens]
  -- only the registration and the callbacks with both tokens write a map
  cases e with
  | addOrderId c t => exact .inl ⟨c, t, rfl, rfl⟩
  | onOrderAccept a => exact .inr (hboth s _ _ _ rfl rfl rfl)
  | onOrderExecution e => exact .inr (hboth s _ _ _ rfl rfl rfl)
  | onOrderCxled c => exact .inr (hboth s _ _ _ rfl rfl rfl)
  | onQueryTradeOrder q =>
    refine .inr (hboth (if 0 < s.initQueryNum then { s with initQueryNum := s.initQueryNum - 1 }
      else s) _ _ _ ?_ ?_ rfl)
    · split <;> rfl
    · split <;> rfl
  | _ => exact .inr (.inr ⟨rfl, rfl⟩)

/-- A registered client id stays. -/
theorem step_ordermap {c : String} (h : s.ordermap[k]? = some c) (e : Event) :
    (s.step e).2.ordermap[k]? = some c := by
  obtain ⟨d, t, -, hs⟩ | ⟨t, m, -, hs, -⟩ | ⟨hs, -⟩ := step_maps s e
  · rw [hs]
    exact addOrderId_ordermap h
  · rw [hs, h]
  · rw [hs, h]

/-- A bound market token stays. -/
theorem step_orderTokenmap {t : Int32} (h : s.orderTokenmap[k]? = some t) (e : Event) :
    (s.step e).2.orderTokenmap[k]? = some t := by
  obtain ⟨d, t', -, hs⟩ | ⟨t', m, -, -, hs⟩ | ⟨-, hs⟩ := step_maps s e
  · rw [hs]
    exact h
  · rw [hs]
    exact addOrderToken_orderTokenmap h
  · rw [hs, h]

end Registered

/-! ## Runs -/

/-- Only client tokens with a client id are bound to market tokens. -/
def State.Known (s : State) : Prop :=
  ∀ m t : Int32, s.orderTokenmap[m]? = some t → s.getOrderId t ≠ ""

/-- The client id that is registered is found. -/
theorem getOrderId_of_some {s : State} {k : Int32} {c : String} (h : s.ordermap[k]? = some c) :
    s.getOrderId k = c := by
  rw [State.getOrderId, h]
  rfl

/-- An id that is not empty is registered. -/
theorem ordermap_of_getOrderId {s : State} {k : Int32} (h : s.getOrderId k ≠ "") :
    s.ordermap[k]? = some (s.getOrderId k) := by
  unfold State.getOrderId at h ⊢
  cases hk : s.ordermap[k]? with
  | none =>
    rw [hk] at h
    exact absurd rfl h
  | some c => rfl

/-- A market token is bound only to a token with a client id. -/
theorem known_step {s : State} (hs : s.Known) (e : Event) : (s.step e).2.Known := by
  -- the ids that were known stay
  have hkeep : ∀ t, s.getOrderId t ≠ "" → (s.step e).2.getOrderId t ≠ "" := by
    intro t ht
    rw [getOrderId_of_some (step_ordermap (ordermap_of_getOrderId ht) e)]
    exact ht
  intro m t hm
  refine hkeep t ?_
  obtain ⟨d, t', -, hstep⟩ | ⟨t', m', hid, -, hstep⟩ | ⟨-, hstep⟩ := step_maps s e
  · rw [hstep] at hm
    exact hs m t hm
  · -- a token is bound only after its client id was found
    rw [hstep] at hm
    unfold State.addOrderToken at hm
    rw [Std.TreeMap.getElem?_insertIfNew_if] at hm
    by_cases hnew : m = m' ∧ s.orderTokenmap[m']? = none
    · rw [if_pos hnew] at hm
      exact Option.some_inj.mp hm ▸ hid
    · rw [if_neg hnew] at hm
      exact hs m t hm
  · rw [hstep] at hm
    exact hs m t hm

/-- The same after any events -/
theorem known_run {s : State} (hs : s.Known) (events : List Event) : (s.run events).Known := by
  induction events generalizing s with
  | nil => exact hs
  | cons e es ih => exact ih (known_step hs e)

/-- The last event of a run -/
theorem run_concat (s : State) (events : List Event) (e : Event) :
    s.run (events ++ [e]) = ((s.run events).step e).2 := by
  rw [State.run, List.foldl_append]
  rfl

/-! ## The id in a report -/

/-- The side of a report changes nothing about its id. -/
@[simp] theorem setSide_clientOrderId (side : UInt8) (order : Order) :
    (setSide side order).clientOrderId = order.clientOrderId := by
  unfold setSide
  split_ifs <;> rfl

/-- A report by client token has the registered id. -/
theorem clientOrderIdByToken_fst {s : State} {t : UInt32} {m : Int64} {unknown c : String}
    (h : s.getOrderId t.toInt32 = c) (hc : c ≠ "") :
    (s.clientOrderIdByToken t m unknown).1 = c := by
  unfold State.clientOrderIdByToken
  dsimp only
  rw [h, if_neg hc]

/-- A report that is made from the client token shows the client id. -/
theorem report_by_clientToken {s : State} {e : Event} {t : UInt32} {c : String}
    (he : e.clientToken = some t) (h : s.getOrderId t.toInt32 = c) (hc : c ≠ "") :
    ∃ r, (s.step e).1 = [r] ∧ r.clientOrderId = c := by
  -- six callbacks look the client token up
  cases e with
  | onOrderAccept a =>
    cases he
    exact ⟨_, rfl, (setSide_clientOrderId _ _).trans (clientOrderIdByToken_fst h hc)⟩
  | onOrderReject r =>
    cases he
    refine ⟨_, rfl, ?_⟩
    show (if s.getOrderId r.clientOrderToken.toInt32 = "" then _ else _) = c
    rw [h, if_neg hc]
  | onOrderExecution e =>
    cases he
    exact ⟨_, rfl, clientOrderIdByToken_fst h hc⟩
  | onOrderCxled c =>
    cases he
    exact ⟨_, rfl, clientOrderIdByToken_fst h hc⟩
  | onQueryTradeOrder q =>
    cases he
    refine ⟨_, rfl, (setSide_clientOrderId _ _).trans (clientOrderIdByToken_fst ?_ hc)⟩
    split
    · exact h
    · exact h
  | onQueryTradeOrderExec q bFinish =>
    cases he
    refine ⟨_, rfl, ?_⟩
    show (if s.getOrderId q.clientOrderToken.toInt32 = "" then _ else _) = c
    rw [h, if_neg hc]
  | _ => exact nomatch he

/-- A report that is made from the market token alone shows the text for unknown orders, or
    nothing. -/
theorem report_by_marketToken {s : State} {e : Event} {m : Int64} {unknown : String}
    (he : e.marketToken = some (m, unknown)) :
    ∃ r, (s.step e).1 = [r] ∧ r.clientOrderId = s.clientOrderIdByMarketToken m unknown := by
  cases e with
  | onOrderMarketAccept a =>
    cases he
    exact ⟨_, rfl, rfl⟩
  | onOrderMarketReject r =>
    cases he
    exact ⟨_, rfl, rfl⟩
  | onCxlOrderReject r =>
    cases he
    exact ⟨_, rfl, rfl⟩
  | _ => exact nomatch he

/-- No callback carries a client token and is looked up by its market token. -/
theorem marketToken_of_clientToken {e : Event} {t : UInt32} (h : e.clientToken = some t) :
    e.marketToken = none := by
  cases e <;> first | rfl | exact nomatch h

/-- The reports of one callback about a registered and bound order -/
theorem keepsId_step {s : State} {t : UInt32} {m : Int64} {c : String} (hc : c ≠ "")
    (hreg : s.ordermap[t.toInt32]? = some c) (hbind : s.orderTokenmap[m.toInt32]? = some t.toInt32)
    (e : Event) :
    KeepsId c (if e.IsOf t m then (s.step e).1 else []) ↔
      ∀ unknown, e.marketToken = some (m, unknown) → t.toInt32 = -1 ∧ unknown = c := by
  by_cases hof : e.IsOf t m
  · rw [if_pos hof]
    rcases hof with htoken | htoken
    · obtain ⟨r, hr, hid⟩ := report_by_clientToken htoken (getOrderId_of_some hreg) hc
      refine iff_of_true ?_ ?_
      · intro r' hr'
        rw [hr, List.mem_singleton] at hr'
        subst hr'
        exact ⟨hid, hid ▸ hc⟩
      · intro unknown hm
        rw [marketToken_of_clientToken htoken] at hm
        exact nomatch hm
    · -- the other callbacks find the client token by the market token
      obtain ⟨⟨m', unknown⟩, hm, rfl⟩ := Option.map_eq_some_iff.mp htoken
      obtain ⟨r, hr, hid⟩ := report_by_marketToken (s := s) hm
      have hone : KeepsId c (s.step e).1 ↔ r.clientOrderId = c ∧ r.clientOrderId ≠ "" := by
        rw [KeepsId, hr]
        exact List.forall_mem_singleton
      have hfound : s.getOrderToken m'.toInt32 = t.toInt32 := by
        rw [State.getOrderToken, hbind]
        rfl
      have hunknown : (∀ text, e.marketToken = some (m', text) → t.toInt32 = -1 ∧ text = c) ↔
          t.toInt32 = -1 ∧ unknown = c := by
        constructor
        · exact fun h => h unknown hm
        · intro h text htext
          rw [hm] at htext
          cases htext
          exact h
      rw [hone, hunknown, hid, State.clientOrderIdByMarketToken, hfound]
      -- a bound token of -1 is taken for a missing one
      by_cases hminus : t.toInt32 = -1
      · rw [if_pos hminus]
        constructor
        · exact fun h => ⟨hminus, h.1⟩
        · rintro ⟨-, rfl⟩
          exact ⟨rfl, hc⟩
      · rw [if_neg hminus]
        exact iff_of_false (fun h => h.2 rfl) fun h => hminus h.1
  · rw [if_neg hof]
    refine iff_of_true (fun r hr => absurd hr List.not_mem_nil) fun unknown hm => ?_
    exact absurd (.inr (by rw [hm]; rfl)) hof

/-- Reports one after the other -/
theorem keepsId_append {c : String} {l l' : List Report} :
    KeepsId c (l ++ l') ↔ KeepsId c l ∧ KeepsId c l' :=
  List.forall_mem_append

/-- The reports of a run about a registered and bound order -/
theorem keepsId_reportsOf {t : UInt32} {m : Int64} {c : String} (hc : c ≠ "") (events : List Event) :
    ∀ {s : State}, s.ordermap[t.toInt32]? = some c →
      s.orderTokenmap[m.toInt32]? = some t.toInt32 →
      (KeepsId c (s.reportsOf t m events) ↔
        ∀ e ∈ events, ∀ unknown, e.marketToken = some (m, unknown) →
          t.toInt32 = -1 ∧ unknown = c) := by
  induction events with
  | nil =>
    intro s _ _
    exact iff_of_true (fun r hr => absurd hr List.not_mem_nil)
      fun e he => absurd he List.not_mem_nil
  | cons e es ih =>
    intro s hreg hbind
    rw [State.reportsOf, keepsId_append, keepsId_step hc hreg hbind,
      ih (step_ordermap hreg e) (step_orderTokenmap hbind e), List.forall_mem_cons]

/-- In a run in which `c` is registered for the client token of an accept, and the accept binds
    its market token, the reports from the accept on show `c` exactly if no callback that carries
    the market token alone comes after it. (The client token `2 ^ 32 - 1` is taken for one that
    is not found, so that the text for unknown orders is shown there.) -/
theorem keepsId_iff (initQueryNum : Int32) (before after : List Event) (accept : OrderAcceptField)
    (c : String)
    (hreg : (State.run { initQueryNum } before).ordermap[accept.clientOrderToken.toInt32]? = some c)
    (hbind : (State.run { initQueryNum } (before ++ [.onOrderAccept accept])).orderTokenmap[
      accept.marketOrderToken.toInt32]? = some accept.clientOrderToken.toInt32) :
    KeepsId c ((State.run { initQueryNum } before).reportsOf accept.clientOrderToken
        accept.marketOrderToken (.onOrderAccept accept :: after)) ↔
      ∀ e ∈ after, ∀ unknown, e.marketToken = some (accept.marketOrderToken, unknown) →
        accept.clientOrderToken.toInt32 = -1 ∧ unknown = c := by
  have hknown : (State.run { initQueryNum } (before ++ [.onOrderAccept accept])).Known :=
    known_run (fun m t h => by simp at h) _
  -- the token was bound because its id was found, so that id is not empty
  have hid := hknown _ _ hbind
  rw [run_concat] at hbind hid
  have hreg' := step_ordermap hreg (.onOrderAccept accept)
  have hc : c ≠ "" := by rwa [getOrderId_of_some hreg'] at hid
  obtain ⟨r, hr, hrid⟩ := report_by_clientToken (e := .onOrderAccept accept) rfl
    (getOrderId_of_some hreg) hc
  have hof : (Event.onOrderAccept accept).IsOf accept.clientOrderToken accept.marketOrderToken :=
    .inl rfl
  rw [State.reportsOf, if_pos hof, hr, keepsId_append, keepsId_reportsOf hc after hreg' hbind]
  refine and_iff_right ?_
  exact List.forall_mem_singleton.mpr ⟨hrid, hrid ▸ hc⟩

/-- An order that is accepted and filled keeps its id. -/
theorem keepsId_iff_filled :
    KeepsId "c1" ((State.run {} [.addOrderId "c1" 1]).reportsOf 1 100
        [.onOrderAccept { clientOrderToken := 1, marketOrderToken := 100 },
          .onOrderExecution { clientOrderToken := 1, marketOrderToken := 100, quantity := 2 }]) ↔
      ∀ e ∈ [Event.onOrderExecution
          { clientOrderToken := 1, marketOrderToken := 100, quantity := 2 }],
        ∀ unknown, e.marketToken = some (100, unknown) →
          (1 : UInt32).toInt32 = -1 ∧ unknown = "c1" :=
  keepsId_iff 0 [.addOrderId "c1" 1]
    [.onOrderExecution { clientOrderToken := 1, marketOrderToken := 100, quantity := 2 }]
    { clientOrderToken := 1, marketOrderToken := 100 } "c1" (by decide +kernel) (by decide +kernel)

/-- The acceptance by the market is reported without an id. -/
theorem market_accept_without_id :
    (State.run {} [.addOrderId "c1" 1,
        .onOrderAccept { clientOrderToken := 1, marketOrderToken := 100 }]).orderTokenmap[
      (100 : Int32)]? = some 1 ∧
    (State.run {} [.addOrderId "c1" 1]).ordermap[(1 : Int32)]? = some "c1" ∧
    ¬ KeepsId "c1" ((State.run {} [.addOrderId "c1" 1]).reportsOf 1 100
        [.onOrderAccept { clientOrderToken := 1, marketOrderToken := 100 },
          .onOrderMarketAccept { marketOrderToken := 100 }]) := by
  refine ⟨by decide +kernel, by decide +kernel, fun h => ?_⟩
  have hempty := h (.onOrder { clientOrderId := "", exchangeOrderId := "100", status := .working })
    (by decide +kernel)
  exact hempty.2 rfl

end FixHandler.Rem
