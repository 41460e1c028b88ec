import Mathlib
import FixHandler.ForStd.Except
import FixHandler.Spec.Trade.SimulaterCorrect

/-!
# What is published is what is there

A change of the published book comes with a code that says whether the change is deeper than what
is published, or is published, or is one of the best prices. The code is computed from the place
of the changed price in its side, so it never hides a change. The rest of a request neither
changes a published book nor publishes one: along every run the last book that was published is
the present one.

## Key results

- `coded_of_onOrderCreated`, `coded_of_deleteOrder`: the code of a change hides nothing
- `publishes_handle`: what one request publishes
- `published_run`: the statement about every run
-/

namespace FixHandler.Trade

open Cxx (Exception)
open Ems (Order)

/-! ## The messages of a market listener -/

/-- The book of a contract that a message publishes -/
def Event.l2? (c : String) : Event → Option Dms.L2
  | .onL2 l2 => if l2.contract = c then some l2 else none
  | _ => none

/-- The book of a contract that was published last, the empty book if none was -/
def lastL2 (c : String) (es : List Event) : Dms.L2 :=
  (es.filterMap (Event.l2? c)).getLast?.getD { contract := c }

/-- The last book is among the later messages, if one of them publishes it. -/
theorem lastL2_append (c : String) (es es' : List Event) :
    lastL2 c (es ++ es') = ((es'.filterMap (Event.l2? c)).getLast?).getD (lastL2 c es) := by
  unfold lastL2
  rw [List.filterMap_append, List.getLast?_append]
  cases (es'.filterMap (Event.l2? c)).getLast? <;> rfl

/-- What does not publish a book of the contract does not change which was the last. -/
theorem lastL2_append_of_forall {c : String} (es : List Event) {es' : List Event}
    (h : ∀ e ∈ es', e.l2? c = none) : lastL2 c (es ++ es') = lastL2 c es := by
  rw [lastL2_append, List.filterMap_eq_nil_iff.mpr h]
  rfl

namespace TradeMarketState

/-! ## The depth of a change -/

/-- The depth is one that an `int` holds, and shows something. -/
def DepthOk (m : TradeMarketState) : Prop := 1 ≤ m.depth.toNat ∧ m.depth.toNat < 2 ^ 31

section Depth

variable {m : TradeMarketState} (h : m.DepthOk)

include h

/-- The depth is compared as an `int`, which changes nothing below 2^31. -/
private theorem toInt_depth : m.depth.toInt32.toInt = m.depth.toNat := by
  have hd := h.2
  show m.depth.toBitVec.toInt = _
  rw [BitVec.toInt_eq_toNat_of_lt, UInt32.toNat_toBitVec]
  rw [UInt32.toNat_toBitVec]
  omega

/-- A place that is not deeper than what is published is not taken for one that is. -/
private theorem not_depth_le {n : Nat} (hn : n < m.depth.toNat) :
    ¬ Int32.ofNat n ≥ m.depth.toInt32 := by
  have hd := h.2
  rw [ge_iff_le, Int32.le_iff_toInt_le, toInt_depth h, Int32.toInt_ofNat_of_lt (by omega)]
  omega

/-- The code 0 says that the place is deeper than what is published. -/
theorem depth_le_of_changeOf {n : Nat} (hcode : m.changeOf (.ofNat n) = 0) :
    m.depth.toNat ≤ n := by
  by_contra hlt
  have hno := not_depth_le h (Nat.lt_of_not_le hlt)
  unfold changeOf at hcode
  rw [if_neg hno] at hcode
  split at hcode <;> exact absurd hcode (by decide)

/-- A code other than 2 says that the place is not the first one. -/
theorem ne_zero_of_changeOf {n : Nat} (hcode : m.changeOf (.ofNat n) ≠ 2) : n ≠ 0 := by
  rintro rfl
  have hno := not_depth_le h (n := 0) h.1
  unfold changeOf at hcode
  rw [if_neg hno] at hcode
  exact hcode rfl

/-- A side is published down to the depth. -/
theorem rows_eq {isBuy : Bool} (l : List (SidePrice isBuy × OrderSize)) {added : List Dms.DataPoint}
    (hadded : added.length < m.depth.toNat) :
    rows m.depth.toInt32 l added =
      added ++ (l.map fillDataPoint).take (m.depth.toNat - added.length) := by
  induction l generalizing added with
  | nil => simp [rows]
  | cons kv l ih =>
    have hd := h.2
    have hlength : (added ++ [fillDataPoint kv]).length = added.length + 1 := by simp
    obtain ⟨rest, hrest⟩ : ∃ rest, m.depth.toNat - added.length = rest + 1 :=
      ⟨m.depth.toNat - added.length - 1, by omega⟩
    unfold rows
    rw [hrest, List.map_cons, List.take_succ_cons]
    -- the loop looks after each row whether the depth is full
    by_cases hfull : added.length + 1 < m.depth.toNat
    · have hno := not_depth_le h (n := (added ++ [fillDataPoint kv]).length) (by omega)
      rw [if_neg hno, ih (by omega), hlength, List.append_assoc]
      have : m.depth.toNat - (added.length + 1) = rest := by omega
      rw [this]
      rfl
    · -- the row makes the depth full
      have hyes : Int32.ofNat (added ++ [fillDataPoint kv]).length ≥ m.depth.toInt32 := by
        rw [ge_iff_le, Int32.le_iff_toInt_le, toInt_depth h, hlength,
          Int32.toInt_ofNat_of_lt (by omega)]
        omega
      have : rest = 0 := by omega
      rw [if_pos hyes, this, List.take_zero]

/-- What is published of a book are both its sides down to the depth. -/
theorem l2_eq : m.l2 = {
    contract := m.contractName
    bid := (m.bid.toList.map fillDataPoint).take m.depth.toNat
    offer := (m.ask.toList.map fillDataPoint).take m.depth.toNat } := by
  have hpos : ([] : List Dms.DataPoint).length < m.depth.toNat := h.1
  unfold l2
  rw [rows_eq h _ hpos, rows_eq h _ hpos]
  rfl

end Depth

/-! ## What a change leaves alone -/

/-- A change of the book at place `n` of a side: what is before it stays as it is. -/
structure ChangedAt (m m' : TradeMarketState) (n : Nat) : Prop where
  contractName : m'.contractName = m.contractName
  depth : m'.depth = m.depth
  bid : m'.bid.toList.take n = m.bid.toList.take n
  ask : m'.ask.toList.take n = m.ask.toList.take n

/-- A change that is deeper than what is published is not seen. -/
theorem ChangedAt.l2_eq {m m' : TradeMarketState} (h : m.DepthOk) {n : Nat}
    (hchanged : ChangedAt m m' n) (hn : m.depth.toNat ≤ n) : m'.l2 = m.l2 := by
  have h' : m'.DepthOk := by
    unfold DepthOk
    rw [hchanged.depth]
    exact h
  -- the first rows depend on the first entries alone
  have htake : ∀ {isBuy : Bool} {l l' : List (SidePrice isBuy × OrderSize)}, l'.take n = l.take n →
      (l'.map fillDataPoint).take m.depth.toNat = (l.map fillDataPoint).take m.depth.toNat := by
    intro isBuy l l' hl
    rw [← Nat.min_eq_left hn, ← List.take_take, ← List.take_take, ← List.map_take, ← List.map_take,
      ← List.map_take, ← List.map_take, hl]
  rw [TradeMarketState.l2_eq h, TradeMarketState.l2_eq h', hchanged.contractName, hchanged.depth,
    htake hchanged.bid, htake hchanged.ask]

/-- A change that is not at a best price leaves the best prices. -/
theorem ChangedAt.bbo_eq {m m' : TradeMarketState} {n : Nat} (hchanged : ChangedAt m m' n)
    (hn : n ≠ 0) : m'.bbo = m.bbo := by
  -- a best price is among the first entries, as there is at least one
  have hhead : ∀ {isBuy : Bool} {l l' : List (SidePrice isBuy × OrderSize)},
      l'.take n = l.take n → l'.head? = l.head? := by
    intro isBuy l l' hl
    have := congrArg List.head? hl
    rwa [List.head?_take, List.head?_take, if_neg hn, if_neg hn] at this
  unfold bbo
  rw [hchanged.contractName, hhead hchanged.bid, hhead hchanged.ask]

/-- The entries of a price's side that come before it -/
private def before (m : TradeMarketState) (cp : ComparablePrice) :
    List (SidePrice cp.isBuy × OrderSize) :=
  (m.side cp.isBuy).toList.takeWhile fun kv => decide (kv.1 < ⟨cp.price⟩)

/-- The place of a price is the number of entries before it. -/
private theorem level_eq (m : TradeMarketState) (cp : ComparablePrice) :
    m.level cp = .ofNat (m.before cp).length := rfl

/-- A book of which one side is changed behind the entries before `cp` -/
private theorem changedAt_of_before {m m' : TradeMarketState} {cp : ComparablePrice}
    (hname : m'.contractName = m.contractName) (hdepth : m'.depth = m.depth)
    (hother : m'.side (!cp.isBuy) = m.side (!cp.isBuy)) (hbefore : m'.before cp = m.before cp) :
    ChangedAt m m' (m.before cp).length := by
  have htake : ∀ m : TradeMarketState, (m.side cp.isBuy).toList.take (m.before cp).length =
      m.before cp := fun m => List.take_length_takeWhile _ _
  have hown : (m'.side cp.isBuy).toList.take (m.before cp).length =
      (m.side cp.isBuy).toList.take (m.before cp).length := by
    rw [htake m, ← hbefore, htake m']
  -- the other side is as it was
  obtain ⟨isBuy, price⟩ := cp
  cases isBuy with
  | true => exact ⟨hname, hdepth, hown, by rw [show m'.ask = m.ask from hother]⟩
  | false => exact ⟨hname, hdepth, by rw [show m'.bid = m.bid from hother], hown⟩

/-- What an `insert` or an `erase` at a price leaves of its side -/
private theorem takeWhile_lt {isBuy : Bool} (t : Std.TreeMap (SidePrice isBuy) OrderSize)
    (k : SidePrice isBuy) (size : OrderSize) :
    (t.insert k size).toList.takeWhile (fun kv => decide (kv.1 < k)) =
      t.toList.takeWhile (fun kv => decide (kv.1 < k)) ∧
    (t.erase k).toList.takeWhile (fun kv => decide (kv.1 < k)) =
      t.toList.takeWhile fun kv => decide (kv.1 < k) := by
  have hlt : (fun kv : SidePrice isBuy × OrderSize => decide (kv.1 < k)) =
      fun kv => decide (compare kv.1 k = .lt) := by
    funext kv
    rw [decide_eq_decide, compare_lt_iff_lt]
  rw [hlt]
  exact ⟨Std.TreeMap.takeWhile_toList_insert t k size, Std.TreeMap.takeWhile_toList_erase t k⟩

section Side

variable (m : TradeMarketState) (cp : ComparablePrice) (size : OrderSize)

/-- Inserting at a price leaves the entries before it. -/
private theorem before_insert :
    before { m with toSideMaps := m.insert cp size } cp = m.before cp := by
  obtain ⟨isBuy, price⟩ := cp
  cases isBuy <;> exact (takeWhile_lt _ _ size).1

/-- Inserting changes the book at the place of the price. -/
private theorem changedAt_insert :
    ChangedAt m { m with toSideMaps := m.insert cp size } (m.before cp).length := by
  refine changedAt_of_before ?_ ?_ ?_ (before_insert m cp size)
  · rfl
  · rfl
  · obtain ⟨isBuy, price⟩ := cp
    cases isBuy <;> rfl

/-- Erasing changes the book at the place of the price. -/
private theorem changedAt_erase :
    ChangedAt m { m with toSideMaps := m.erase cp } (m.before cp).length := by
  obtain ⟨isBuy, price⟩ := cp
  refine changedAt_of_before ?_ ?_ ?_ ?_
  · rfl
  · rfl
  · cases isBuy <;> rfl
  · cases isBuy <;> exact (takeWhile_lt _ _ 0).2

end Side

/-- A change with its code: code 0 says that it is too deep to be seen, and a code other than 2 that
    it is not at a best price. -/
structure Coded (m m' : TradeMarketState) (code : Nat) : Prop where
  contractName : m'.contractName = m.contractName
  depth : m'.depth = m.depth
  l2 : m.DepthOk → code = 0 → m'.l2 = m.l2
  bbo : m.DepthOk → code ≠ 2 → m'.bbo = m.bbo

/-- A market order changes nothing of the book. -/
theorem Coded.refl (m : TradeMarketState) (code : Nat) : Coded m m code :=
  ⟨rfl, rfl, fun _ _ => rfl, fun _ _ => rfl⟩

/-- The code says how deep a change is. -/
theorem ChangedAt.coded {m m' : TradeMarketState} {n : Nat} (h : ChangedAt m m' n) :
    Coded m m' (m.changeOf (.ofNat n)) where
  contractName := h.contractName
  depth := h.depth
  l2 hok hcode := h.l2_eq hok (depth_le_of_changeOf hok hcode)
  bbo hok hcode := h.bbo_eq (ne_zero_of_changeOf hok hcode)

/-- The code of a new order is that of its place. -/
theorem coded_of_onOrderCreated {m m' : TradeMarketState} {order : Order} {code : Nat}
    (h : m.onOrderCreated order = .ok (m', code)) : Coded m m' code := by
  unfold onOrderCreated at h
  split at h
  · cases h
    exact .refl m 0
  · obtain ⟨cp, -, h⟩ := Except.bind_eq_ok.mp h
    cases h
    -- the place is looked up after the change
    rw [level_eq, before_insert]
    exact (changedAt_insert m cp _).coded

/-- The code of a deletion or a fill is that of the place the price had before. -/
theorem coded_of_deleteOrder {m m' : TradeMarketState} {order : Order} {size : OrderSize} {code : Nat}
    (h : m.deleteOrder order size = .ok (m', code)) : Coded m m' code := by
  unfold deleteOrder at h
  split at h
  · cases h
    exact .refl m 0
  · obtain ⟨cp, -, h⟩ := Except.bind_eq_ok.mp h
    cases hcurrent : m.get? cp with
    | none =>
      rw [hcurrent] at h
      exact nomatch h
    | some current =>
      rw [hcurrent] at h
      cases h
      rw [level_eq]
      -- the price is erased when nothing is left at it
      split
      · exact (changedAt_erase m cp).coded
      · exact (changedAt_insert m cp _).coded

end TradeMarketState

namespace TradeSimulater

/-! ## What is published along a computation -/

/-- For every contract the book that was published last is the present one. -/
structure Shown (s : TradeSimulater) : Prop where
  listening : s.marketManager.marketListener = true
  contract : ∀ c m, s.market c = some m → m.contractName = c ∧
    ∃ tc, s.contractAssist.contracts[c]? = some tc ∧ m.depth = tc.depth
  last : ∀ c m, s.market c = some m → m.DepthOk → lastL2 c s.events = m.l2

/-- From `s` to `s'` the books were published, and every best price that changed. -/
structure Published (s s' : TradeSimulater) : Prop where
  shown : s'.Shown
  contracts : s'.contractAssist = s.contractAssist
  kept : ∀ c m, s.market c = some m → ∃ m', s'.market c = some m' ∧ m'.depth = m.depth
  calls : ∃ es, s'.events = s.events ++ es ∧ ∀ c m m', s.market c = some m → s'.market c = some m' →
    m.DepthOk → m'.bbo = m.bbo ∨ bestMessage m'.bbo = none ∨ ∃ e ∈ es, bestMessage m'.bbo = some e

/-- What a computation does to what is published, if it was right before -/
def Publishes (s s' : TradeSimulater) : Prop := s.Shown → Published s s'

/-- What two computations publish is published by their sequence. -/
theorem Published.trans {s s' s'' : TradeSimulater} (h : Published s s') (h' : Published s' s'') :
    Published s s'' := by
  refine ⟨h'.shown, h'.contracts.trans h.contracts, fun c m hm => ?_, ?_⟩
  · obtain ⟨m', hm', hd⟩ := h.kept c m hm
    obtain ⟨m'', hm'', hd'⟩ := h'.kept c m' hm'
    exact ⟨m'', hm'', hd'.trans hd⟩
  · obtain ⟨es, hes, hbest⟩ := h.calls
    obtain ⟨es', hes', hbest'⟩ := h'.calls
    refine ⟨es ++ es', by rw [hes', hes, List.append_assoc], fun c m m'' hm hm'' hok => ?_⟩
    obtain ⟨m', hm', hd⟩ := h.kept c m hm
    have hok' : m'.DepthOk := by
      unfold TradeMarketState.DepthOk
      rw [hd]
      exact hok
    -- a best price was sent by the second one, or by the first and not changed since
    rcases hbest' c m' m'' hm' hm'' hok' with heq | hnone | ⟨e, he, hmessage⟩
    · rw [heq]
      rcases hbest c m m' hm hm' hok with heq | hnone | ⟨e, he, hmessage⟩
      · exact .inl heq
      · exact .inr (.inl hnone)
      · exact .inr (.inr ⟨e, List.mem_append_left _ he, hmessage⟩)
    · exact .inr (.inl hnone)
    · exact .inr (.inr ⟨e, List.mem_append_right _ he, hmessage⟩)

/-- Calls that publish no book change nothing about what was published. -/
theorem publishes_of_same {s s' : TradeSimulater} (hmarket : s'.marketManager = s.marketManager)
    (hcontracts : s'.contractAssist = s.contractAssist) {es : List Event}
    (hes : s'.events = s.events ++ es) (hno : ∀ e ∈ es, ∀ c, e.l2? c = none) : Publishes s s' := by
  intro hs
  have heq : ∀ c, s'.market c = s.market c := fun c => by unfold market; rw [hmarket]
  refine ⟨⟨?_, fun c m hm => ?_, fun c m hm hok => ?_⟩, hcontracts, fun c m hm => ?_, es, hes, ?_⟩
  · rw [hmarket]
    exact hs.listening
  · rw [hcontracts]
    exact hs.contract c m ((heq c).symm.trans hm)
  · -- no event of the step is an L2, so the last one is that of before
    rw [hes, lastL2_append_of_forall _ fun e he => hno e he c]
    exact hs.last c m ((heq c).symm.trans hm) hok
  · exact ⟨m, (heq c).trans hm, rfl⟩
  · intro c m m' hm hm' _
    rw [heq c, hm] at hm'
    exact .inl (by rw [Option.some.inj hm'])

instance : IsPreorder TradeSimulater Publishes where
  refl s := publishes_of_same rfl rfl (List.append_nil s.events).symm fun _ he => nomatch he
  trans _ _ _ h h' hs := (h hs).trans (h' (h hs).shown)

/-- The messages of a changed book: the book, unless the change is too deep to be seen. -/
private theorem l2?_publishedBy (m : TradeMarketState) {code : Nat} (h : code ≠ 0) :
    (publishedBy m code).filterMap (Event.l2? m.contractName) = [m.l2] := by
  have hbest : (if code = 2 then (bestMessage m.bbo).toList else []).filterMap
      (Event.l2? m.contractName) = [] := by
    rw [List.filterMap_eq_nil_iff]
    intro e he
    split at he
    · rcases mem_bestMessage he with rfl | ⟨_, rfl⟩ | ⟨_, rfl⟩ <;> rfl
    · exact absurd he List.not_mem_nil
  have hown : m.l2.contract = m.contractName := rfl
  unfold publishedBy
  rw [List.filterMap_append, hbest, if_neg h]
  simp [Event.l2?, hown]

/-- They are of the contract of the book. -/
private theorem l2?_publishedBy_of_ne (m : TradeMarketState) (code : Nat) {c : String}
    (h : m.contractName ≠ c) : ∀ e ∈ publishedBy m code, e.l2? c = none := by
  intro e he
  unfold publishedBy at he
  rcases List.mem_append.mp he with he | he
  · split at he
    · exact absurd he List.not_mem_nil
    · rw [List.mem_singleton] at he
      subst he
      exact if_neg h
  · split at he
    · rcases mem_bestMessage he with rfl | ⟨_, rfl⟩ | ⟨_, rfl⟩ <;> rfl
    · exact absurd he List.not_mem_nil

/-- A change of a book is published as its code says, and the code hides nothing. -/
theorem publishes_changeMarket (c : String)
    {change : TradeMarketState → Except Exception (TradeMarketState × Nat)}
    (hchange : ∀ m m' code, change m = .ok (m', code) → TradeMarketState.Coded m m' code) :
    EStateM.Moves Publishes (changeMarket c change) := by
  intro s
  cases hm : s.market c with
  | none =>
    have hnone : s.marketManager.marketStates[c]? = none := hm
    -- a contract that does not exist: nothing is published, as nothing happens
    have hthrow : changeMarket c change s = .error (.undefined "null pointer") s := by
      simp only [changeMarket, bind, EStateM.bind, get, getThe, MonadStateOf.get, EStateM.get, hnone]
      rfl
    rw [hthrow]
    exact Std.Refl.refl s
  | some m =>
    cases hch : change m with
    | error e =>
      -- the book is as it was
      rw [changeMarket_of_error hm hch]
      exact Std.Refl.refl s
    | ok r =>
      obtain ⟨m', code⟩ := r
      intro hs
      -- the changed book is stored under its contract
      have hcoded := hchange m m' code hch
      obtain ⟨hname, htc⟩ := hs.contract c m hm
      have hname' : m'.contractName = c := hcoded.contractName.trans hname
      rw [changeMarket_of_ok hs.listening hm change hch]
      show Published s ((s.withMarket c m').sent (publishedBy m' code))
      have hmarket : ∀ c', ((s.withMarket c m').sent (publishedBy m' code)).market c' =
          if c' = c then some m' else s.market c' := market_withMarket s c m'
      refine ⟨⟨hs.listening, fun c' m₁ hm₁ => ?_, fun c' m₁ hm₁ hok => ?_⟩, rfl, fun c' m₁ hm₁ => ?_,
        publishedBy m' code, rfl, fun c' m₁ m₂ hm₁ hm₂ hok => ?_⟩
      · -- the book is still the one of its contract, with the contract's depth
        rw [hmarket] at hm₁
        split at hm₁
        · next hc =>
          cases hm₁
          rw [hc, hcoded.depth]
          exact ⟨hname', htc⟩
        · exact hs.contract c' m₁ hm₁
      · rw [hmarket] at hm₁
        -- the last book that was sent is the changed one, and those of other contracts are
        -- untouched
        show lastL2 c' (s.events ++ publishedBy m' code) = m₁.l2
        split at hm₁
        · next hc =>
          cases hm₁
          rw [hc]
          have hok' : m.DepthOk := by
            unfold TradeMarketState.DepthOk at hok ⊢
            rwa [hcoded.depth] at hok
          by_cases hcode : code = 0
          · -- too deep to be seen: the book that was published is still right
            rw [hcode, show publishedBy m' 0 = [] from rfl, List.append_nil, hs.last c m hm hok',
              hcoded.l2 hok' hcode]
          · have hlast := l2?_publishedBy m' hcode
            rw [hname'] at hlast
            rw [lastL2_append, hlast]
            rfl
        · next hc =>
          rw [lastL2_append_of_forall _ (l2?_publishedBy_of_ne m' code
            fun h => hc (h.symm.trans hname'))]
          exact hs.last c' m₁ hm₁ hok
      · by_cases hc : c' = c
        · rw [hc, hm] at hm₁
          cases hm₁
          exact ⟨m', by rw [hmarket, if_pos hc], hcoded.depth⟩
        · exact ⟨m₁, by rw [hmarket, if_neg hc, hm₁], rfl⟩
      · rw [hmarket] at hm₂
        split at hm₂
        · next hc =>
          cases hm₂
          rw [hc, hm] at hm₁
          cases hm₁
          -- the best prices are sent with the code 2 alone
          by_cases hcode : code = 2
          · cases hbest : bestMessage m'.bbo with
            | none => exact .inr (.inl rfl)
            | some e =>
              refine .inr (.inr ⟨e, ?_, rfl⟩)
              unfold publishedBy
              rw [if_pos hcode, hbest]
              exact List.mem_append_right _ (List.mem_singleton.mpr rfl)
          · exact .inl (hcoded.bbo hok hcode)
        · rw [hm₁] at hm₂
          cases hm₂
          exact .inl rfl

/-! ## Every request -/

section Moves

open EStateM (Moves)

/-- A call that is no book publishes nothing. -/
private theorem publishes_emit {e : Event} (h : ∀ c, e.l2? c = none) :
    Moves Publishes (emit e) := by
  intro s
  have hno : ∀ e' ∈ [e], ∀ c, e'.l2? c = none := fun e' he c => by
    rw [List.mem_singleton.mp he]
    exact h c
  exact publishes_of_same rfl rfl rfl hno

/-- Neither does a call to the market listener that is no book. -/
private theorem publishes_emitMarket {e : Event} (h : ∀ c, e.l2? c = none) :
    Moves Publishes (emitMarket e) := by
  unfold emitMarket
  exact .get_bind fun s => Moves.ite (publishes_emit h) (.pure ()) s

/-- The orders are not published. -/
private theorem publishes_withOrders {α : Type}
    (op : TradeOrderManager → Except Exception (TradeOrderManager × α)) :
    Moves Publishes (withOrders op) := by
  unfold withOrders
  refine .get_bind fun s => (Moves.ofExcept _).bind (fun a => ?_) s
  refine (Moves.modify fun s => ?_).bind fun _ => .pure _
  exact publishes_of_same rfl rfl (List.append_nil s.events).symm fun _ he => nomatch he

/-- Counting fills publishes nothing. -/
private theorem publishes_nextFillId : Moves Publishes nextFillId := fun s =>
  publishes_of_same rfl rfl (List.append_nil s.events).symm fun _ he => nomatch he

/-- Counting orders publishes nothing. -/
private theorem publishes_nextExchangeOrderId : Moves Publishes nextExchangeOrderId := fun s =>
  publishes_of_same rfl rfl (List.append_nil s.events).symm fun _ he => nomatch he

/-- A report of an order is no book. -/
private theorem publishes_onOrder (o : Order) : Moves Publishes (emit (.onOrder o)) :=
  publishes_emit fun _ => rfl

/-- The reports of a fill are no book. -/
private theorem publishes_reportFilled (o : Order) (f : Ems.Fill) (n : OrderSize) :
    Moves Publishes (reportFilled o f n) := by
  unfold reportFilled
  exact .get_bind fun s => (publishes_onOrder _).bind (fun _ => publishes_emit fun _ => rfl) s

/-- A new order is published as the code of its place says. -/
private theorem publishes_onOrderCreated (o : Order) :
    Moves Publishes (changeMarketOnOrderCreated o) :=
  publishes_changeMarket _ fun _ _ _ => TradeMarketState.coded_of_onOrderCreated

/-- A deleted order is published as the code of its place says. -/
private theorem publishes_onOrderDeleted (o : Order) :
    Moves Publishes (changeMarketOnOrderDeleted o) :=
  publishes_changeMarket _ fun _ _ _ => TradeMarketState.coded_of_deleteOrder

/-- A fill is published as the code of its place says. -/
private theorem publishes_onOrderFilled (o : Order) (n : OrderSize) :
    Moves Publishes (changeMarketOnOrderFilled o n) :=
  publishes_changeMarket _ fun _ _ _ => TradeMarketState.coded_of_deleteOrder

/-- One round publishes the book that the fill changed. -/
private theorem publishes_matchOne (o : Order) (remainder : OrderSize) (oppo : MatchedOrder) :
    Moves Publishes (matchOne o remainder oppo) := by
  unfold matchOne
  refine .get_bind fun s => (Moves.ofExcept _).bind (fun box => ?_) s
  refine (Moves.ofExcept _).bind fun matched => ?_
  refine publishes_nextFillId.bind fun fillId => ?_
  refine (publishes_withOrders _).bind fun fill => ?_
  refine (publishes_reportFilled _ _ _).bind fun _ => ?_
  refine (publishes_withOrders _).bind fun wfill => ?_
  refine (publishes_reportFilled _ _ _).bind fun _ => ?_
  refine (publishes_emitMarket fun _ => rfl).bind fun _ => ?_
  exact publishes_onOrderFilled _ _

/-- The rounds publish, and so does the order that is left to rest. -/
private theorem publishes_matchOrder (o : Order) : Moves Publishes (matchOrder o) := by
  unfold matchOrder
  refine .get_bind fun s => (Moves.ofExcept _).bind (fun box => ?_) s
  refine (Moves.ofExcept _).bind fun (ms, remainder, isDelete) => ?_
  refine (Moves.forM (publishes_matchOne o remainder) ms).bind fun _ => ?_
  refine .ite ?_ (.pure ())
  refine .ite ?_ ?_
  · exact (publishes_withOrders _).bind fun _ => publishes_onOrder _
  · refine (publishes_withOrders _).bind fun _ => ?_
    exact (publishes_onOrder _).bind fun _ => publishes_onOrderCreated _

/-- What one request publishes. -/
theorem publishes_handle (r : Request) : Moves Publishes (handle r) := by
  cases r with
  | add o =>
    refine .get_bind fun s => (Moves.ofExcept _).bind (fun err => ?_) s
    -- a request that is turned down is only reported
    refine .ite (publishes_onOrder _) ?_
    refine .get_bind fun s => (Moves.ofExcept _).bind (fun status => ?_) s
    refine .ite (publishes_onOrder _) ?_
    refine publishes_nextExchangeOrderId.bind fun id => ?_
    exact (publishes_onOrder _).bind fun _ => publishes_matchOrder _
  | change o =>
    refine .get_bind fun s => (Moves.ofExcept _).bind (fun err => ?_) s
    refine .ite (publishes_onOrder _) ?_
    refine .get_bind fun s => (Moves.ofExcept _).bind (fun status => ?_) s
    refine .ite (publishes_onOrder _) ?_
    refine (publishes_onOrder _).bind fun _ => ?_
    refine (publishes_withOrders _).bind fun deletedOrder => ?_
    refine (publishes_onOrder _).bind fun _ => ?_
    exact (publishes_onOrderDeleted _).bind fun _ => publishes_matchOrder _
  | delete o =>
    refine .get_bind fun s => Moves.ite (publishes_onOrder _) ?_ s
    refine .get_bind fun s => (Moves.ofExcept _).bind (fun status => ?_) s
    refine .ite (publishes_onOrder _) ?_
    refine (publishes_withOrders _).bind fun deletedOrder => ?_
    exact (publishes_onOrder _).bind fun _ => publishes_onOrderDeleted _

end Moves

/-- A request keeps the books right, and sends the best prices that change. -/
theorem Shown.step {s : TradeSimulater} (h : s.Shown) (r : Request) : Published s (s.step r) :=
  publishes_handle r s h

/-- The books stay right along every run. -/
theorem Shown.run {s : TradeSimulater} (h : s.Shown) (rs : List Request) : (s.run rs).Shown := by
  induction rs generalizing s with
  | nil => exact h
  | cons r rs ih => exact ih (h.step r).shown

/-- Before the first request nothing is published, and all books are empty. -/
theorem Shown.started (clock : Nat → Ems.Timestamp) (contracts : List TradeContract) :
    (started clock contracts).Shown := by
  -- a contract is added with an empty book, and nothing is sent
  have hfold : ∀ s : TradeSimulater, s.Shown → s.events = [] →
      (contracts.foldl addContract s).Shown := by
    induction contracts with
    | nil => exact fun s hs _ => hs
    | cons tc contracts ih =>
      refine fun s hs hnil => ih _ ⟨hs.listening, fun c m hm => ?_, fun c m hm hok => ?_⟩ hnil
      · have hcontract : (s.addContract tc).contractAssist.contracts[c]? =
            if c = tc.name then some tc else s.contractAssist.contracts[c]? :=
          Std.TreeMap.getElem?_insert_if _ _ _ _
        have hmarket : (s.addContract tc).market c =
            if c = tc.name then some { contractName := tc.name, depth := tc.depth }
            else s.market c := Std.TreeMap.getElem?_insert_if _ _ _ _
        rw [hmarket] at hm
        rw [hcontract]
        split at hm
        · next hc =>
          cases hm
          exact ⟨hc.symm, tc, if_pos hc, rfl⟩
        · next hc =>
          rw [if_neg hc]
          exact hs.contract c m hm
      · have hmarket : (s.addContract tc).market c =
            if c = tc.name then some { contractName := tc.name, depth := tc.depth }
            else s.market c := Std.TreeMap.getElem?_insert_if _ _ _ _
        rw [hmarket] at hm
        show lastL2 c s.events = m.l2
        split at hm
        · next hc =>
          cases hm
          rw [hnil, hc]
          rfl
        · exact hs.last c m hm hok
  refine hfold _ ⟨rfl, fun c m hm => ?_, fun c m hm => ?_⟩ rfl
  · simp [market] at hm
  · simp [market] at hm

/-- After every sequence of requests the book of a contract that was published last is the present
    one, and the next request publishes the best prices if it changes them. No change has a code
    that hides it. -/
theorem published_run (clock : Nat → Ems.Timestamp) (contracts : List TradeContract)
    (rs : List Request) (c : String) (tc : TradeContract) (m : TradeMarketState)
    (htc : ((started clock contracts).run rs).contractAssist.contracts[c]? = some tc)
    (hdepth : 1 ≤ tc.depth.toNat ∧ tc.depth.toNat < 2 ^ 31)
    (hm : ((started clock contracts).run rs).market c = some m) :
    lastL2 c ((started clock contracts).run rs).events = m.l2 ∧
    (∀ r m', (((started clock contracts).run rs).step r).market c = some m' → m'.bbo ≠ m.bbo →
      (m'.bbo.bid.isSome ∨ m'.bbo.offer.isSome) →
      ∃ es e, (((started clock contracts).run rs).step r).events =
          ((started clock contracts).run rs).events ++ es ∧
        e ∈ es ∧ bestMessage m'.bbo = some e) ∧
    ∀ (m₀ m₁ : TradeMarketState) (order : Order) (size : OrderSize) (code : Nat),
      m₀.depth = tc.depth →
      m₀.onOrderCreated order = .ok (m₁, code) ∨ m₀.onOrderDeleted order = .ok (m₁, code) ∨
        m₀.onOrderFilled order size = .ok (m₁, code) →
      (m₁.l2 ≠ m₀.l2 → code ≠ 0) ∧ (m₁.bbo ≠ m₀.bbo → code = 2) := by
  have hshown := (Shown.started clock contracts).run rs
  obtain ⟨tc', htc', hd⟩ := (hshown.contract c m hm).2
  -- the depth of a book is the depth of its contract
  have hok : m.DepthOk := by
    unfold TradeMarketState.DepthOk
    rwa [hd, show tc' = tc from Option.some.inj (htc'.symm.trans htc)]
  refine ⟨hshown.last c m hm hok, fun r m' hm' hne hsome => ?_, fun m₀ m₁ order size code hd₀ h => ?_⟩
  · obtain ⟨es, hes, hbest⟩ := (hshown.step r).calls
    rcases hbest c m m' hm hm' hok with heq | hnone | ⟨e, he, hmessage⟩
    · exact absurd heq hne
    · -- there is a message if there is a price
      unfold bestMessage at hnone
      cases hbid : m'.bbo.bid <;> cases hoffer : m'.bbo.offer <;> simp [hbid, hoffer] at hnone hsome
    · exact ⟨es, e, hes, he, hmessage⟩
  · have hok₀ : m₀.DepthOk := by
      unfold TradeMarketState.DepthOk
      rwa [hd₀]
    -- the code is right for each of the three operations
    have hcoded : TradeMarketState.Coded m₀ m₁ code := by
      rcases h with h | h | h
      · exact TradeMarketState.coded_of_onOrderCreated h
      · exact TradeMarketState.coded_of_deleteOrder h
      · exact TradeMarketState.coded_of_deleteOrder h
    exact ⟨fun hne hcode => hne (hcoded.l2 hok₀ hcode),
      fun hne => by_contra fun hcode => hne (hcoded.bbo hok₀ hcode)⟩

/-- A sell order for five is on offer; a better one takes its place at the top, and both books are
    published. -/
theorem better_offer_published :
    ∃ m m', (sampleRun [.add (limitOrder "1" .sell "2" 5)]).market "A" = some m ∧
      (sampleRun [.add (limitOrder "1" .sell "2" 5), .add (limitOrder "2" .sell "1" 3)]).market "A" =
        some m' ∧
      lastL2 "A" (sampleRun [.add (limitOrder "1" .sell "2" 5)]).events = m.l2 ∧
      ∃ es e, (sampleRun [.add (limitOrder "1" .sell "2" 5),
          .add (limitOrder "2" .sell "1" 3)]).events =
          (sampleRun [.add (limitOrder "1" .sell "2" 5)]).events ++ es ∧
        e ∈ es ∧ bestMessage m'.bbo = some e := by
  have hbefore : ((sampleRun [.add (limitOrder "1" .sell "2" 5)]).market "A").map (·.bbo) =
      some { contract := "A", offer := some ⟨toRealPrice 200, 5⟩ } := by decide +kernel
  have hafter : ((sampleRun [.add (limitOrder "1" .sell "2" 5),
      .add (limitOrder "2" .sell "1" 3)]).market "A").map (·.bbo) =
      some { contract := "A", offer := some ⟨toRealPrice 100, 3⟩ } := by decide +kernel
  obtain ⟨m, hm, hbbo⟩ := Option.map_eq_some_iff.mp hbefore
  obtain ⟨m', hm', hbbo'⟩ := Option.map_eq_some_iff.mp hafter
  -- the run ends with the first order; the second makes the better offer
  obtain ⟨hlast, hbest, -⟩ := published_run (fun _ => {}) sampleContracts
    [.add (limitOrder "1" .sell "2" 5)] "A" ⟨"A", 5, 1, 1, 1000⟩ m (by decide +kernel) (by decide) hm
  refine ⟨m, m', hm, hm', hlast, hbest (.add (limitOrder "2" .sell "1" 3)) m' hm' ?_ ?_⟩
  · -- the best offer is another one
    rw [hbbo, hbbo']
    decide +kernel
  · rw [hbbo']
    exact .inr rfl

end TradeSimulater

end FixHandler.Trade
