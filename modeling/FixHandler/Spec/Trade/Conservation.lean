import Mathlib
import FixHandler.Spec.Trade.PublishedBook
import FixHandler.Spec.Trade.OrderLife

/-!
# Quantity is conserved, and fills come in pairs

After an accepted `Add` or `Change` the quantity asked for is found again as
what was filled since, what still works and what is cancelled. An exception in
the middle of the matching would lose the rest; it cannot happen while the
quantities at each price fit 64 bits. Every fill id is given to the two parties
of one trade, which is published once.

## Key results

- `Ledger.Conserved.apply`: no action of another id changes the sum
- `conserved_run`: from the request on the sum stays what was asked for
- `Ledger.deals_of_runs`: the two fills and the trade of a round agree
- `pairs_iff`: the fills of a run come in pairs exactly until the counter of fill
  ids wraps around
- `quantity_conserved`: both statements for every run
-/

namespace FixHandler.Trade

open Ems (Order Fill)

namespace Ledger

/-- The quantity filled for an id after the first `n` fills. -/
def filledSince (b : Ledger) (n : Nat) (id : String) : Nat :=
  (((b.fills.drop n).filter (·.clientOrderId == id)).map (·.fillQuantity.toNat)).sum

/-- The quantity of the cancelled order of an id. -/
def canceledSize (b : Ledger) (id : String) : Nat :=
  (b.canceled id).elim 0 (·.quantity.toNat)

/-- What was filled after the first `n` fills, what works and what is cancelled of an id
    are `Q` together. -/
structure Conserved (b : Ledger) (n : Nat) (id : String) (Q : Nat) : Prop where
  known : n ≤ b.fills.length
  sum : b.filledSince n id + b.sizeOf id + b.canceledSize id = Q

/-- An action adds what it fills of the order. -/
theorem filledSince_apply {b : Ledger} {n : Nat} (hn : n ≤ b.fills.length) {a : Act} {id : String}
    (ha : a.incoming ≠ some id) :
    (b.apply a).filledSince n id = b.filledSince n id + a.filled id := by
  rw [filledSince, fills_apply, List.drop_append_of_le_length hn, List.filter_append,
    List.map_append, List.sum_append, Act.sum_fills ha]
  rfl

/-- What the actions of another id do to an id conserves its quantity. -/
theorem Conserved.apply {b : Ledger} (hb : b.WF) {a : Act} (hg : b.guard a) {n : Nat} {id : String}
    {Q : Nat} (ha : a.incoming ≠ some id) (h : b.Conserved n id Q) :
    (b.apply a).Conserved n id Q := by
  have hsince := filledSince_apply h.known ha
  have hsum := h.sum
  refine ⟨h.known.trans (by rw [fills_apply, List.length_append]; exact Nat.le_add_right _ _), ?_⟩
  cases a with
  | trade o w f q p =>
    -- a trade moves quantity from what works to what is filled
    obtain ⟨hw, -, hle, -⟩ := hg
    have hcanceled : (b.apply (.trade o w f q p)).canceledSize id = b.canceledSize id := by
      rw [canceledSize, trade_canceled, canceledSize]
    rw [hsince, hcanceled, ← hsum]
    by_cases hid : w.clientOrderId = id
    · -- what is filled is taken off what works
      subst hid
      have hsize : (b.apply (.trade o w f q p)).sizeOf w.clientOrderId + q.toNat =
          b.sizeOf w.clientOrderId := by
        have hsub := UInt64.toNat_sub_of_le _ _ hle
        have hle := UInt64.le_iff_toNat_le.mp hle
        rw [sizeOf_of_working hw, sizeOf, trade_working, if_pos rfl]
        split
        · next heq => simp [heq]
        · simp only [Option.elim_some, reduced]
          omega
      simp only [Act.filled, if_true]
      omega
    · have hsize : (b.apply (.trade o w f q p)).sizeOf id = b.sizeOf id := by
        rw [sizeOf, trade_working, if_neg (Ne.symm hid), sizeOf]
      simp only [Act.filled, hid, if_false, hsize, Nat.add_zero]
  | rest o =>
    -- the order of the action is another one
    have hid : id ≠ o.clientOrderId := fun heq => ha (congrArg some heq.symm)
    have hsize : (b.apply (.rest o)).sizeOf id = b.sizeOf id := by
      simp only [sizeOf, Ledger.apply, Function.update_of_ne hid]
    rw [hsince, hsize]
    exact hsum
  | archive o =>
    have hid : id ≠ o.clientOrderId := fun heq => ha (congrArg some heq.symm)
    have hcanceled : (b.apply (.archive o)).canceledSize id = b.canceledSize id := by
      simp only [canceledSize, Ledger.apply, Function.update_of_ne hid]
    rw [hsince, hcanceled]
    exact hsum
  | cancel w =>
    have hw : b.working w.clientOrderId = some w := hg
    rw [hsince, ← hsum]
    by_cases hid : id = w.clientOrderId
    · -- what worked is cancelled
      subst hid
      have hsize : (b.apply (.cancel w)).sizeOf w.clientOrderId = 0 := by
        simp [sizeOf, Ledger.apply, remove_working]
      have hcanceled : (b.apply (.cancel w)).canceledSize w.clientOrderId = w.quantity.toNat := by
        simp [canceledSize, Ledger.apply]
      -- it was not cancelled before, as it worked
      have hnone : b.canceledSize w.clientOrderId = 0 := by
        rw [canceledSize, hb.disjoint hw]
        rfl
      rw [hsize, hcanceled, hnone, sizeOf_of_working hw]
      simp only [Act.filled]
      omega
    · have hsize : (b.apply (.cancel w)).sizeOf id = b.sizeOf id := by
        simp only [sizeOf, Ledger.apply, remove_working, if_neg hid]
      have hcanceled : (b.apply (.cancel w)).canceledSize id = b.canceledSize id := by
        simp only [canceledSize, Ledger.apply, Function.update_of_ne hid]
      rw [hsize, hcanceled]
      rfl
  | withdraw w =>
    have hid : id ≠ w.clientOrderId := fun heq => ha (congrArg some heq.symm)
    have hsize : (b.apply (.withdraw w)).sizeOf id = b.sizeOf id := by
      simp only [sizeOf, Ledger.apply, remove_working, if_neg hid]
    rw [hsince, hsize]
    exact hsum

/-- An order that came in with all rounds of its matching is conserved from there on. -/
theorem Conserved.arrived {b b' : Ledger} {o : Order} {rounds : List Round}
    {remainder : OrderSize} {isDelete : Bool} (h : Arrived b b' o rounds remainder isDelete)
    (hnew : ∃ new, b'.fills = b.fills ++ new)
    (htotal : (rounds.map (·.quantity.toNat)).sum + remainder.toNat = o.quantity.toNat) :
    b'.Conserved b.fills.length o.clientOrderId o.quantity.toNat := by
  obtain ⟨all, hall⟩ := hnew
  obtain ⟨new, hfills, -, hquantity⟩ := h.fills
  refine ⟨by rw [hall, List.length_append]; exact Nat.le_add_right _ _, ?_⟩
  -- the fills since are those of the rounds
  have hsince : b'.filledSince b.fills.length o.clientOrderId =
      (rounds.map (·.quantity.toNat)).sum := by
    rw [fillsOf, hall, List.filter_append] at hfills
    have hown : all.filter (·.clientOrderId == o.clientOrderId) = new :=
      List.append_cancel_left hfills
    have hnat : new.map (·.fillQuantity.toNat) = rounds.map (·.quantity.toNat) := by
      have := congrArg (List.map UInt64.toNat) hquantity
      rwa [List.map_map, List.map_map] at this
    rw [filledSince, hall, List.drop_left, hown, hnat]
  rw [hsince, sizeOf, canceledSize, h.working, h.canceled, ← htotal]
  -- what is left works or is cancelled, unless nothing is left
  by_cases h0 : remainder = 0
  · simp [h0]
  · cases isDelete <;> simp [h0, remainderOf]

end Ledger

namespace TradeOrderBox

/-- The quantity recorded as filled for an id after the first `n` fills of the box. -/
def filledSince (b : TradeOrderBox) (n : Nat) (id : String) : Nat :=
  (((b.filledOrders.drop n).filter (·.clientOrderId == id)).map (·.fillQuantity.toNat)).sum

/-- The quantity of the order that a map has under an id. -/
def quantityIn (b : TradeOrderBox) (orders : Std.TreeMap String Cxx.Ptr) (id : String) : Nat :=
  (orders[id]?.bind b.heap.cells).elim 0 (·.quantity.toNat)

end TradeOrderBox

namespace TradeSimulater

/-- An `Add` or a `Change`, which bring a quantity with them. -/
def Request.isEntry : Request → Bool
  | .delete _ => false
  | _ => true

/-- A request that is not interrupted leaves the quantity it asks for conserved. -/
theorem Plan.conserved {b : Ledger} (hb : b.WF) {n : UInt32} {p : Order} {r : Request}
    {acts : List Act} (h : Plan b n p r acts) (hentry : r.isEntry = true) :
    (Ledger.machine.exec b acts).Conserved b.fills.length p.clientOrderId p.quantity.toNat := by
  cases h with
  | add hw hc hf ho hq hcontract hm =>
    exact .arrived (hm.arrived_of_isPrefix hw hc n List.prefix_rfl _) ⟨_, Ledger.exec_fills _ _⟩
      hm.total
  | @change o w _ _ _ hw ho hq hcontract hm =>
    have hwid := (hb.working hw).id
    exact .arrived (b := b.remove w) (hm.arrived_of_isPrefix
      (by rw [Ledger.remove_working, if_pos hwid.symm])
      (by rw [Ledger.remove_canceled]; exact hb.disjoint hw) n List.prefix_rfl _)
      ⟨_, Ledger.exec_fills _ _⟩ hm.total
  | delete hw => exact nomatch hentry

/-- A request that brings no new quantity for an id conserves that of the id. -/
theorem conserved_step {s : TradeSimulater} (hs : s.WF) {r : Request} {c id : String}
    (hno : r.isEntry = true → r.order.contract = c → r.order.clientOrderId = id → ¬ s.Accepts r)
    {b b' : TradeOrderBox} (hb : s.box c = some b) (hb' : (s.step r).box c = some b')
    {n Q : Nat} (h : b.ledger.Conserved n id Q) : b'.ledger.Conserved n id Q := by
  have hwf := (hs.box hb).1
  cases box_cases hs r hb hb' with
  | kept _ heq => rw [heq]; exact h
  | served hyes hc acts done hplan hdone hledger hend =>
    have hruns := (hplan.runs hwf.ledger).of_isPrefix hdone
    -- no action brings the order in anew
    have hne : ∀ a ∈ done, a.incoming ≠ some id := by
      by_cases hid : id = (s.pendingOf r).clientOrderId
      · cases hplan with
        | add => exact absurd hyes (hno rfl hc hid.symm)
        | change => exact absurd hyes (hno rfl hc hid.symm)
        | delete hw =>
          intro a ha
          have := List.mem_singleton.mp (hdone.subset ha)
          subst this
          -- a deletion brings no order in
          exact fun h => nomatch h
      · exact fun a ha => hplan.incoming hwf.ledger hid a (hdone.subset ha)
    rw [hledger]
    exact (hruns.invariant_of_forall (I := fun b => b.WF ∧ b.Conserved n id Q)
      (fun _ _ hI hg ha => ⟨hI.1.apply hg, hI.2.apply hI.1 hg ha⟩) hne ⟨hwf.ledger, h⟩).2

/-- The quantity stays conserved until a request brings a new one. -/
theorem conserved_run {s : TradeSimulater} (hs : s.WF) {rs : List Request} {c id : String}
    (hno : ∀ pre r post, rs = pre ++ r :: post → r.isEntry = true → r.order.contract = c →
      r.order.clientOrderId = id → ¬ (s.run pre).Accepts r)
    {b b' : TradeOrderBox} (hb : s.box c = some b) (hb' : (s.run rs).box c = some b')
    {n Q : Nat} (h : b.ledger.Conserved n id Q) : b'.ledger.Conserved n id Q := by
  induction rs generalizing s b with
  | nil =>
    rw [run_nil, hb] at hb'
    cases hb'
    exact h
  | cons r rs ih =>
    have hsome : ((s.step r).box c).isSome := by rw [box_isSome_step hs, hb]; rfl
    obtain ⟨b₁, hb₁⟩ := Option.isSome_iff_exists.mp hsome
    refine ih (hs.step r) (fun pre r' post heq => ?_) hb₁ hb'
      (conserved_step hs (hno [] r rs rfl) hb hb₁ h)
    exact hno (r :: pre) r' post (by rw [heq]; rfl)

/-- For every accepted `Add` or `Change` that no later one for the same id follows, what
    was filled since, what works and what is cancelled add up to its quantity. -/
def Conserves (s : TradeSimulater) (rs : List Request) : Prop :=
  ∀ pre r post b₀ b, rs = pre ++ r :: post → r.isEntry = true → (s.run pre).Accepts r →
    (∀ pre' r' post', post = pre' ++ r' :: post' → r'.isEntry = true →
      r'.order.contract = r.order.contract → r'.order.clientOrderId = r.order.clientOrderId →
      ¬ (s.run (pre ++ r :: pre')).Accepts r') →
    (s.run pre).box r.order.contract = some b₀ → (s.run rs).box r.order.contract = some b →
    b.filledSince b₀.filledOrders.length r.order.clientOrderId +
      b.quantityIn b.workingOrders r.order.clientOrderId +
      b.quantityIn b.canceledOrders r.order.clientOrderId = r.order.quantity.toNat

/-- While the published books agree no request is interrupted. -/
theorem Agrees.conserves {s : TradeSimulater} (hs : s.WF) {rs : List Request}
    (h : ∀ pre, pre <+: rs → (s.run pre).Agrees) : s.Conserves rs := by
  intro pre r post b₀ b hrs hentry hyes hlast hb₀ hb
  have hwf := hs.run pre
  have hstep : (s.run (pre ++ [r])).WF := hs.run _
  rw [hrs, run_append, run_cons] at hb
  have hsome : (((s.run pre).step r).box r.order.contract).isSome := by
    rw [box_isSome_step hwf, hb₀]; rfl
  obtain ⟨b₁, hb₁⟩ := Option.isSome_iff_exists.mp hsome
  -- the request leaves the whole quantity filled, working or cancelled
  have hafter : b₁.ledger.Conserved b₀.filledOrders.length r.order.clientOrderId
      r.order.quantity.toNat := by
    cases box_cases hwf r hb₀ hb₁ with
    | kept hno _ => exact absurd ⟨hyes, rfl⟩ hno
    | served _ _ acts done hplan hdone hledger hend =>
      rcases hend with rfl | ⟨e, s', herr⟩
      · rw [hledger]
        have := hplan.conserved (hwf.box hb₀).1.ledger hentry
        rwa [pendingOf_clientOrderId, pendingOf_quantity] at this
      · -- an exception would come from the check, which the order has passed
        have hcheck := ((h pre ⟨r :: post, hrs.symm⟩).error_of_handle hwf herr).1
        have hok : checkOrder (s.run pre).contractAssist r.order = .ok "" := by
          cases r with
          | add o => exact hyes.1
          | change o => exact hyes.1
          | delete o => exact nomatch hentry
        rw [hok] at hcheck
        exact nomatch hcheck
  refine (conserved_run (hwf.step r) (fun pre' r' post' heq he hc hid => ?_) hb₁ hb hafter).sum
  have := hlast pre' r' post' heq he hc hid
  rwa [run_append] at this

end TradeSimulater

/-! ## Both sides of a trade -/

/-- The two fills of a trade, and how it is published. -/
structure Deal where
  incoming : Fill
  working : Fill
  trade : Dms.Trade

/-- The fills of a deal. -/
def Deal.fills (d : Deal) : List Fill := [d.incoming, d.working]

/-- A fill is of the size and price of a published trade, for its contract. -/
structure OfTrade (t : Dms.Trade) (f : Fill) : Prop where
  contract : f.contract = t.contract
  quantity : f.fillQuantity = t.last.size
  price : f.fillPrice = t.last.price.toString

/-- One party buys and the other sells, by the same fill id, what is published. -/
structure Deal.Fair (d : Deal) : Prop where
  sides : d.incoming.buySell = .buy ∧ d.working.buySell = .sell ∨
    d.incoming.buySell = .sell ∧ d.working.buySell = .buy
  fillId : d.working.fillId = d.incoming.fillId
  incoming : OfTrade d.trade d.incoming
  working : OfTrade d.trade d.working

/-- The deals of an action. -/
def Act.deals : Act → List Deal
  | .trade o w fillId q p => [⟨fillOf o fillId q p, fillOf w fillId q p,
      { contract := o.contract, last := ⟨toRealPrice p, q⟩ }⟩]
  | _ => []

/-- The fills of actions are those of their deals. -/
theorem Act.flatMap_fills (as : List Act) :
    as.flatMap Act.fills = (as.flatMap Act.deals).flatMap Deal.fills := by
  rw [List.flatMap_assoc]
  congr 1
  funext a
  cases a <;> rfl

/-- The trades of actions are those of their deals. -/
theorem Act.flatMap_trades (as : List Act) :
    as.flatMap Act.trades = (as.flatMap Act.deals).map (·.trade) := by
  rw [List.map_flatMap]
  congr 1
  funext a
  cases a <;> rfl

/-- Orders whose prices trade with each other are of opposite sides. -/
private theorem sides_of_crosses {o w : Order} (ho : Sound o) (hw : Sound w)
    (h : ComparablePrice.Crosses (priceOf o) (priceOf w)) :
    o.buySell = .buy ∧ w.buySell = .sell ∨ o.buySell = .sell ∧ w.buySell = .buy := by
  have hne := h.1
  rw [ho.isBuy, hw.isBuy] at hne
  have hso := ho.side
  have hsw := hw.side
  cases ho' : o.buySell <;> cases hw' : w.buySell <;> simp_all

/-- The rounds of a run are fair deals. -/
theorem Ledger.deals_of_runs {b : Ledger} (hb : b.WF) {as : List Act}
    (h : Ledger.machine.Runs b as) :
    ∀ d ∈ as.flatMap Act.deals, d.Fair ∧ d.trade.contract = b.contract := by
  induction as generalizing b with
  | nil => exact fun d hd => absurd hd List.not_mem_nil
  | cons a as ih =>
    intro d hd
    rw [List.flatMap_cons, List.mem_append] at hd
    rcases hd with hd | hd
    · cases a with
      | trade o w n q p =>
        -- the guard of a trade makes it fair
        obtain ⟨hw, -, -, hcross, ho, hc⟩ := h.1
        have hlive := hb.working hw
        simp only [Act.deals, List.mem_singleton] at hd
        subst hd
        exact ⟨⟨sides_of_crosses ho hlive.toSound hcross, rfl, ⟨rfl, rfl, rfl⟩,
          ⟨hlive.contract.trans hc.symm, rfl, rfl⟩⟩, hc⟩
      | _ => exact absurd hd List.not_mem_nil
    · -- the later deals are of the same contract
      have := ih (hb.apply h.1) h.2 d hd
      rwa [apply_contract] at this

/-- The deals of the rounds of an order are numbered one after the other. -/
private theorem deals_trades (o : Order) (k : Nat) (rounds : List Round) :
    ((trades o (.ofNat k) rounds).flatMap Act.deals).map (·.incoming.fillId) =
      (List.range' (k + 1) rounds.length).map (countedText "Fill-") := by
  induction rounds generalizing k with
  | nil => rfl
  | cons r rounds ih =>
    have hk : UInt32.ofNat k + 1 = .ofNat (k + 1) := (UInt32.ofNat_add k 1).symm
    rw [trades, hk, List.flatMap_cons, List.map_append, ih, List.length_cons, List.range'_succ,
      List.map_cons]
    rfl

/-- What becomes of the rest is no deal. -/
private theorem deals_leftover (o : Order) (remainder : OrderSize) (isDelete : Bool) :
    (leftover o remainder isDelete).flatMap Act.deals = [] := by
  unfold leftover
  split
  · rfl
  · split <;> rfl

namespace TradeSimulater

/-- The deals of a request are numbered from the counter on, also if it is interrupted. -/
theorem Plan.deals {b : Ledger} {k : Nat} {p : Order} {r : Request} {acts done : List Act}
    (h : Plan b (.ofNat k) p r acts) (hdone : done <+: acts) :
    (done.flatMap Act.deals).map (·.incoming.fillId) =
      (List.range' (k + 1) (done.flatMap Act.deals).length).map (countedText "Fill-") := by
  -- the loop counts on from `k`, also where an exception cut it short
  have hmatched : ∀ {rounds : List Round} {remainder isDelete done},
      done <+: trades p (.ofNat k) rounds ++ leftover p remainder isDelete →
      (done.flatMap Act.deals).map (·.incoming.fillId) =
        (List.range' (k + 1) (done.flatMap Act.deals).length).map (countedText "Fill-") := by
    intro rounds remainder isDelete done hdone
    obtain ⟨rounds', remainder', -, rfl, -⟩ := prefix_matched hdone
    rw [List.flatMap_append, deals_leftover, List.append_nil]
    have hlen := congrArg List.length (deals_trades p k rounds')
    rw [List.length_map, List.length_map, List.length_range'] at hlen
    rw [hlen]
    exact deals_trades p k rounds'
  cases h with
  | add => exact hmatched hdone
  | change =>
    rcases List.prefix_cons_iff.mp hdone with rfl | ⟨done', rfl, hdone'⟩
    · rfl
    · -- withdrawing the old order is no deal
      have := hmatched hdone'
      exact this
  | delete =>
    rcases List.prefix_cons_iff.mp hdone with rfl | ⟨done', rfl, hdone'⟩
    · rfl
    · rw [List.prefix_nil.mp hdone']
      rfl

/-- All that was sent is made of these deals, numbered one after the other. -/
structure Dealt (s : TradeSimulater) (ds : List Deal) : Prop where
  fair : ∀ d ∈ ds, d.Fair
  fills : s.sentFills = ds.flatMap Deal.fills
  trades : s.sentTrades = ds.map (·.trade)
  fillIds : ds.map (·.incoming.fillId) = (List.range' 1 ds.length).map (countedText "Fill-")
  counter : s.fillId = .ofNat ds.length
  box : ∀ d ∈ ds, (s.box d.trade.contract).isSome

/-- A request adds its deals. -/
theorem Dealt.step {s : TradeSimulater} {ds : List Deal} (h : s.Dealt ds) (hs : s.WF)
    (r : Request) : ∃ ds', (s.step r).Dealt (ds ++ ds') := by
  cases step_cases hs r with
  | refused hno es hes heq =>
    refine ⟨[], ?_⟩
    rw [List.append_nil, heq]
    -- a refused request deals nothing
    refine { h with fills := ?_, trades := ?_ }
    · rw [sentFills_sent, hes.1, List.append_nil, h.fills]
    · rw [sentTrades_sent, hes.2, List.append_nil, h.trades]
  | served hyes b acts done shown hb hplan hdone hreach hend =>
    have hwf := (hs.box hb).1.ledger
    have hnew := Ledger.deals_of_runs hwf ((hplan.runs hwf).of_isPrefix hdone)
    rw [h.counter] at hplan
    -- the new fill ids follow the old ones
    have hids := hplan.deals hdone
    have hlen : (done.flatMap Act.trades).length = (done.flatMap Act.deals).length := by
      rw [Act.flatMap_trades, List.length_map]
    refine ⟨done.flatMap Act.deals, ⟨fun d hd => ?_, ?_, ?_, ?_, ?_, fun d hd => ?_⟩⟩
    · exact (List.mem_append.mp hd).elim (h.fair d) fun hd => (hnew d hd).1
    · rw [hreach.fills, List.flatMap_append, ← h.fills, Act.flatMap_fills]
      simp only [sentFills, events_accepted]
    · rw [hreach.trades, List.map_append, ← h.trades, Act.flatMap_trades]
      simp only [sentTrades, events_accepted]
    · rw [List.map_append, h.fillIds, hids, List.length_append, ← List.range'_append_1,
        List.map_append, Nat.add_comm]
    · rw [hreach.fillId, fillId_accepted, h.counter, hlen, ← UInt32.ofNat_add, List.length_append]
    · rw [box_isSome_step hs]
      rcases List.mem_append.mp hd with hd | hd
      · exact h.box d hd
      · rw [(hnew d hd).2, show b.ledger.contract = r.order.contract from (hs.box hb).2, hb]
        rfl

/-- Every run is described by its deals. -/
theorem Dealt.run {s : TradeSimulater} {ds : List Deal} (h : s.Dealt ds) (hs : s.WF)
    (rs : List Request) : ∃ ds', (s.run rs).Dealt (ds ++ ds') := by
  induction rs generalizing s ds with
  | nil => exact ⟨[], by rw [List.append_nil]; exact h⟩
  | cons r rs ih =>
    obtain ⟨ds₁, h₁⟩ := h.step hs r
    obtain ⟨ds₂, h₂⟩ := ih h₁ (hs.step r)
    exact ⟨ds₁ ++ ds₂, by rw [← List.append_assoc]; exact h₂⟩

/-- In the beginning there is no deal. -/
theorem Fresh.dealt {s : TradeSimulater} (hs : s.Fresh) : s.Dealt [] where
  fair d hd := absurd hd List.not_mem_nil
  fills := by simp [sentFills, hs.events]
  trades := by simp [sentTrades, hs.events]
  fillIds := rfl
  counter := hs.fillId
  box d hd := absurd hd List.not_mem_nil

/-- The fill ids drawn so far are those of the published trades, in this order. -/
def issued (s : TradeSimulater) : List String :=
  (List.range' 1 s.sentTrades.length).map (countedText "Fill-")

/-- Every issued fill id is that of one published trade, and of exactly two fills: a buy
    and a sell of the size and price of the trade, recorded for its contract. -/
def Pairs (s : TradeSimulater) : Prop :=
  s.fillId = .ofNat s.issued.length ∧
  (∀ c b, s.box c = some b → ∀ f ∈ b.filledOrders, f.fillId ∈ s.issued) ∧
  ∀ k (hk : k < s.sentTrades.length),
    (∃ b f g, s.box s.sentTrades[k].contract = some b ∧
      b.filledOrders.filter (·.fillId == countedText "Fill-" (1 + k)) = [f, g] ∧
      (f.buySell = .buy ∧ g.buySell = .sell ∨ f.buySell = .sell ∧ g.buySell = .buy) ∧
      OfTrade s.sentTrades[k] f ∧ OfTrade s.sentTrades[k] g) ∧
    ∀ c b, c ≠ s.sentTrades[k].contract → s.box c = some b →
      ∀ f ∈ b.filledOrders, f.fillId ≠ countedText "Fill-" (1 + k)

/-- Until the counter wraps around, a deal is found by its fill id. -/
private theorem Dealt.filter_fills {s : TradeSimulater} {ds : List Deal} (h : s.Dealt ds)
    (hfew : ds.length ≤ 2 ^ 32) {d : Deal} (hd : d ∈ ds) :
    s.sentFills.filter (·.fillId == d.incoming.fillId) = d.fills := by
  have hnd : (ds.map (·.incoming.fillId)).Nodup := by
    rw [h.fillIds]
    exact nodup_countedText "Fill-" 1 hfew
  rw [h.fills]
  refine List.filter_flatMap_key (·.incoming.fillId) Fill.fillId hnd (fun d hd f hf => ?_) hd
  simp only [Deal.fills, List.mem_cons, List.not_mem_nil, or_false] at hf
  rcases hf with rfl | rfl
  · rfl
  · exact (h.fair d hd).fillId

/-- The fills of fair deals come in pairs. -/
theorem Dealt.pairs {s : TradeSimulater} {ds : List Deal} (h : s.Dealt ds) (hsent : s.Sent)
    (hfew : s.sentTrades.length ≤ 2 ^ 32) : s.Pairs := by
  have hlen : s.sentTrades.length = ds.length := by rw [h.trades, List.length_map]
  have hids : s.issued = ds.map (·.incoming.fillId) := by rw [issued, hlen, h.fillIds]
  refine ⟨by rw [hids, List.length_map, h.counter], fun c b hb f hf => ?_, fun k hk => ?_⟩
  · rw [(hsent c b hb).1, h.fills] at hf
    obtain ⟨d, hd, hmem⟩ := List.mem_flatMap.mp (List.mem_of_mem_filter hf)
    rw [hids]
    refine List.mem_map.mpr ⟨d, hd, ?_⟩
    simp only [Deal.fills, List.mem_cons, List.not_mem_nil, or_false] at hmem
    rcases hmem with rfl | rfl
    · rfl
    · exact (h.fair d hd).fillId.symm
  · -- the k-th trade is that of the k-th deal
    have hk' : k < ds.length := hlen ▸ hk
    have htrade : s.sentTrades[k] = ds[k].trade := by simp only [h.trades, List.getElem_map]
    have hid : ds[k].incoming.fillId = countedText "Fill-" (1 + k) := by
      have hget := congrArg (·[k]?) h.fillIds
      simpa [hk'] using hget
    have hmem : ds[k] ∈ ds := List.getElem_mem hk'
    have hfair := h.fair _ hmem
    have hfilter := h.filter_fills (hlen ▸ hfew) hmem
    rw [hid] at hfilter
    -- what a box has recorded under this id is what the deal has of its contract
    have hbox : ∀ c b, s.box c = some b →
        b.filledOrders.filter (·.fillId == countedText "Fill-" (1 + k)) =
          ds[k].fills.filter (·.contract == c) := by
      intro c b hb
      rw [(hsent c b hb).1, List.filter_filter, ← hfilter, List.filter_filter]
      simp only [Bool.and_comm]
    have hc := hfair.incoming.contract
    have hc' := hfair.working.contract
    rw [htrade]
    refine ⟨?_, fun c b hne hb f hf heq => ?_⟩
    · obtain ⟨b, hb⟩ := Option.isSome_iff_exists.mp (h.box _ hmem)
      refine ⟨b, _, _, hb, ?_, hfair.sides, hfair.incoming, hfair.working⟩
      rw [hbox _ b hb]
      simp [Deal.fills, hc, hc']
    · have hin : f ∈ b.filledOrders.filter (·.fillId == countedText "Fill-" (1 + k)) :=
        List.mem_filter.mpr ⟨hf, by simpa using heq⟩
      rw [hbox c b hb] at hin
      simp [Deal.fills, hc, hc', Ne.symm hne] at hin

/-- When the counter has wrapped around, the first fill id is that of two trades: of four fills of one
    contract, or of fills of two contracts. -/
theorem Dealt.length_le_of_pairs {s : TradeSimulater} {ds : List Deal} (h : s.Dealt ds)
    (hsent : s.Sent) (hpairs : s.Pairs) : s.sentTrades.length ≤ 2 ^ 32 := by
  have hlen : s.sentTrades.length = ds.length := by rw [h.trades, List.length_map]
  by_contra hmany
  have hfirst : 0 < ds.length := by omega
  have hlast : 2 ^ 32 < ds.length := by omega
  have hid {k : Nat} (hk : k < ds.length) :
      ds[k].incoming.fillId = countedText "Fill-" (1 + k) := by
    have hget := congrArg (·[k]?) h.fillIds
    simpa [hk] using hget
  -- the counter has 32 bits, so that the ids of these two deals are equal
  have hsame : ds[2 ^ 32].incoming.fillId = countedText "Fill-" (1 + 0) :=
    (hid hlast).trans (countedText_add "Fill-" 1)
  have hsome : 0 < s.sentTrades.length := hlen ▸ hfirst
  have htrade : s.sentTrades[0].contract = ds[0].trade.contract := by
    simp only [h.trades, List.getElem_map]
  obtain ⟨hbox, hother⟩ := hpairs.2.2 0 hsome
  rw [htrade] at hbox hother
  have hmem : ds[2 ^ 32] ∈ ds := List.getElem_mem hlast
  -- both deals are there, in this order
  have hboth : [ds[0], ds[2 ^ 32]].Sublist ds := by
    simpa using @List.map_getElem_sublist _ ds [⟨0, hfirst⟩, ⟨2 ^ 32, hlast⟩] (by simp)
  have hfair₀ := h.fair _ (List.getElem_mem hfirst)
  have hid₀ := hid hfirst
  generalize ds[0] = d₀ at *
  generalize ds[2 ^ 32] = d at *
  have hfair := h.fair _ hmem
  by_cases hc : d.trade.contract = d₀.trade.contract
  · -- both trades are of the contract whose box has two fills of this id
    obtain ⟨b, f, g, hb, hfills, -⟩ := hbox
    have hsub := ((hboth.flatMap Deal.fills).filter (·.contract == d₀.trade.contract)).filter
      (·.fillId == countedText "Fill-" (1 + 0))
    rw [← h.fills, ← (hsent _ b hb).1, hfills] at hsub
    have hle := hsub.length_le
    simp [Deal.fills, hfair.incoming.contract, hfair.working.contract, hc, hfair.fillId, hsame,
      hfair₀.incoming.contract, hfair₀.working.contract, hfair₀.fillId, hid₀] at hle
  · -- the box of the other contract has a fill of this id
    obtain ⟨b, hb⟩ := Option.isSome_iff_exists.mp (h.box _ hmem)
    refine hother _ b hc hb d.incoming ?_ hsame
    rw [(hsent _ b hb).1, h.fills, List.mem_filter, List.mem_flatMap]
    exact ⟨⟨_, hmem, List.mem_cons_self⟩, by simpa using hfair.incoming.contract⟩

/-- In every run the fills come in pairs exactly until the counter wraps around. -/
theorem pairs_iff (clock : Nat → Ems.Timestamp) (contracts : List TradeContract)
    (rs : List Request) :
    ((started clock contracts).run rs).Pairs ↔
      ((started clock contracts).run rs).sentTrades.length ≤ 2 ^ 32 := by
  have hs := WF.started clock contracts
  have hfresh := Fresh.started clock contracts
  obtain ⟨ds, hds⟩ := hfresh.dealt.run hs rs
  have hsent := hfresh.sent.run hs rs
  exact ⟨hds.length_le_of_pairs hsent, hds.pairs hsent⟩

/-- For every sequence of requests: the quantity of every order is conserved if after
    every part of the sequence the quantities at the limit prices fit 64 bits, and fills
    come in pairs if the 32 bit counter of fill ids has not wrapped around. -/
theorem quantity_conserved (clock : Nat → Ems.Timestamp) (contracts : List TradeContract)
    (rs : List Request) :
    ((∀ pre, pre <+: rs → ((started clock contracts).run pre).Fits) →
      (started clock contracts).Conserves rs) ∧
    (((started clock contracts).run rs).sentTrades.length ≤ 2 ^ 32 →
      ((started clock contracts).run rs).Pairs) := by
  have hs := WF.started clock contracts
  have hfresh := Fresh.started clock contracts
  refine ⟨fun hfits => Agrees.conserves hs fun pre hpre => ?_, (pairs_iff clock contracts rs).mpr⟩
  exact agrees_run hs hfresh.agrees pre fun pre' hpre' => hfits pre' (hpre'.trans hpre)

/-- Three sell orders whose quantities at their price wrap around to one, and two buy
    orders: the second finds nothing left in the published book. -/
def overflowingRequests : List Request :=
  [.add (limitOrder "s1" .sell "1" (2 ^ 63)), .add (limitOrder "s2" .sell "1" (2 ^ 63)),
   .add (limitOrder "s3" .sell "1" 1), .add (limitOrder "x" .buy "1" 1),
   .add (limitOrder "y" .buy "1" (2 ^ 63))]

/-- The exception in its first round loses the rest of the second buy order. -/
theorem quantity_lost_by_overflow :
    ¬ (started (fun _ => {}) sampleContracts).Conserves overflowingRequests := by
  have heval : ((sampleRun overflowingRequests).box "A").map (fun b =>
      (b.filledSince 2 "y", b.quantityIn b.workingOrders "y", b.quantityIn b.canceledOrders "y")) =
        some (2 ^ 63 - 1, 0, 0) := by
    decide +kernel
  have hbefore : ((sampleRun (overflowingRequests.take 4)).box "A").map
      (·.filledOrders.length) = some 2 := by
    decide +kernel
  have hyes : (sampleRun (overflowingRequests.take 4)).Accepts
      (.add (limitOrder "y" .buy "1" (2 ^ 63))) := by
    decide +kernel
  obtain ⟨b, hb, hv⟩ := Option.map_eq_some_iff.mp heval
  obtain ⟨b₀, hb₀, hlen⟩ := Option.map_eq_some_iff.mp hbefore
  simp only [Prod.mk.injEq] at hv
  intro h
  -- the order asked for 2^63, of which 2^63 - 1 are found again
  have hsum := h (overflowingRequests.take 4) (.add (limitOrder "y" .buy "1" (2 ^ 63))) [] b₀ b rfl
    rfl hyes (fun pre' r' post' heq => by simp at heq) hb₀ hb
  have hasked : (Request.add (limitOrder "y" .buy "1" (2 ^ 63))).order.quantity.toNat = 2 ^ 63 := by
    decide +kernel
  rw [hasked] at hsum
  simp only [Request.order, limitOrder] at hsum
  rw [hlen, hv.1, hv.2.1, hv.2.2] at hsum
  exact absurd hsum (by decide)

/-- After a sell order for five and a buy order for three, the five are three filled and
    two working, and the one fill id is that of a buy and a sell. -/
theorem quantity_conserved_after_partial_fill :
    ∃ b f g, (sampleRun [.add (limitOrder "1" .sell "1" 5),
        .add (limitOrder "2" .buy "1" 3)]).box "A" = some b ∧
      b.filledSince 0 "1" + b.quantityIn b.workingOrders "1" +
        b.quantityIn b.canceledOrders "1" = 5 ∧
      b.filledOrders.filter (·.fillId == "Fill-1") = [f, g] ∧ f.fillQuantity = g.fillQuantity ∧
      f.buySell ≠ g.buySell := by
  have hfits := fits_of_requests (fun _ => {}) sampleContracts
    [.add (limitOrder "1" .sell "1" 5), .add (limitOrder "2" .buy "1" 3)] (by decide)
  have htrades : (sampleRun [.add (limitOrder "1" .sell "1" 5),
      .add (limitOrder "2" .buy "1" 3)]).sentTrades.map (·.contract) = ["A"] := by
    decide +kernel
  have hlen := congrArg List.length htrades
  rw [List.length_map] at hlen
  have hfew : (sampleRun [.add (limitOrder "1" .sell "1" 5),
      .add (limitOrder "2" .buy "1" 3)]).sentTrades.length ≤ 2 ^ 32 := by
    rw [hlen]; decide
  have hspec := quantity_conserved (fun _ => {}) sampleContracts
    [.add (limitOrder "1" .sell "1" 5), .add (limitOrder "2" .buy "1" 3)]
  have hsum := hspec.1 hfits
  obtain ⟨-, -, hpair⟩ := hspec.2 hfew
  have hpos : 0 < (sampleRun [.add (limitOrder "1" .sell "1" 5),
      .add (limitOrder "2" .buy "1" 3)]).sentTrades.length := by
    rw [hlen]; decide
  obtain ⟨⟨b, f, g, hb, hfg, hsides, hf, hg⟩, -⟩ := hpair 0 hpos
  have hcontract : (sampleRun [.add (limitOrder "1" .sell "1" 5),
      .add (limitOrder "2" .buy "1" 3)]).sentTrades[0].contract = "A" := by
    have := List.getElem_map (·.contract) (l := (sampleRun [.add (limitOrder "1" .sell "1" 5),
      .add (limitOrder "2" .buy "1" 3)]).sentTrades) (i := 0) (h := by simpa using hpos)
    rw [← this]
    simp only [htrades, List.getElem_cons_zero]
  have hb : (sampleRun [.add (limitOrder "1" .sell "1" 5),
      .add (limitOrder "2" .buy "1" 3)]).box "A" = some b := hcontract ▸ hb
  have hbefore : ((started (fun _ => {}) sampleContracts).box "A").map
      (·.filledOrders.length) = some 0 := by
    decide +kernel
  obtain ⟨b₀, hb₀, hzero⟩ := Option.map_eq_some_iff.mp hbefore
  refine ⟨b, f, g, hb, ?_, hfg, hf.quantity.trans hg.quantity.symm, ?_⟩
  · have hyes : (started (fun _ => {}) sampleContracts).Accepts
        (.add (limitOrder "1" .sell "1" 5)) := by
      decide +kernel
    have := hsum [] (.add (limitOrder "1" .sell "1" 5)) [.add (limitOrder "2" .buy "1" 3)] b₀ b rfl
      rfl hyes (fun pre' r' post' heq _ _ hid => ?_) hb₀ hb
    · rw [hzero] at this
      exact this
    · -- the other order has another id
      have hmem : r' ∈ [Request.add (limitOrder "2" .buy "1" 3)] := by rw [heq]; simp
      rw [List.mem_singleton.mp hmem] at hid
      exact absurd hid (by decide)
  · rcases hsides with ⟨h1, h2⟩ | ⟨h1, h2⟩ <;> rw [h1, h2] <;> decide

end TradeSimulater

end FixHandler.Trade
