import Mathlib
import FixHandler.ForStd.TreeMap
import FixHandler.Native.Cme.BookStateController

/-!
# What an entry does to the rows of a book

Each side of a book is a list of rows. `Book.applyTo` says what an entry makes of
the rows of its side; the controller computes it with checks, padding and
truncation in separate places, and with positions that have to be in range.

## Key results

- `updatePrice_eq`: the controller applies an entry, and no access is out of range
- `modifyState_semantics`: the statement for every run of the controller
-/

namespace FixHandler.Cme

open Cxx (OutOfRange)

/-! ## The rows after an entry -/

/-- The change that an entry asks for: a recovery book is always new. -/
def Book.action (b : Book) : MDUpdateAction :=
  if b.type = 'W' then .new else b.mDUpdateAction

/-- A row at position `level`, the first being 1, with blank rows up to it if there are
    too few, and no more than `depth` rows afterwards. -/
def insertRow (depth level : Nat) (price : BookPrice) (rows : List BookPrice) : List BookPrice :=
  ((rows ++ List.replicate (level - 1 - rows.length) BookPrice.blank).insertIdx (level - 1) price).take depth

/-- What an entry makes of the rows of its side; `none` if it is rejected. -/
def Book.applyTo (b : Book) (depth : Nat) (rows : List BookPrice) : Option (List BookPrice) :=
  let level := b.mDPriceLevel.toNat
  match b.action with
  | .new => if 0 < level ∧ level ≤ depth then some (insertRow depth level b.price rows) else none
  | .change =>
    if 0 < level ∧ level ≤ depth ∧ level ≤ rows.length then some (rows.set (level - 1) b.price)
    else none
  | .delete =>
    if 0 < level ∧ level ≤ depth ∧ level ≤ rows.length then some (rows.eraseIdx (level - 1))
    else none
  | .deleteThru => some []
  | .deleteFrom =>
    if 0 < level ∧ level ≤ depth then some (rows.drop (min level rows.length)) else none
  | _ => none

/-- No entry makes a side deeper than the book. -/
theorem Book.length_applyTo {b : Book} {depth : Nat} {rows rows' : List BookPrice}
    (hrows : rows.length ≤ depth) (h : b.applyTo depth rows = some rows') :
    rows'.length ≤ depth := by
  unfold applyTo at h
  cases haction : b.action with
  | new =>
    simp only [haction] at h
    split at h
    · cases h
      -- an insertion is cut at the depth
      exact List.length_take_le _ _
    · exact nomatch h
  | change =>
    simp only [haction] at h
    split at h
    · cases h
      rwa [List.length_set]
    · exact nomatch h
  | delete =>
    simp only [haction] at h
    split at h
    · cases h
      exact Nat.le_trans (List.length_eraseIdx_le _ _) hrows
    · exact nomatch h
  | deleteThru =>
    simp only [haction] at h
    cases h
    exact Nat.zero_le _
  | deleteFrom =>
    simp only [haction] at h
    split at h
    · cases h
      rw [List.length_drop]
      omega
    · exact nomatch h
  | overlay => simp only [haction] at h; exact nomatch h
  | nullValue => simp only [haction] at h; exact nomatch h

namespace BookState

/-- The changed side has the new rows. -/
@[simp] theorem target_withTarget (s : BookState) (b : Book) (rows : List BookPrice) :
    (s.withTarget b rows).target b = rows := by
  unfold target withTarget
  split <;> rfl

/-- A change keeps the depth. -/
@[simp] theorem marketDepth_withTarget (s : BookState) (b : Book) (rows : List BookPrice) :
    (s.withTarget b rows).marketDepth = s.marketDepth := by
  unfold withTarget
  split <;> rfl

/-- No side is deeper than the book. -/
structure Fits (s : BookState) : Prop where
  bid : s.bid.length ≤ s.marketDepth.toNat
  ask : s.ask.length ≤ s.marketDepth.toNat

/-- Each side fits. -/
theorem Fits.target {s : BookState} (h : s.Fits) (b : Book) :
    (s.target b).length ≤ s.marketDepth.toNat := by
  unfold BookState.target
  split
  · exact h.bid
  · exact h.ask

/-- A side that fits may be put in. -/
theorem Fits.withTarget {s : BookState} (h : s.Fits) {b : Book} {rows : List BookPrice}
    (hrows : rows.length ≤ s.marketDepth.toNat) : (s.withTarget b rows).Fits := by
  unfold BookState.withTarget
  split
  · exact ⟨hrows, h.ask⟩
  · exact ⟨h.bid, hrows⟩

end BookState

namespace BookStateController

/-! ## The members that change a side -/

/-- Inserting a row at a level that was checked is in range, and so is the truncation. -/
private theorem newPrice_eq {b : Book} {s : BookState} (hlevel : 0 < b.mDPriceLevel.toNat) :
    newPrice b s = .ok (s.withTarget b
      (insertRow s.marketDepth.toNat b.mDPriceLevel.toNat b.price (s.target b))) := by
  have hpos : (b.mDPriceLevel.toNat : Int) - 1 = (b.mDPriceLevel.toNat - 1 : Nat) := by omega
  -- the rows are cut to the depth afterwards
  have htruncate : ∀ {rows : List BookPrice} {newSize : Nat}, newSize = rows.length →
      (if newSize > s.marketDepth.toNat then do
        let target ← Cxx.Deque.eraseRange rows s.marketDepth.toNat rows.length
        pure (s.withTarget b target)
      else pure (s.withTarget b rows)) =
        (.ok (s.withTarget b (rows.take s.marketDepth.toNat)) : Except OutOfRange BookState) := by
    intro rows newSize hsize
    split
    · rw [Cxx.Deque.eraseRange_eq (by omega) (Nat.le_refl _), List.drop_length, List.append_nil]
      rfl
    · rw [List.take_of_length_le (by omega)]
      rfl
  unfold newPrice insertRow
  -- the row is inserted, or blank rows are added first
  by_cases hsize : b.mDPriceLevel.toNat ≤ (s.target b).length + 1
  · have hlen : (s.target b).length + 1 =
        ((s.target b).insertIdx (b.mDPriceLevel.toNat - 1) b.price).length := by
      rw [List.length_insertIdx_of_le_length (by omega)]
    simp only [if_pos hsize, hpos, Cxx.Deque.insert_eq (q := s.target b) (by omega : b.mDPriceLevel.toNat - 1 ≤ _),
      Nat.sub_eq_zero_of_le (by omega : b.mDPriceLevel.toNat - 1 ≤ (s.target b).length),
      List.replicate_zero, List.append_nil]
    exact htruncate hlen
  · simp only [if_neg hsize]
    rw [Cxx.Deque.resize_of_le (by omega)]
    have hlen : b.mDPriceLevel.toNat - 1 = (s.target b ++ List.replicate
        (b.mDPriceLevel.toNat - 1 - (s.target b).length) BookPrice.blank).length := by
      rw [List.length_append, List.length_replicate]
      omega
    rw [Cxx.Deque.insert_eq (Nat.le_refl _), ← hlen]
    refine htruncate ?_
    rw [List.length_insertIdx_of_le_length (by omega), ← hlen]
    omega

/-- A change sets the row. -/
private theorem changePrice_eq {b : Book} {s : BookState} (hlevel : 0 < b.mDPriceLevel.toNat)
    (hlen : b.mDPriceLevel.toNat ≤ (s.target b).length) :
    changePrice b s =
      .ok (s.withTarget b ((s.target b).set (b.mDPriceLevel.toNat - 1) b.price)) := by
  have hpos : (b.mDPriceLevel.toNat : Int) - 1 = (b.mDPriceLevel.toNat - 1 : Nat) := by omega
  rw [changePrice, hpos, Cxx.Deque.set_eq (by omega)]
  rfl

/-- A deletion takes the row out. -/
private theorem deletePrice_eq {b : Book} {s : BookState} (hlevel : 0 < b.mDPriceLevel.toNat)
    (hlen : b.mDPriceLevel.toNat ≤ (s.target b).length) :
    deletePrice b s = .ok (s.withTarget b ((s.target b).eraseIdx (b.mDPriceLevel.toNat - 1))) := by
  have hpos : (b.mDPriceLevel.toNat : Int) - 1 = (b.mDPriceLevel.toNat - 1 : Nat) := by omega
  rw [deletePrice, hpos, Cxx.Deque.erase_eq (by omega)]
  rfl

/-- The top rows are taken out. -/
private theorem deleteTopPrice_eq (b : Book) (s : BookState) :
    deleteTopPrice b s = .ok (s.withTarget b
      ((s.target b).drop (min b.mDPriceLevel.toNat (s.target b).length))) := by
  have herase := Cxx.Deque.eraseRange_eq (q := s.target b) (Nat.zero_le _)
    (Nat.min_le_right b.mDPriceLevel.toNat (s.target b).length)
  show (do return s.withTarget b (← Cxx.Deque.eraseRange (s.target b) (0 : Nat)
    (min b.mDPriceLevel.toNat (s.target b).length : Nat))) = _
  rw [herase]
  rfl

/-- The check of a level. -/
private theorem checkPriceLevel_iff (b : Book) (s : BookState) (action : MDUpdateAction) :
    checkPriceLevel b s action = true ↔
      match action with
      | .new | .deleteFrom =>
        0 < b.mDPriceLevel.toNat ∧ b.mDPriceLevel.toNat ≤ s.marketDepth.toNat
      | .change | .delete =>
        0 < b.mDPriceLevel.toNat ∧ b.mDPriceLevel.toNat ≤ s.marketDepth.toNat ∧
          b.mDPriceLevel.toNat ≤ (s.target b).length
      | _ => True := by
  have hzero : b.mDPriceLevel = 0 ↔ b.mDPriceLevel.toNat = 0 := by
    rw [← UInt8.toNat_inj]
    rfl
  cases action <;>
    simp only [checkPriceLevel, gt_iff_lt, Bool.not_or, Bool.and_eq_true, Bool.not_eq_true',
      beq_eq_false_iff_ne, decide_eq_false_iff_not, ne_eq, hzero, UInt8.lt_iff_toNat_lt] <;>
    omega

/-- The controller applies an entry to its side, and no access is out of range. -/
theorem updatePrice_eq {b : Book} {s : BookState} (htype : b.type = 'W' ∨ b.type = 'X') :
    updatePrice b s =
      .ok ((b.applyTo s.marketDepth.toNat (s.target b)).map (s.withTarget b)) := by
  have hcheck := checkPriceLevel_iff b s
  rcases htype with hW | hX
  · -- an entry of a snapshot is put in like a new one
    have haction : b.action = .new := if_pos hW
    simp only [updatePrice, hW, beq_self_eq_true, if_true]
    by_cases hlevel : 0 < b.mDPriceLevel.toNat ∧ b.mDPriceLevel.toNat ≤ s.marketDepth.toNat
    · simp only [Book.applyTo, haction, (hcheck .new).mpr hlevel, newPrice_eq hlevel.1,
        if_pos hlevel]
      rfl
    · simp only [Book.applyTo, haction, if_neg hlevel,
        Bool.eq_false_iff.mpr fun h => hlevel ((hcheck .new).mp h)]
      rfl
  · -- an increment: one case for each action
    have hW : ¬ b.type = 'W' := by
      rw [hX]
      decide
    have haction : b.action = b.mDUpdateAction := if_neg hW
    have hbeq : (b.type == 'W') = false := beq_eq_false_iff_ne.mpr hW
    rw [updatePrice, if_neg (by rw [hbeq]; exact Bool.false_ne_true), if_pos (by rw [hX]; rfl)]
    have hcheck := hcheck b.mDUpdateAction
    cases haction' : b.mDUpdateAction with
    | new =>
      rw [haction'] at hcheck haction
      by_cases hlevel : 0 < b.mDPriceLevel.toNat ∧ b.mDPriceLevel.toNat ≤ s.marketDepth.toNat
      · simp only [Book.applyTo, haction, hcheck.mpr hlevel, newPrice_eq hlevel.1, if_pos hlevel]
        rfl
      · simp only [Book.applyTo, haction, if_neg hlevel,
          Bool.eq_false_iff.mpr fun h => hlevel (hcheck.mp h)]
        rfl
    | change =>
      rw [haction'] at hcheck haction
      by_cases hlevel : 0 < b.mDPriceLevel.toNat ∧
          b.mDPriceLevel.toNat ≤ s.marketDepth.toNat ∧ b.mDPriceLevel.toNat ≤ (s.target b).length
      · simp only [Book.applyTo, haction, hcheck.mpr hlevel, changePrice_eq hlevel.1 hlevel.2.2,
          if_pos hlevel]
        rfl
      · simp only [Book.applyTo, haction, if_neg hlevel,
          Bool.eq_false_iff.mpr fun h => hlevel (hcheck.mp h)]
        rfl
    | delete =>
      rw [haction'] at hcheck haction
      by_cases hlevel : 0 < b.mDPriceLevel.toNat ∧
          b.mDPriceLevel.toNat ≤ s.marketDepth.toNat ∧ b.mDPriceLevel.toNat ≤ (s.target b).length
      · simp only [Book.applyTo, haction, hcheck.mpr hlevel, deletePrice_eq hlevel.1 hlevel.2.2,
          if_pos hlevel]
        rfl
      · simp only [Book.applyTo, haction, if_neg hlevel,
          Bool.eq_false_iff.mpr fun h => hlevel (hcheck.mp h)]
        rfl
    | deleteThru =>
      rw [haction'] at haction
      simp only [Book.applyTo, haction, checkPriceLevel, deleteAllPrice]
      rfl
    | deleteFrom =>
      rw [haction'] at hcheck haction
      by_cases hlevel : 0 < b.mDPriceLevel.toNat ∧ b.mDPriceLevel.toNat ≤ s.marketDepth.toNat
      · simp only [Book.applyTo, haction, hcheck.mpr hlevel, deleteTopPrice_eq, if_pos hlevel]
        rfl
      · simp only [Book.applyTo, haction, if_neg hlevel,
          Bool.eq_false_iff.mpr fun h => hlevel (hcheck.mp h)]
        rfl
    | overlay =>
      -- the other actions are not applied
      rw [haction'] at haction
      simp only [Book.applyTo, haction, checkPriceLevel]
      rfl
    | nullValue =>
      rw [haction'] at haction
      simp only [Book.applyTo, haction, checkPriceLevel]
      rfl

/-- Entries of other types are ignored. -/
theorem updatePrice_of_other {b : Book} {s : BookState} (hW : b.type ≠ 'W') (hX : b.type ≠ 'X') :
    updatePrice b s = .ok none := by
  simp only [updatePrice, beq_eq_false_iff_ne.mpr hW, beq_eq_false_iff_ne.mpr hX]
  rfl

/-! ## The calls -/

/-- No side of any book is deeper than the book. -/
def Sound (c : BookStateController) : Prop :=
  ∀ (id : UInt32) (s : BookState), c.mdBookStates[id]? = some s → s.Fits

/-- In the beginning there are no books. -/
theorem Sound.initial : Sound {} := fun id s h => by
  rw [Std.TreeMap.getElem?_emptyc] at h
  exact nomatch h

/-- A book that fits may be put in. -/
private theorem Sound.insert {c : BookStateController} (h : c.Sound) {id : UInt32} {s : BookState}
    (hs : s.Fits) : Sound ⟨c.mdBookStates.insert id s⟩ := by
  intro id' s' hs'
  simp only [Std.TreeMap.getElem?_insert_if] at hs'
  split at hs'
  · cases hs'
    exact hs
  · exact h id' s' hs'

/-- Shrinking cuts off what is beyond the new depth. -/
theorem shrink_eq (s : BookState) (depth : UInt8) :
    shrink s depth = { s with
      marketDepth := depth
      bid := s.bid.take depth.toNat
      ask := s.ask.take depth.toNat } := by
  have hside : ∀ rows : List BookPrice, (if rows.length > depth.toNat then
      Cxx.Deque.resize rows depth.toNat .blank else rows) = rows.take depth.toNat := by
    intro rows
    split
    · exact Cxx.Deque.resize_of_ge (by omega) _
    · exact (List.take_of_length_le (by omega)).symm
  unfold shrink
  rw [← hside s.bid, ← hside s.ask]
  by_cases hbid : s.bid.length > depth.toNat <;> by_cases hask : s.ask.length > depth.toNat <;>
    simp only [hbid, hask, if_true, if_false]

/-- A definition cuts the sides to the new depth. -/
theorem Sound.createOrShrink {c : BookStateController} (h : c.Sound) (i : Instrument) :
    (c.createOrShrink i).Sound := by
  unfold BookStateController.createOrShrink
  split
  · intro id s hs
    simp only [Std.TreeMap.getElem?_erase_if] at hs
    split at hs
    · exact nomatch hs
    · exact h id s hs
  · split
    · exact h.insert ⟨Nat.zero_le _, Nat.zero_le _⟩
    · rw [shrink_eq]
      exact h.insert ⟨List.length_take_le _ _, List.length_take_le _ _⟩

/-- What a call does for an entry of a side. -/
theorem modifyState_of_side {c : BookStateController} {b : Book}
    (hside : b.mDEntryType = .bid ∨ b.mDEntryType = .offer) :
    c.modifyState b =
      match c.mdBookStates[b.securityID]? with
      | none => .ok (.noData, c)
      | some s => (updatePrice b s).bind fun
        | none => .ok (.bookState none, c)
        | some s => .ok (.bookState (some s), ⟨c.mdBookStates.insert b.securityID s⟩) := by
  unfold modifyState
  rcases hside with hside | hside <;> simp only [hside] <;> rfl

/-- A reset leaves no rows, whatever there was before it. -/
theorem sound_resetState (c : BookStateController) : c.resetState.Sound := by
  intro id s hs
  simp only [BookStateController.resetState, Std.TreeMap.getElem?_map] at hs
  obtain ⟨s', hs', rfl⟩ := Option.map_eq_some_iff.mp hs
  exact ⟨Nat.zero_le _, Nat.zero_le _⟩

/-- A changed book fits. -/
private theorem map_withTarget_fits {b : Book} {s s' : BookState} (hs : s.Fits)
    (h : (b.applyTo s.marketDepth.toNat (s.target b)).map (s.withTarget b) = some s') :
    s'.Fits := by
  obtain ⟨rows, hrows, rfl⟩ := Option.map_eq_some_iff.mp h
  exact hs.withTarget (Book.length_applyTo (hs.target b) hrows)

/-- No call accesses a row out of range, and every call keeps the depths. -/
theorem Sound.modifyState {c : BookStateController} (h : c.Sound) (b : Book) :
    ∃ r c', c.modifyState b = .ok (r, c') ∧ c'.Sound := by
  by_cases hreset : b.mDEntryType = .bookReset
  · exact ⟨.reset, c.resetState, by rw [BookStateController.modifyState, if_pos hreset]; rfl,
      sound_resetState c⟩
  by_cases hside : b.mDEntryType = .bid ∨ b.mDEntryType = .offer
  · rw [modifyState_of_side hside]
    cases hs : c.mdBookStates[b.securityID]? with
    | none => exact ⟨_, _, rfl, h⟩
    | some s =>
      -- the book fits before, and so after the change
      have hfits := h _ _ hs
      by_cases htype : b.type = 'W' ∨ b.type = 'X'
      · simp only [updatePrice_eq htype]
        cases hs' : (b.applyTo s.marketDepth.toNat (s.target b)).map (s.withTarget b) with
        | none => exact ⟨_, _, rfl, h⟩
        | some s' => exact ⟨_, _, rfl, h.insert (map_withTarget_fits hfits hs')⟩
      · rw [not_or] at htype
        simp only [updatePrice_of_other htype.1 htype.2]
        exact ⟨_, _, rfl, h⟩
  · -- the entries of other types change no book
    rw [not_or] at hside
    unfold BookStateController.modifyState
    rw [if_neg hreset]
    cases hs : c.mdBookStates[b.securityID]? with
    | none => exact ⟨_, _, rfl, h⟩
    | some s =>
      cases htype : b.mDEntryType <;> first
        | exact absurd htype hside.1
        | exact absurd htype hside.2
        | exact ⟨_, _, rfl, h⟩

/-- The books fit along every run, which no access out of range ends. -/
theorem Sound.run {c : BookStateController} (h : c.Sound) (calls : List Call) :
    ∃ c', c.run calls = .ok c' ∧ c'.Sound := by
  induction calls generalizing c with
  | nil => exact ⟨c, rfl, h⟩
  | cons call calls ih =>
    cases call with
    | createOrShrink i => exact ih (h.createOrShrink i)
    | modifyState b =>
      obtain ⟨r, c', hc', hsound⟩ := h.modifyState b
      obtain ⟨c'', hrun, hsound'⟩ := ih hsound
      refine ⟨c'', ?_, hsound'⟩
      rw [BookStateController.run, step, hc']
      exact hrun

/-- In every state that a run of the controller reaches, without an access out of range,
    no side is deeper than its book, and an entry of a side is rejected, or changes the
    rows of this side and nothing else. -/
theorem modifyState_semantics (calls : List Call) :
    ∃ c, run {} calls = .ok c ∧
      (∀ (id : UInt32) (s : BookState), c.mdBookStates[id]? = some s →
        s.bid.length ≤ s.marketDepth.toNat ∧ s.ask.length ≤ s.marketDepth.toNat) ∧
      ∀ b : Book, b.type = 'W' ∨ b.type = 'X' →
        b.mDEntryType = .bid ∨ b.mDEntryType = .offer →
        ∃ r c', c.modifyState b = .ok (r, c') ∧
          match c.mdBookStates[b.securityID]? with
          | none => r = .noData ∧ c' = c
          | some s =>
            match b.applyTo s.marketDepth.toNat (s.target b) with
            | none => r = .bookState none ∧ c' = c
            | some rows =>
              r = .bookState (some (s.withTarget b rows)) ∧
              ∀ id : UInt32, c'.mdBookStates[id]? =
                if id = b.securityID then some (s.withTarget b rows) else c.mdBookStates[id]? := by
  obtain ⟨c, hrun, hsound⟩ := Sound.initial.run calls
  refine ⟨c, hrun, fun id s hs => ⟨(hsound id s hs).bid, (hsound id s hs).ask⟩,
    fun b htype hside => ?_⟩
  -- the book, if there is one, is the only one that changes
  rw [modifyState_of_side hside]
  cases hs : c.mdBookStates[b.securityID]? with
  | none => exact ⟨_, _, rfl, rfl, rfl⟩
  | some s =>
    simp only [updatePrice_eq htype]
    cases hrows : b.applyTo s.marketDepth.toNat (s.target b) with
    | none => exact ⟨_, _, rfl, rfl, rfl⟩
    | some rows =>
      refine ⟨_, _, rfl, rfl, fun id => ?_⟩
      rw [Std.TreeMap.getElem?_insert_if]

end BookStateController

end FixHandler.Cme
