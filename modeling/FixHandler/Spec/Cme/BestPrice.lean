import Mathlib
import FixHandler.Native.Cme.BookManager
import FixHandler.Spec.Cme.BookStateCorrect

/-!
# Which entries change the best prices

`isBBOChanged` tells from an entry alone whether the best prices of its book may have changed. It is
right but for one shape of the book: a new row below the first level of an empty side, which gets a
blank row in front.

## Key results

- `best_applyTo`: what an entry does to the first row of its side
- `best_changed_notified_iff`: when every change of the best prices is seen
-/

namespace FixHandler.Cme

/-- The price and the size of the first row -/
def best (rows : List BookPrice) : Option (Px × UInt32) :=
  rows.head?.map fun p => (p.mDEntryPx, p.mDEntrySize)

/-- The best prices of two books differ. -/
def BestChanged (s s' : BookState) : Prop := best s.bid ≠ best s'.bid ∨ best s.ask ≠ best s'.ask

/-- A new row below the first level of a side without rows -/
def Book.LeavesGap (b : Book) (rows : List BookPrice) : Prop :=
  b.action = .new ∧ b.mDPriceLevel ≠ 1 ∧ rows = []

/-- An entry is taken for one that changes the best prices, so these are published if there are
    any. -/
def Notified (b : Book) (s' : BookState) : Prop :=
  BookManager.isBBOChanged b = true ∧
    (∀ contract, BookManager.bookEvents b (.bookState (some s')) contract =
      .l2 s' :: BookManager.bboEvents s') ∧
    (s'.bid ≠ [] ∨ s'.ask ≠ [] → BookManager.bboEvents s' ≠ [])

/-- The notification is decided by the entry alone. -/
theorem notified_iff (b : Book) (s' : BookState) :
    Notified b s' ↔ BookManager.isBBOChanged b = true := by
  refine ⟨And.left, fun h => ⟨h, fun contract => ?_, fun hside hnone => ?_⟩⟩
  · show MarketEvent.l2 s' :: (if BookManager.isBBOChanged b = true then BookManager.bboEvents s'
      else []) = _
    rw [if_pos h]
  · unfold BookManager.bboEvents at hnone
    cases hbid : s'.bid <;> cases hask : s'.ask <;> simp [hbid, hask] at hside hnone

/-- Only entries of the first level, and those that delete more than one row, are taken for ones
    that change the best prices. -/
theorem isBBOChanged_iff {b : Book} (htype : b.type = 'W' ∨ b.type = 'X') :
    BookManager.isBBOChanged b = true ↔
      match b.action with
      | .new | .change | .delete => b.mDPriceLevel = 1
      | .deleteThru | .deleteFrom => True
      | _ => False := by
  unfold BookManager.isBBOChanged Book.action
  rcases htype with hW | hX
  · simp [hW]
  · simp only [hX]
    cases b.mDUpdateAction <;> simp

/-- The first row after a new one that does not come first -/
theorem head?_insertRow {depth level : Nat} (hlevel : 1 < level) (hdepth : level ≤ depth)
    (price : BookPrice) (rows : List BookPrice) :
    (insertRow depth level price rows).head? = some (rows.head?.getD .blank) := by
  unfold insertRow
  rw [List.head?_eq_getElem?, List.getElem?_take_of_lt (by omega),
    List.getElem?_insertIdx_of_lt (by omega)]
  cases rows with
  | nil =>
    rw [List.nil_append, List.getElem?_replicate_of_lt (by simp; omega)]
    rfl
  | cons p rows => rfl

/-- The first row of a side stays if the entry is not taken for one that changes it, unless it
    leaves a gap. -/
theorem best_applyTo {b : Book} (htype : b.type = 'W' ∨ b.type = 'X') {depth : Nat}
    {rows rows' : List BookPrice} (h : b.applyTo depth rows = some rows')
    (hno : BookManager.isBBOChanged b ≠ true) :
    best rows' = best rows ↔ ¬ b.LeavesGap rows := by
  rw [ne_eq, isBBOChanged_iff htype] at hno
  -- the entry is not for the first level
  have hlevel : b.mDPriceLevel ≠ 1 → 0 < b.mDPriceLevel.toNat → 1 < b.mDPriceLevel.toNat := by
    intro hne hpos
    have : b.mDPriceLevel.toNat ≠ 1 := fun h1 => hne (UInt8.toNat_inj.mp h1)
    omega
  -- only an insertion can leave a gap
  have hkeep : b.action ≠ .new → ¬ b.LeavesGap rows := fun hne hgap => hne hgap.1
  unfold Book.applyTo at h
  cases haction : b.action with
  | new =>
    simp only [haction] at h hno
    split at h
    · next hpos =>
      cases h
      have hhead := head?_insertRow (hlevel hno hpos.1) hpos.2 b.price rows
      unfold best
      rw [hhead]
      cases rows with
      | nil => exact iff_of_false (by simp) fun hgap => hgap ⟨haction, hno, rfl⟩
      | cons p rows => exact iff_of_true rfl fun hgap => nomatch hgap.2.2
    · exact nomatch h
  | change =>
    simp only [haction] at h hno
    split at h
    · next hpos =>
      cases h
      refine iff_of_true ?_ (hkeep (by rw [haction]; exact nofun))
      have := hlevel hno hpos.1
      unfold best
      rw [List.head?_eq_getElem?, List.head?_eq_getElem?, List.getElem?_set_ne (by omega)]
    · exact nomatch h
  | delete =>
    simp only [haction] at h hno
    split at h
    · next hpos =>
      cases h
      refine iff_of_true ?_ (hkeep (by rw [haction]; exact nofun))
      have := hlevel hno hpos.1
      unfold best
      rw [List.head?_eq_getElem?, List.head?_eq_getElem?, List.getElem?_eraseIdx_of_lt (by omega)]
    · exact nomatch h
  | deleteThru => exact absurd trivial (by simpa only [haction] using hno)
  | deleteFrom => exact absurd trivial (by simpa only [haction] using hno)
  | overlay =>
    simp only [haction] at h
    exact nomatch h
  | nullValue =>
    simp only [haction] at h
    exact nomatch h

/-- Only the side of the entry changes. -/
theorem bestChanged_withTarget (s : BookState) (b : Book) (rows : List BookPrice) :
    BestChanged s (s.withTarget b rows) ↔ best rows ≠ best (s.target b) := by
  unfold BestChanged BookState.withTarget BookState.target
  split <;> simp [ne_comm]

/-- In every state that a run of the controller reaches, every change of the best prices by an
    entry is seen from the entry, if and only if it does not leave a gap. -/
theorem best_changed_notified_iff (calls : List BookStateController.Call) :
    ∃ c, BookStateController.run {} calls = .ok c ∧
      ∀ (b : Book) (s s' : BookState) (c' : BookStateController),
        b.type = 'W' ∨ b.type = 'X' → b.mDEntryType = .bid ∨ b.mDEntryType = .offer →
        c.mdBookStates[b.securityID]? = some s →
        c.modifyState b = .ok (.bookState (some s'), c') →
        ((BestChanged s s' → Notified b s') ↔ ¬ b.LeavesGap (s.target b)) := by
  obtain ⟨c, hrun, -⟩ := BookStateController.Sound.initial.run calls
  refine ⟨c, hrun, fun b s s' c' htype hside hs happlied => ?_⟩
  rw [BookStateController.modifyState_of_side hside, hs] at happlied
  simp only [BookStateController.updatePrice_eq htype] at happlied
  cases hrows : b.applyTo s.marketDepth.toNat (s.target b) with
  | none =>
    rw [hrows] at happlied
    exact nomatch happlied
  | some rows =>
    rw [hrows] at happlied
    obtain ⟨hs', -⟩ : s.withTarget b rows = s' ∧ _ := by
      simpa [Except.bind] using happlied
    rw [notified_iff, ← hs', bestChanged_withTarget]
    -- an entry that notifies is for the first level, or deletes from the top
    by_cases hchanged : BookManager.isBBOChanged b = true
    · refine iff_of_true (fun _ => hchanged) fun hgap => ?_
      have := (isBBOChanged_iff htype).mp hchanged
      rw [hgap.1] at this
      exact hgap.2.1 this
    · rw [← best_applyTo htype hrows hchanged]
      exact ⟨fun h => by_contra fun hne => hchanged (h hne), fun h hne => absurd h hne⟩

/-- An instrument with a book of ten levels -/
private def deepBook : Instrument :=
  { securityUpdateAction := 'A', securityID := 7, symbol := "A", depthGBX := 10 }

/-- A new bid at level 2 of a book without bids -/
private def secondLevel : Book :=
  { packetSeqNum := 1, type := 'X', securityID := 7, mDEntryPx := (100, 0), mDEntrySize := 5,
    mDEntryType := .bid, mDPriceLevel := 2 }

/-- A blank row becomes the best bid, and the best prices are not published. -/
theorem blank_best_unseen :
    ∃ c s s' c', BookStateController.run {} [.createOrShrink deepBook] = .ok c ∧
      c.mdBookStates[secondLevel.securityID]? = some s ∧
      c.modifyState secondLevel = .ok (.bookState (some s'), c') ∧
      best s.bid = none ∧ best s'.bid = some ((0, 0), 0) ∧ BestChanged s s' ∧
      ¬ Notified secondLevel s' := by
  let s := BookStateController.create 1 7 "A" 10
  let s' : BookState := { s with bid := [.blank, secondLevel.price] }
  let c := BookStateController.createOrShrink {} deepBook
  have hs : c.mdBookStates[secondLevel.securityID]? = some s := by decide +kernel
  have hmodify : c.modifyState secondLevel =
      .ok (.bookState (some s'), ⟨c.mdBookStates.insert 7 s'⟩) := by
    rw [BookStateController.modifyState_of_side (.inl rfl), hs]
    rfl
  exact ⟨c, s, s', _, rfl, hs, hmodify, rfl, rfl, .inl (by decide), fun h => nomatch h.1⟩

end FixHandler.Cme
