import Mathlib
import FixHandler.ForStd.Padded
import FixHandler.Spec.Cme.BookStateCorrect

/-!
# The order of the entries of a snapshot

The entries of a snapshot are all new rows: an entry moves the rows from its level on down, also
the blank rows that were put in for levels which had not come yet. So the book of a snapshot has
each entry at its level if the entries come in the order of their levels.

## Key results

- `run_snapshot`: the rows that the entries leave
- `snapshot_iff_inOrder`: when each entry is at its level
-/

namespace FixHandler.Cme

/-- An entry with the position of its row. -/
def Book.row (b : Book) : Nat × BookPrice := (b.mDPriceLevel.toNat - 1, b.price)

/-- An entry of a snapshot of one side of a security -/
structure Book.OfSnapshot (id : UInt32) (side : MDEntryType) (b : Book) : Prop where
  type : b.type = 'W'
  securityID : b.securityID = id
  mDEntryType : b.mDEntryType = side

/-- The levels of the entries are those from 1 to `n`, in some order. -/
def Levels (n : Nat) (es : List Book) : Prop :=
  (es.map (·.mDPriceLevel.toNat)).Perm (List.range' 1 n)

/-- The row of each level is the entry of this level, and there are no other rows. -/
def Shows (rows : List BookPrice) (es : List Book) : Prop :=
  rows.length = es.length ∧ ∀ b ∈ es, rows[b.mDPriceLevel.toNat - 1]? = some b.price

/-- The entries come in the order of their levels. -/
def InOrder (es : List Book) : Prop :=
  es.map (·.mDPriceLevel.toNat) = List.range' 1 es.length

namespace BookState

/-- The rows of a side -/
def rows (s : BookState) (side : MDEntryType) : List BookPrice :=
  if side = .bid then s.bid else s.ask

/-- The rows that an entry changes are those of its side. -/
theorem target_eq_rows (s : BookState) (b : Book) : s.target b = s.rows b.mDEntryType := rfl

end BookState

/-- The rows that a snapshot stands for. -/
private def targetRows (n : Nat) (es : List Book) : List BookPrice :=
  (List.range n).map fun p =>
    ((es.find? (·.mDPriceLevel.toNat == p + 1)).map Book.price).getD .blank

section Target

variable {n : Nat} {es : List Book} (hlevels : Levels n es)

include hlevels

/-- There is one entry for each level. -/
theorem Levels.length : es.length = n := by
  simpa using hlevels.length_eq

/-- The levels count from 1. -/
theorem Levels.mem {b : Book} (hb : b ∈ es) :
    0 < b.mDPriceLevel.toNat ∧ b.mDPriceLevel.toNat ≤ n := by
  have hmem := hlevels.mem_iff.mp (List.mem_map.mpr ⟨b, hb, rfl⟩)
  rw [List.mem_range'_1] at hmem
  omega

/-- Entries of one level are the same. -/
theorem Levels.inj {b b' : Book} (hb : b ∈ es) (hb' : b' ∈ es)
    (h : b.mDPriceLevel.toNat = b'.mDPriceLevel.toNat) : b = b' :=
  List.inj_on_of_nodup_map (hlevels.nodup_iff.mpr List.nodup_range') hb hb' h

/-- No two entries are for one row. -/
theorem Levels.nodup_row : ((es.map Book.row).map (·.1)).Nodup := by
  have hnodup : es.Nodup := (hlevels.nodup_iff.mpr List.nodup_range').of_map
  rw [List.map_map]
  refine hnodup.map_on fun b hb b' hb' heq => hlevels.inj hb hb' ?_
  have := hlevels.mem hb
  have := hlevels.mem hb'
  have heq : b.mDPriceLevel.toNat - 1 = b'.mDPriceLevel.toNat - 1 := heq
  show b.mDPriceLevel.toNat = b'.mDPriceLevel.toNat
  omega

/-- The rows of a snapshot are those of its entries. -/
theorem Levels.getElem?_targetRows (p : Nat) (x : BookPrice) :
    (p, x) ∈ es.map Book.row ↔ (targetRows n es)[p]? = some x := by
  unfold targetRows
  rw [List.mem_map, List.getElem?_map]
  by_cases hp : p < n
  · obtain ⟨b, hb, hlevel⟩ : ∃ b ∈ es, b.mDPriceLevel.toNat = p + 1 := by
      have hmem := hlevels.mem_iff.mpr (List.mem_range'_1.mpr (by omega : 1 ≤ p + 1 ∧ p + 1 < 1 + n))
      exact List.mem_map.mp hmem
    -- the search finds the one entry of the level
    have hfind : es.find? (·.mDPriceLevel.toNat == p + 1) = some b := by
      cases hfind : es.find? (·.mDPriceLevel.toNat == p + 1) with
      | none =>
        have := List.find?_eq_none.mp hfind b hb
        simp [hlevel] at this
      | some b' =>
        have hb' : b'.mDPriceLevel.toNat = p + 1 := by simpa using List.find?_some hfind
        rw [hlevels.inj (List.mem_of_find?_eq_some hfind) hb (hb'.trans hlevel.symm)]
    rw [List.getElem?_range hp, Option.map_some, hfind, Option.map_some, Option.getD_some]
    constructor
    · rintro ⟨b', hb', heq⟩
      obtain ⟨hpos, hprice⟩ := Prod.mk.inj heq
      have := hlevels.mem hb'
      rw [hlevels.inj hb hb' (by omega), hprice]
    · intro heq
      refine ⟨b, hb, ?_⟩
      rw [Book.row, hlevel, Option.some.inj heq]
      rfl
  · -- behind the last level there is no entry
    rw [List.getElem?_eq_none (by simpa using hp)]
    refine iff_of_false ?_ (by simp)
    rintro ⟨b, hb, heq⟩
    have := hlevels.mem hb
    have hpos := congrArg Prod.fst heq
    simp only [Book.row] at hpos
    omega

/-- A side shows the entries if it has their rows. -/
theorem Levels.shows_iff (rows : List BookPrice) : Shows rows es ↔ rows = targetRows n es := by
  have hlength : (targetRows n es).length = n := by simp [targetRows]
  constructor
  · -- row by row, each being the one of its entry
    rintro ⟨hlen, hrow⟩
    rw [hlevels.length] at hlen
    apply List.ext_getElem?
    intro p
    by_cases hp : p < n
    · have hx := List.getElem?_eq_getElem (l := targetRows n es) (i := p) (by omega)
      obtain ⟨b, hb, heq⟩ := List.mem_map.mp ((hlevels.getElem?_targetRows p _).mpr hx)
      obtain ⟨hpos, hprice⟩ := Prod.mk.inj heq
      rw [hx, ← hprice, ← hpos]
      exact hrow b hb
    · rw [List.getElem?_eq_none (by omega), List.getElem?_eq_none (by omega)]
  · rintro rfl
    refine ⟨hlength.trans hlevels.length.symm, fun b hb => ?_⟩
    exact (hlevels.getElem?_targetRows _ _).mp (List.mem_map.mpr ⟨b, hb, rfl⟩)

/-- The entries are in order if their rows are. -/
theorem Levels.inOrder_iff : InOrder es ↔ (es.map Book.row).map (·.1) = List.range n := by
  unfold InOrder
  rw [hlevels.length, List.range'_eq_map_range]
  have hlevel : es.map (·.mDPriceLevel.toNat) =
      ((es.map Book.row).map (·.1)).map (fun p => 1 + p) := by
    rw [List.map_map, List.map_map]
    refine List.map_congr_left fun b hb => ?_
    have := hlevels.mem hb
    simp only [Function.comp_apply, Book.row]
    omega
  rw [hlevel]
  exact (List.map_injective_iff.mpr fun p q h => Nat.add_left_cancel h).eq_iff

end Target

namespace BookStateController

/-- The entries are applied one after the other, and each is placed in the rows of its side. -/
theorem run_snapshot {id : UInt32} {side : MDEntryType} (hside : side = .bid ∨ side = .offer)
    {depth : UInt8} {es : List Book} (hes : ∀ b ∈ es, b.OfSnapshot id side)
    (hlevels : ∀ b ∈ es, 0 < b.mDPriceLevel.toNat ∧ b.mDPriceLevel.toNat ≤ depth.toNat)
    {c : BookStateController} {s : BookState} (hs : c.mdBookStates[id]? = some s)
    (hdepth : s.marketDepth = depth) :
    ∃ c' s', c.run (es.map .modifyState) = .ok c' ∧ c'.mdBookStates[id]? = some s' ∧
      s'.rows side =
        (es.map Book.row).foldl (Padded.place BookPrice.blank depth.toNat) (s.rows side) := by
  induction es generalizing c s with
  | nil => exact ⟨c, s, rfl, hs, rfl⟩
  | cons b es ih =>
    obtain ⟨htype, hid, hentry⟩ := hes b List.mem_cons_self
    have hlevel := hlevels b List.mem_cons_self
    -- the row of this entry
    have hrows : b.applyTo s.marketDepth.toNat (s.target b) =
        some (Padded.place BookPrice.blank depth.toNat (s.target b) b.row) := by
      unfold Book.applyTo Book.action
      rw [if_pos htype, hdepth]
      exact if_pos hlevel
    let s₁ := s.withTarget b (Padded.place BookPrice.blank depth.toNat (s.target b) b.row)
    -- the entry changes its side of the book
    have hmodify : c.modifyState b =
        .ok (.bookState (some s₁), ⟨c.mdBookStates.insert id s₁⟩) := by
      rw [modifyState_of_side (hentry ▸ hside), hid, hs]
      simp only [updatePrice_eq (.inl htype), hrows, Option.map_some]
      rfl
    have hs₁ : (⟨c.mdBookStates.insert id s₁⟩ : BookStateController).mdBookStates[id]? = some s₁ :=
      Std.TreeMap.getElem?_insert_self
    obtain ⟨c', s', hrun, hs', hrows'⟩ := ih (fun b' hb' => hes b' (List.mem_cons_of_mem b hb'))
      (fun b' hb' => hlevels b' (List.mem_cons_of_mem b hb')) hs₁
      ((BookState.marketDepth_withTarget _ _ _).trans hdepth)
    refine ⟨c', s', ?_, hs', ?_⟩
    · rw [List.map_cons, run, step, hmodify]
      exact hrun
    · rw [hrows', List.map_cons, List.foldl_cons, ← hentry, ← BookState.target_eq_rows,
        BookState.target_withTarget, BookState.target_eq_rows]

/-- A book without rows shows a snapshot of `n` levels, as far as its depth allows `n`, if and only
    if the entries come in the order of their levels; or the book is full, and every entry after
    which one of a lower level comes is blank itself. -/
theorem snapshot_iff_inOrder (c : BookStateController) (id : UInt32) (s : BookState)
    (hs : c.mdBookStates[id]? = some s) (hbid : s.bid = []) (hask : s.ask = [])
    (side : MDEntryType) (hside : side = .bid ∨ side = .offer) (n : Nat)
    (hn : n ≤ s.marketDepth.toNat) (es : List Book) (hes : ∀ b ∈ es, b.OfSnapshot id side)
    (hlevels : Levels n es) :
    ∃ c' s', c.run (es.map .modifyState) = .ok c' ∧ c'.mdBookStates[id]? = some s' ∧
      (Shows (s'.rows side) es ↔
        InOrder es ∨ n = s.marketDepth.toNat ∧
          es.Pairwise fun b b' => b'.mDPriceLevel < b.mDPriceLevel → b.price = .blank) := by
  obtain ⟨c', s', hrun, hs', hrows⟩ := run_snapshot hside hes (fun b hb =>
    ⟨(hlevels.mem hb).1, (hlevels.mem hb).2.trans hn⟩) hs rfl
  have hempty : s.rows side = [] := by
    unfold BookState.rows
    rw [hbid, hask, ite_self]
  -- there are as many rows as entries
  have hlength : (targetRows n es).length = n := by simp [targetRows]
  refine ⟨c', s', hrun, hs', ?_⟩
  rw [hlevels.shows_iff, hrows, hempty, hlevels.inOrder_iff]
  have hplace := Padded.placeAll_eq_iff BookPrice.blank s.marketDepth.toNat hlevels.nodup_row
    hlevels.getElem?_targetRows (hlength.le.trans hn)
  rw [hlength, List.pairwise_map] at hplace
  refine hplace.trans (or_congr_right (and_congr_right fun _ => ?_))
  -- positions are compared as levels are
  refine List.Pairwise.iff_of_mem fun {b b'} hb hb' => ?_
  have := hlevels.mem hb
  have := hlevels.mem hb'
  have hlt : b'.row.1 < b.row.1 ↔ b'.mDPriceLevel < b.mDPriceLevel := by
    rw [UInt8.lt_iff_toNat_lt]
    show b'.mDPriceLevel.toNat - 1 < b.mDPriceLevel.toNat - 1 ↔ _
    omega
  rw [hlt]
  rfl

/-- A bid of a snapshot -/
private def snapshotRow (mDPriceLevel : UInt8) (mDEntrySize : UInt32) : Book :=
  { packetSeqNum := 1, type := 'W', securityID := 7, mDEntryType := .bid, mDPriceLevel, mDEntrySize }

/-- A book of depth 10 without rows -/
private def emptyBook : BookStateController := ⟨(∅ : Std.TreeMap UInt32 BookState).insert 7
  { bookType := 1, securityID := 7, symbol := "A", marketDepth := 10 }⟩

/-- Two bids in the order of their levels are shown. -/
theorem snapshot_inOrder_two :
    ∃ c' s', emptyBook.run ([snapshotRow 1 5, snapshotRow 2 6].map .modifyState) = .ok c' ∧
      c'.mdBookStates[(7 : UInt32)]? = some s' ∧
      (Shows (s'.rows .bid) [snapshotRow 1 5, snapshotRow 2 6] ↔
        InOrder [snapshotRow 1 5, snapshotRow 2 6] ∨ 2 = 10 ∧
          [snapshotRow 1 5, snapshotRow 2 6].Pairwise fun b b' =>
            b'.mDPriceLevel < b.mDPriceLevel → b.price = .blank) :=
  snapshot_iff_inOrder emptyBook 7
    { bookType := 1, securityID := 7, symbol := "A", marketDepth := 10 } (by decide +kernel) rfl rfl
    .bid (.inl rfl) 2 (by decide) _
    (by
      intro b hb
      rcases List.mem_pair.mp hb with rfl | rfl <;> exact ⟨rfl, rfl, rfl⟩)
    (by unfold Levels; decide)

/-- The entry of level 2 before that of level 1: it ends at level 3, below a blank row. -/
theorem snapshot_out_of_order :
    Levels 2 [snapshotRow 2 6, snapshotRow 1 5] ∧
    ∃ c' s', emptyBook.run ([snapshotRow 2 6, snapshotRow 1 5].map .modifyState) = .ok c' ∧
      c'.mdBookStates[(7 : UInt32)]? = some s' ∧
      s'.rows .bid = [(snapshotRow 1 5).price, .blank, (snapshotRow 2 6).price] ∧
      ¬ Shows (s'.rows .bid) [snapshotRow 2 6, snapshotRow 1 5] := by
  have heval : ((emptyBook.run ([snapshotRow 2 6, snapshotRow 1 5].map .modifyState)).map
      fun c' => (c'.mdBookStates[(7 : UInt32)]?).map (·.rows .bid)) =
        .ok (some [(snapshotRow 1 5).price, .blank, (snapshotRow 2 6).price]) := by decide +kernel
  cases hrun : emptyBook.run ([snapshotRow 2 6, snapshotRow 1 5].map .modifyState) with
  | error e =>
    rw [hrun] at heval
    exact nomatch heval
  | ok c' =>
    rw [hrun] at heval
    obtain ⟨s', hs', hrows⟩ := Option.map_eq_some_iff.mp (Except.ok.inj heval)
    refine ⟨by unfold Levels; decide, c', s', rfl, hs', hrows, fun h => ?_⟩
    -- three rows where two were sent
    have hlength := h.1
    rw [hrows] at hlength
    exact nomatch hlength

end BookStateController

end FixHandler.Cme
