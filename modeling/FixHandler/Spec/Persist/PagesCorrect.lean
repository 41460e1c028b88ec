import Mathlib
import FixHandler.ForStd.Paging
import FixHandler.ForStd.Repr
import FixHandler.Native.Persist.Mongo

/-!
# What the reader fetches

The pages that `Read` fetches are all the records that are wanted, unless two records of the
same time are on the two sides of the border of a page: the next query asks for later records
only. Times are compared as texts, so that the order of the records is the order of their times
for times of the same number of digits.

## Key results

- `Readable`: the records that are read in order and without loss
- `complete_iff`: they are the only ones
-/

namespace FixHandler.Persist

open Cxx (Exception)

/-- The database answers with the first records that meet the condition, in the order of
    `insertTime`; those of the same `insertTime` come in any order. -/
def Database.Documented (db : Database) (records : List Record) : Prop :=
  ∀ (condition : Record → Bool) (limit : Nat), 0 < limit →
    Paging.FirstOf Record.insertTime limit (records.filter condition) (db.find condition limit)

/-- The range of a provider -/
def Provider.wants (r : Record) : Provider → Bool
  | .market startDateInclude endDateExclude =>
    decide (startDateInclude ≤ r.sendingTimeStr) && decide (r.sendingTimeStr < endDateExclude)
  | .replay market' contracts startDateInclude endDateExclude =>
    decide (startDateInclude ≤ r.sendingTimeStr) && decide (r.sendingTimeStr < endDateExclude) &&
      r.market == market' && (contracts.isEmpty || contracts.contains r.contract)

/-- The pages come to an end, and are the wanted records, each once, in the order of their
    times. -/
def Complete (db : Database) (pageSize : UInt32) (provider : Provider) (records : List Record) :
    Prop :=
  ∃ fuel pages, readFrom db pageSize provider fuel 0 = some pages ∧
    (pages.flatten.map Document.record).Perm (records.filter (provider.wants ·)) ∧
    (pages.flatten.map Document.record).Pairwise fun a b => a.time ≤ b.time

/-- The times are positive and `long`s, the texts of the times are in the order of the times,
    and no border of two pages lies between two records with the same time. -/
structure Readable (n : Nat) (l : List Record) : Prop where
  time : ∀ r ∈ l, 0 < r.time ∧ r.time < 2 ^ 63
  order : ∀ a ∈ l, ∀ b ∈ l, a.time ≤ b.time → a.insertTime ≤ b.insertTime
  borders : Paging.Seamless Record.insertTime n l

/-! ## Times as texts -/

/-- The text of the insert time tells the times apart. -/
theorem insertTime_inj {a b : Record} : a.insertTime = b.insertTime ↔ a.time = b.time :=
  Nat.repr_inj

/-- A message is identified by its time, where that fits a `long`. -/
theorem messageIdentify_eq (d : Document) :
    messageIdentify d = if d.record.time < 2 ^ 63 then .ok (UInt64.ofNat d.record.time)
      else .error (.outOfRange "stol") := by
  rw [messageIdentify, Record.insertTime, Cxx.stol_repr]
  split <;> rfl

/-! ## The loop -/

section Loop

variable {db : Database} {pageSize : UInt32} {provider : Provider} {records : List Record}

/-- The wanted records behind a time. -/
def findBehind (db : Database) (pageSize : UInt32) (provider : Provider) (insertTime : String) :
    List Record :=
  db.find (fun r => provider.wants r && decide (insertTime < r.insertTime)) pageSize.toNat

/-- A query reads the records behind the last one. -/
theorem query_eq (prev : UInt64) :
    (provider.query db pageSize prev).map Document.record =
      findBehind db pageSize provider prev.toNat.repr := by
  unfold Provider.query findBehind
  cases provider with
  | market startDateInclude endDateExclude =>
    show (List.map (fun r => ({ record := r } : Document)) _).map Document.record = _
    rw [List.map_map]
    exact List.map_id _
  | replay market contracts startDateInclude endDateExclude =>
    show (queryMarket db pageSize market contracts startDateInclude endDateExclude prev).map
      Document.record = _
    unfold queryMarket
    -- with the contracts or without, the records are those of the page
    cases db.findContracts with
    | none =>
      simp only [List.map_map]
      exact List.map_id _
    | some findContracts =>
      simp only [List.map_map]
      exact List.map_id _

/-- A page is the first of what lies behind. -/
theorem firstOf_findBehind (hdb : db.Documented records) (hsize : 0 < pageSize) (c : String) :
    Paging.FirstOf Record.insertTime pageSize.toNat
      (Paging.behind Record.insertTime (records.filter (provider.wants ·)) c)
      (findBehind db pageSize provider c) := by
  have hfirst := hdb (fun r => provider.wants r && decide (c < r.insertTime)) pageSize.toNat hsize
  have hfilter : Paging.behind Record.insertTime (records.filter (provider.wants ·)) c =
      records.filter fun r => provider.wants r && decide (c < r.insertTime) := by
    rw [Paging.behind, List.filter_filter]
    exact List.filter_congr fun r _ => Bool.and_comm _ _
  rw [hfilter]
  exact hfirst

/-- The pages of the database -/
abbrev Fetched (db : Database) (pageSize : UInt32) (provider : Provider) :
    String → List (List Record) → Prop :=
  Paging.Pages Record.insertTime (findBehind db pageSize provider) fun r => r.time < 2 ^ 63

/-- A time below 2^63 is kept by the message id. -/
theorem toNat_ofNat_time {t : Nat} (h : t < 2 ^ 63) : (UInt64.ofNat t).toNat = t := by
  rw [UInt64.toNat_ofNat']
  omega

/-- The pages that are read are fetched one behind the other. -/
theorem fetched_of_readFrom {fuel : Nat} {prev : UInt64} {pages : List (List Document)}
    (h : readFrom db pageSize provider fuel prev = some pages) :
    Fetched db pageSize provider prev.toNat.repr (pages.map (·.map Document.record)) := by
  induction fuel generalizing prev pages with
  | zero => exact nomatch h
  | succ fuel ih =>
    rw [readFrom] at h
    have hquery : (provider.query db pageSize prev).map Document.record = _ := query_eq prev
    generalize provider.query db pageSize prev = messages at h hquery
    -- an empty page ends the reading
    cases hback : messages.getLast? with
    | none =>
      simp only [hback] at h
      cases h
      refine .done ?_
      rw [← hquery, List.getLast?_eq_none_iff.mp hback]
      rfl
    | some back =>
      simp only [hback, messageIdentify_eq] at h
      by_cases htime : back.record.time < 2 ^ 63
      · rw [if_pos htime] at h
        obtain ⟨rest, hrest, rfl⟩ := Option.map_eq_some_iff.mp h
        obtain ⟨init, rfl⟩ := List.getLast?_eq_some_iff.mp hback
        have hpage : findBehind db pageSize provider prev.toNat.repr =
            init.map Document.record ++ [back.record] := by
          rw [← hquery, List.map_append]
          rfl
        -- the next page starts behind the last record of this one
        have hlast : ∀ hne, (findBehind db pageSize provider prev.toNat.repr).getLast hne =
            back.record := by
          rw [hpage]
          exact fun _ => List.getLast_append_singleton _
        have hfetched := ih hrest
        rw [toNat_ofNat_time htime] at hfetched
        rw [List.map_cons, hquery]
        refine .more (by rw [hpage]; exact List.append_ne_nil_of_right_ne_nil _ (List.cons_ne_nil _ _)) ?_ ?_
        · rw [hlast]
          exact htime
        · rw [hlast]
          exact hfetched
      · rw [if_neg htime] at h
        exact nomatch h

/-- Pages that can be fetched are read with enough fuel. -/
theorem readFrom_of_fetched {c : String} {ps : List (List Record)}
    (h : Fetched db pageSize provider c ps) {prev : UInt64} (hprev : c = prev.toNat.repr) :
    ∃ fuel pages, readFrom db pageSize provider fuel prev = some pages ∧
      pages.map (·.map Document.record) = ps := by
  induction h generalizing prev with
  | @done c hfind =>
    have hquery : (provider.query db pageSize prev).map Document.record = _ := query_eq prev
    rw [← hprev, hfind, List.map_eq_nil_iff] at hquery
    refine ⟨1, [], ?_, rfl⟩
    rw [readFrom, hquery]
    rfl
  | @more c rest hne hok hrest ih =>
    have hquery : (provider.query db pageSize prev).map Document.record = _ := query_eq prev
    rw [← hprev] at hquery
    obtain ⟨fuel, pages, hread, hpages⟩ :=
      @ih (UInt64.ofNat ((findBehind db pageSize provider c).getLast hne).time)
        (by rw [toNat_ofNat_time hok]; rfl)
    refine ⟨fuel + 1, provider.query db pageSize prev :: pages, ?_, by rw [List.map_cons, hquery, hpages]⟩
    rw [readFrom]
    generalize provider.query db pageSize prev = messages at hquery
    -- the page has the records that were found, and a last one
    have hnil : messages ≠ [] := fun hnil => hne (by rw [← hquery, hnil]; rfl)
    have hlast : (messages.getLast hnil).record = (findBehind db pageSize provider c).getLast hne := by
      simp only [← hquery, List.getLast_map]
    simp only [List.getLast?_eq_some_getLast hnil, messageIdentify_eq, hlast]
    rw [if_pos hok]
    simp only [hread]
    rfl

/-! ## All records -/

/-- Times are positive behind the first cursor. -/
theorem lt_insertTime {r : Record} : (0 : UInt64).toNat.repr < r.insertTime ↔ 0 < r.time :=
  Nat.zero_lt_repr r.time

/-- All records lie behind the time 0. -/
theorem behind_zero (h : ∀ r ∈ records, 0 < r.time) :
    Paging.behind Record.insertTime records (0 : UInt64).toNat.repr = records :=
  List.filter_eq_self.mpr fun r hr => decide_eq_true (lt_insertTime.mpr (h r hr))

/-- In the order of the texts is in the order of the times. -/
theorem time_le_of_sorted
    (horder : ∀ a ∈ records, ∀ b ∈ records, a.time ≤ b.time → a.insertTime ≤ b.insertTime)
    (hsorted : records.Pairwise fun a b => a.insertTime ≤ b.insertTime) :
    records.Pairwise fun a b => a.time ≤ b.time := by
  refine hsorted.imp_of_mem fun {a b} ha hb hle => ?_
  by_contra hlt
  have hge := horder b hb a ha (by omega)
  have := insertTime_inj.mp (le_antisymm hle hge)
  omega

/-- The order of the texts is the order of the times where both sort the records. -/
theorem insertTime_le_of_sorted
    (htext : records.Pairwise fun a b => a.insertTime ≤ b.insertTime)
    (htime : records.Pairwise fun a b => a.time ≤ b.time) :
    ∀ a ∈ records, ∀ b ∈ records, a.time ≤ b.time → a.insertTime ≤ b.insertTime := by
  intro a ha b hb hle
  obtain ⟨i, hi, rfl⟩ := List.getElem_of_mem ha
  obtain ⟨j, hj, rfl⟩ := List.getElem_of_mem hb
  rcases lt_trichotomy i j with hlt | rfl | hlt
  · exact List.pairwise_iff_getElem.mp htext i j hi hj hlt
  · exact le_refl _
  · have hge := List.pairwise_iff_getElem.mp htime j i hj hi hlt
    exact (insertTime_inj.mpr (by omega)).le

/-- Where everything is read, the records can be paged. -/
theorem Complete.readable (hdb : db.Documented records) (hsize : 0 < pageSize)
    (h : Complete db pageSize provider records) :
    Readable pageSize.toNat (records.filter (provider.wants ·)) := by
  obtain ⟨fuel, pages, hread, hperm, htime⟩ := h
  have hpages := fetched_of_readFrom hread
  rw [List.map_flatten] at hperm htime
  obtain ⟨hpos, htext⟩ := hpages.sorted (firstOf_findBehind hdb hsize)
  -- what was read lies behind the time 0
  have hwanted : ∀ r ∈ records.filter (provider.wants ·), 0 < r.time := fun r hr =>
    lt_insertTime.mp (hpos r (hperm.mem_iff.mpr hr))
  have horder := insertTime_le_of_sorted htext htime
  refine ⟨fun r hr => ⟨hwanted r hr, ?_⟩, fun a ha b hb =>
    horder a (hperm.mem_iff.mpr ha) b (hperm.mem_iff.mpr hb), ?_⟩
  · -- the last one has the greatest time
    have hmem := hperm.mem_iff.mpr hr
    have hlast := hpages.ok_getLast (List.ne_nil_of_mem hmem)
    exact (htime.rel_getLast hmem).trans_lt hlast
  · -- all was read, so no page ended among equal times
    have hseamless := hpages.seamless (firstOf_findBehind hdb hsize)
    rw [behind_zero hwanted] at hseamless
    exact hseamless hperm

/-- Records that can be paged are read completely. -/
theorem Readable.complete (hdb : db.Documented records) (hsize : 0 < pageSize)
    (h : Readable pageSize.toNat (records.filter (provider.wants ·))) :
    Complete db pageSize provider records := by
  have hbehind := behind_zero fun r hr => (h.time r hr).1
  have hok : ∀ r ∈ records.filter (provider.wants ·), (fun r => r.time < 2 ^ 63) r :=
    fun r hr => (h.time r hr).2
  -- no page ends among records of one time
  have hseamless : Paging.Seamless Record.insertTime pageSize.toNat
      (Paging.behind Record.insertTime (records.filter (provider.wants ·)) (0 : UInt64).toNat.repr) := by
    rw [hbehind]
    exact h.borders
  obtain ⟨ps, hps, hperm⟩ :=
    (Paging.pages_iff hsize (firstOf_findBehind hdb hsize) hok).mpr hseamless
  rw [hbehind] at hperm
  obtain ⟨fuel, pages, hread, rfl⟩ := readFrom_of_fetched hps rfl
  have hsorted := (hps.sorted (firstOf_findBehind hdb hsize)).2
  rw [← List.map_flatten] at hperm hsorted
  refine ⟨fuel, pages, hread, hperm, time_le_of_sorted (fun a ha b hb => ?_) hsorted⟩
  exact h.order a (hperm.mem_iff.mp ha) b (hperm.mem_iff.mp hb)

/-- All records that are wanted are fetched once and in order exactly if they are readable. -/
theorem complete_iff (hdb : db.Documented records) (hsize : 0 < pageSize) :
    Complete db pageSize provider records ↔
      Readable pageSize.toNat (records.filter (provider.wants ·)) :=
  ⟨fun h => h.readable hdb hsize, fun h => h.complete hdb hsize⟩

end Loop

/-! ## A database -/

/-- The database that sorts its records -/
def Database.ofRecords (records : List Record) : Database where
  find condition limit :=
    ((records.filter condition).insertionSort fun a b => a.insertTime ≤ b.insertTime).take limit

/-- The sample database does what its documentation says. -/
theorem documented_ofRecords (records : List Record) :
    (Database.ofRecords records).Documented records := by
  intro condition limit _
  have : IsTrans Record fun a b => a.insertTime ≤ b.insertTime := ⟨fun _ _ _ => le_trans⟩
  have : Std.Total fun a b : Record => a.insertTime ≤ b.insertTime := ⟨fun _ _ => le_total _ _⟩
  exact ⟨_, List.perm_insertionSort _ _, List.pairwise_insertionSort _ _, rfl⟩

/-- Two records of one time, and pages of one record: the other one is never fetched. -/
theorem twin_lost :
    ¬ Complete (.ofRecords [{ time := 5, market := "CME" }, { time := 5, market := "FEMAS" }]) 1
      (.market "" "2") [{ time := 5, market := "CME" }, { time := 5, market := "FEMAS" }] := by
  intro h
  have hborders := (h.readable (documented_ofRecords _) (by decide)).borders
  exact hborders { time := 5, market := "CME" } (by decide +kernel) 1 (by decide +kernel)

/-- Pages of two records hold both of them. -/
theorem complete_iff_twins :
    Complete (.ofRecords [{ time := 5, market := "CME" }, { time := 5, market := "FEMAS" }]) 2
      (.market "" "2") [{ time := 5, market := "CME" }, { time := 5, market := "FEMAS" }] ↔
    Readable 2 [{ time := 5, market := "CME" }, { time := 5, market := "FEMAS" }] :=
  complete_iff (documented_ofRecords _) (by decide)

end FixHandler.Persist
