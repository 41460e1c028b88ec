import Mathlib
import FixHandler.Spec.Persist.MultiplesCorrect
import FixHandler.Spec.Persist.PagesCorrect
import FixHandler.Spec.Tmalpha.DeliveredCorrect
import FixHandler.Spec.Tmalpha.StorageCorrect

/-!
# From the database to the listener

The messages that the converters have stored are fetched page by page, put into the queue, consumed and
given to the listener. Whatever the size of the pages and the order in which the threads run, the
listener is called for the messages that were sent live, once each and in their order.

## Key results

- `Clocked.readable`: rows are read without loss
- `exists_readFrom`: the pages are the rows that are wanted
- `replayed`: what the listener is called for in a run, whatever the order in which the threads move
-/

namespace FixHandler.Market

/-- The field `contract` of a message -/
def Message.contract {Price : Type} : Message Price → String
  | .bbo contract .. | .bid contract _ | .offer contract _ | .trade contract .. |
    .turnover contract .. | .l2 contract .. => contract

end FixHandler.Market

namespace FixHandler.Tmalpha.ReplayDataConsumer

open Cxx (Float64)
open Json (Error getStr getSub)
open Market (Message render)
open Persist (Record Document Database Provider ContractInfo Readable readFrom lastMultiple)

/-! ## Rows in the database -/

/-- What the queries see of the document of a row: its `insertTime`, `sendingTimeStr` and `market`, and
    the `contract` of the message in it -/
def Row.record (row : Row) : Record where
  time := row.time
  sendingTimeStr := row.sendingTimeStr
  market := row.market
  contract := row.message.contract

/-- The rows of a collection: the clock has risen between any two of them, and its readings are
    nanoseconds of 19 digits. -/
structure Clocked (rows : List Row) : Prop where
  ascending : (rows.map (·.time)).Pairwise (· < ·)
  digits : ∀ row ∈ rows, 10 ^ 18 ≤ row.time ∧ row.time < 2 ^ 63

/-- The database holds the documents of some rows, and the contracts of their market. -/
structure Stores (db : Database) (content : Record → Json) (contracts : List ContractInfo)
    (rows : List Row) : Prop where
  documented : db.Documented (rows.map Row.record)
  contracts : db.SavesContracts (some contracts)
  content : ∀ row ∈ rows, content row.record = row.document

variable {rows : List Row} {db : Database} {content : Record → Json} {contracts : List ContractInfo}
  {pageSize : UInt32}

/-- A part of the rows -/
theorem Clocked.filter (h : Clocked rows) (p : Row → Bool) : Clocked (rows.filter p) :=
  ⟨h.ascending.sublist ((List.filter_sublist).map _), fun row hrow =>
    h.digits row (List.mem_of_mem_filter hrow)⟩

/-- There is such a database. -/
theorem Clocked.exists_stores (h : Clocked rows) (contracts : List ContractInfo) :
    ∃ db content, Stores db content contracts rows := by
  refine ⟨{ find := (Database.ofRecords (rows.map Row.record)).find
            findContracts := some fun ids => contracts.filter fun row => ids.contains row.instrumentID },
    fun r => ((rows.find? (·.time == r.time)).map Row.document).getD (.document []),
    Persist.documented_ofRecords _, rfl, fun row hrow => ?_⟩
  -- the row of a time is the only one
  have hdistinct : (rows.map (·.time)).Nodup := h.ascending.imp Nat.ne_of_lt
  have hsome : (rows.find? (·.time == row.time)).isSome :=
    List.find?_isSome.mpr ⟨row, hrow, beq_self_eq_true row.time⟩
  obtain ⟨found, hfound⟩ := Option.isSome_iff_exists.mp hsome
  have htime : found.time = row.time := by simpa using List.find?_some hfound
  have heq := List.inj_on_of_nodup_map hdistinct (List.mem_of_find?_eq_some hfound) hrow htime
  show ((rows.find? (·.time == row.time)).map Row.document).getD (.document []) = row.document
  rw [hfound, heq]
  rfl

/-- Rows are read without loss, whatever the size of the pages. -/
theorem Clocked.readable (h : Clocked rows) (n : Nat) : Readable n (rows.map Row.record) := by
  have hdigits {r : Record} (hr : r ∈ rows.map Row.record) : 10 ^ 18 ≤ r.time ∧ r.time < 2 ^ 63 := by
    obtain ⟨row, hrow, rfl⟩ := List.mem_map.mp hr
    exact h.digits row hrow
  refine ⟨fun r hr => ?_, fun a ha b hb hle => ?_, Paging.seamless_of_nodup ?_⟩
  · -- nineteen digits, and below the greatest message id
    have := hdigits hr
    omega
  · -- texts of the same length are ordered as the numbers
    cases Nat.lt_or_eq_of_le hle with
    | inl hlt =>
      have hb' := (hdigits hb).2
      exact (Nat.repr_lt_repr (k := 18) (hdigits ha).1 (by omega) hlt).le
    | inr heq => exact (congrArg Nat.repr heq).le
  · -- no two records share a time, so no page ends among equal times
    have htimes : (rows.map (·.time)).Nodup := h.ascending.imp Nat.ne_of_lt
    have htexts := htimes.map fun _ _ heq => Nat.repr_inj.mp heq
    rw [List.map_map] at htexts ⊢
    exact htexts

/-- A page is what a query returns, and is not empty. -/
theorem exists_query_of_mem {provider : Provider} {fuel : Nat} {prev : UInt64}
    {pages : List (List Document)} (h : readFrom db pageSize provider fuel prev = some pages)
    {page : List Document} (hpage : page ∈ pages) :
    page ≠ [] ∧ ∃ prev, page = provider.query db pageSize prev := by
  induction fuel generalizing prev pages with
  | zero =>
    rw [readFrom] at h
    cases h
  | succ fuel ih =>
    rw [readFrom] at h
    generalize hquery : provider.query db pageSize prev = messages at h
    cases hback : messages.getLast? with
    | none =>
      simp only [hback] at h
      cases h
      exact absurd hpage List.not_mem_nil
    | some back =>
      simp only [hback] at h
      -- the next page lies behind the last message of this one
      cases hidentify : Persist.messageIdentify back with
      | error e =>
        simp only [hidentify] at h
        cases h
      | ok lastMessage =>
        simp only [hidentify] at h
        obtain ⟨rest, hrest, rfl⟩ := Option.map_eq_some_iff.mp h
        cases List.mem_cons.mp hpage with
        | inl heq =>
          subst heq
          refine ⟨fun hnil => ?_, prev, hquery.symm⟩
          rw [hnil, List.getLast?_nil] at hback
          cases hback
        | inr hmem => exact ih hrest hmem

/-- What is given to the reader for a row -/
def Row.fetched (contracts : List ContractInfo) (row : Row) : Document where
  record := row.record
  volumeMultiple := some (lastMultiple contracts row.message.contract)

/-- The pages are the rows that are wanted, with the multiples of their contracts. -/
theorem exists_readFrom (hclock : Clocked rows) (hstores : Stores db content contracts rows)
    (hsize : 0 < pageSize) (market : String) (ids : List String) (start stop : String) :
    ∃ fuel pages, readFrom db pageSize (.replay market ids start stop) fuel 0 = some pages ∧
      [] ∉ pages ∧ pages.flatten =
        (rows.filter fun row => (Provider.replay market ids start stop).wants row.record).map
          (Row.fetched contracts) := by
  -- the filter of the query reads the record alone
  have hfilter : (rows.map Row.record).filter ((Provider.replay market ids start stop).wants ·) =
      (rows.filter fun row => (Provider.replay market ids start stop).wants row.record).map
        Row.record := List.filter_map
  have hwanted := hclock.filter fun row => (Provider.replay market ids start stop).wants row.record
  have hreadable := hwanted.readable pageSize.toNat
  rw [← hfilter] at hreadable
  obtain ⟨fuel, pages, hread, hperm, hsorted⟩ := hreadable.complete hstores.documented hsize
  refine ⟨fuel, pages, hread, fun hmem => (exists_query_of_mem hread hmem).1 rfl, ?_⟩
  rw [hfilter] at hperm
  generalize rows.filter _ = wanted at hperm hwanted
  -- the pages in order of time are the wanted rows in their order
  have hrecords : pages.flatten.map Document.record = wanted.map Row.record := by
    refine eq_map_of_perm ?_ hwanted.ascending hperm hsorted
    exact fun _ _ => Iff.rfl
  -- every page has the multiples of the contracts
  have hmultiple : ∀ d ∈ pages.flatten,
      (⟨d.record, some (lastMultiple contracts d.record.contract)⟩ : Document) = d := by
    intro d hd
    obtain ⟨page, hpage, hd⟩ := List.mem_flatten.mp hd
    obtain ⟨prev, rfl⟩ := (exists_query_of_mem hread hpage).2
    have hvolume := Persist.volumeMultiple_of_mem_queryMarket hstores.contracts hd
    cases d
    exact congrArg _ hvolume.symm
  calc pages.flatten
      = pages.flatten.map fun d => ⟨d.record, some (lastMultiple contracts d.record.contract)⟩ :=
        ((List.map_congr_left hmultiple).trans (List.map_id' _)).symm
    _ = (pages.flatten.map Document.record).map
          fun r => ⟨r, some (lastMultiple contracts r.contract)⟩ := by rw [List.map_map]; rfl
    _ = wanted.map (Row.fetched contracts) := by
        rw [hrecords, List.map_map]
        rfl

/-! ## What the listener is called for -/

/-- The call for a row, with the multiple of its contract -/
def Row.call (multiple : String → Int64) (row : Row) : Int32 × Option Call :=
  ((multiple row.message.contract).toInt32, some (.market row.message))

/-- What the consumer makes of the documents that it has taken from the queue -/
def consumeAll (content : Record → Json) (documents : List Document) :
    Except Error (List (Int32 × Option Call)) :=
  documents.mapM fun d => consume (d.message (content d.record))

/-- Every document that is fetched is handed on as the call of its row. -/
theorem consumeAll_fetched (hshown : ∀ row ∈ rows, row.message.map Float64.shown = row.message)
    (hsmall : ∀ row ∈ rows, row.message.Small)
    (hcontent : ∀ row ∈ rows, content row.record = row.document) {multiple : String → Int64}
    (hmultiple : ∀ row ∈ rows,
      Cxx.stol (lastMultiple contracts row.message.contract) = .ok (multiple row.message.contract)) :
    consumeAll content (rows.map (Row.fetched contracts)) = .ok (rows.map (Row.call multiple)) := by
  unfold consumeAll
  rw [Except.mapM_eq_ok, List.forall₂_map_left_iff, List.forall₂_map_right_iff, List.forall₂_same]
  intro row hrow
  show consume (Persist.addVolumeMultiple (lastMultiple contracts row.message.contract)
    (content row.record)) = .ok (row.call multiple)
  rw [hcontent row hrow]
  exact (consume_row (hshown row hrow) (hmultiple row hrow)).mpr ⟨hsmall row hrow, rfl⟩

open ReplayMonitor in
/-- In whatever order the threads move: the pages of a provider are consumed to the first of some calls,
    once each and in their order, and to all of them if the replayer has returned without being
    stopped. -/
def PlaysBack (db : Database) (content : Record → Json) (pageSize : UInt32) (provider : Provider)
    (calls : List (Int32 × Option Call)) : Prop :=
  ∃ fuel pages, readFrom db pageSize provider fuel 0 = some pages ∧
    ∀ s, Started pages s → ∀ moves, machine.Runs s moves →
      ∃ called, consumeAll content (machine.exec s moves).consumed = .ok called ∧ called <+: calls ∧
        ((machine.exec s moves).replayer = .returned → (machine.exec s moves).isStopped = false →
          called = calls)

/-- Whatever the size of the pages, the rows that are wanted are played back. -/
theorem replayed (hclock : Clocked rows)
    (hshown : ∀ row ∈ rows, row.message.map Float64.shown = row.message)
    (hsmall : ∀ row ∈ rows, row.message.Small) (hstores : Stores db content contracts rows)
    (multiple : String → Int64) (hmultiple : ∀ row ∈ rows,
      Cxx.stol (lastMultiple contracts row.message.contract) = .ok (multiple row.message.contract))
    (hsize : 0 < pageSize) (market : String) (ids : List String) (start stop : String) :
    PlaysBack db content pageSize (.replay market ids start stop)
      ((rows.filter fun row => (Provider.replay market ids start stop).wants row.record).map
        (Row.call multiple)) := by
  obtain ⟨fuel, pages, hread, hpages, hflatten⟩ :=
    exists_readFrom hclock hstores hsize market ids start stop
  refine ⟨fuel, pages, hread, fun s hs moves hruns => ?_⟩
  have hsub : ∀ row ∈ rows.filter fun row =>
      (Provider.replay market ids start stop).wants row.record, row ∈ rows := fun row hrow =>
    List.mem_of_mem_filter hrow
  generalize rows.filter _ = wanted at hsub hflatten ⊢
  obtain ⟨hfirst, hall⟩ := hs.consumed hruns
  rw [ReplayMonitor.stream_eq_flatten hpages, hflatten] at hfirst hall
  -- what is consumed is fetched for the first of the rows
  have htake : (ReplayMonitor.machine.exec s moves).consumed =
      (wanted.take (ReplayMonitor.machine.exec s moves).consumed.length).map (Row.fetched contracts) := by
    rw [List.map_take]
    exact List.prefix_iff_eq_take.mp hfirst
  generalize (ReplayMonitor.machine.exec s moves).consumed.length = n at htake
  have hmem : ∀ row ∈ wanted.take n, row ∈ rows := fun row hrow => hsub row (List.mem_of_mem_take hrow)
  refine ⟨(wanted.take n).map (Row.call multiple), ?_, ?_, fun hreturned hstopped => ?_⟩
  · rw [htake]
    exact consumeAll_fetched (fun row hrow => hshown row (hmem row hrow))
      (fun row hrow => hsmall row (hmem row hrow))
      (fun row hrow => hstores.content row (hmem row hrow)) fun row hrow => hmultiple row (hmem row hrow)
  · exact (List.take_prefix n wanted).map _
  · have hlen := congrArg List.length (htake.symm.trans (hall hreturned hstopped))
    rw [List.length_map, List.length_map, List.length_take] at hlen
    rw [List.take_of_length_le (by omega)]

end FixHandler.Tmalpha.ReplayDataConsumer
