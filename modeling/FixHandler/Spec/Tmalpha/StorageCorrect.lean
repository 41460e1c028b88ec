import Mathlib
import FixHandler.Spec.Tmalpha.ConsumeCorrect

/-!
# Documents that are stored and replayed

The documents of a stream carry their order in their `insertTime` only. Where the clock has risen
between any two of them, the documents ordered by it are the documents in the order in which they were
made, and the consumer calls its listener with what was sent for the stream.

## Key results

- `eq_of_perm`: documents in the order of their `insertTime` are those that were made, in their order
- `replays_iff`: what is called for documents in this order
- `convertAll_rows`: the documents that are made of a stream
-/

namespace FixHandler.Tmalpha.ReplayDataConsumer

open Cxx (Float64)
open Json (Error getStr getStr_eq)
open Market (Message TradeMap BookConvert Published render)
open Persist (addVolumeMultiple)

/-! ## Rows -/

/-- A message that is stored, the time of its document, and the fields that are stored with it -/
structure Row where
  time : Nat
  market : String
  sendingTime : String
  sendingTimeStr : String
  message : Message Float64

/-- The document that the converter makes of the row -/
def Row.document (row : Row) : Json :=
  BookConvert.document row.market (render row.message).1 row.time.repr row.sendingTime
    row.sendingTimeStr (render row.message).2

/-- The rows of messages that are stored in turn -/
def rows (market sendingTime sendingTimeStr : String) (clock : Nat → Nat) :
    Nat → List (Message Float64) → List Row
  | _, [] => []
  | readings, message :: messages =>
    { time := clock readings, market, sendingTime, sendingTimeStr, message } ::
      rows market sendingTime sendingTimeStr clock (readings + 1) messages

section

variable (market sendingTime sendingTimeStr : String) (clock : Nat → Nat) (readings : Nat)
  (messages : List (Message Float64))

/-- The rows stand for the messages. -/
theorem map_message_rows :
    (rows market sendingTime sendingTimeStr clock readings messages).map (·.message) = messages := by
  induction messages generalizing readings with
  | nil => rfl
  | cons m messages ih => rw [rows, List.map_cons, ih]

/-- The clock is read once for every row. -/
theorem map_time_rows :
    (rows market sendingTime sendingTimeStr clock readings messages).map (·.time) =
      (List.range' readings messages.length).map clock := by
  induction messages generalizing readings with
  | nil => rfl
  | cons m messages ih =>
    rw [rows, List.map_cons, ih, List.length_cons, List.range'_succ, List.map_cons]

/-- The rows are saved as the documents of the converter. -/
theorem map_document_rows :
    (rows market sendingTime sendingTimeStr clock readings messages).map Row.document =
      (BookConvert.documents market sendingTime sendingTimeStr clock readings
        (messages.map render)).map (·.2) := by
  induction messages generalizing readings with
  | nil => rfl
  | cons m messages ih =>
    rw [rows, List.map_cons, ih]
    rfl

end

/-! ## The order of the documents -/

/-- The `insertTime` of a document is not after that of another. -/
def NotAfter (a b : Json) : Prop :=
  ∃ s t : Nat, getStr (some a) "insertTime" = .ok s.repr ∧
    getStr (some b) "insertTime" = .ok t.repr ∧ s ≤ t

/-- The documents are in the order of their insert times. -/
theorem notAfter_document {row row' : Row} :
    NotAfter row.document row'.document ↔ row.time ≤ row'.time := by
  have htime (row : Row) : getStr (some row.document) "insertTime" = .ok row.time.repr := rfl
  constructor
  · rintro ⟨s, t, hs, ht, hle⟩
    rw [htime, Except.ok.injEq, Nat.repr_inj] at hs ht
    omega
  · exact fun hle => ⟨row.time, row'.time, htime row, htime row', hle⟩

/-- What is made of rows and put in the order of their times is in the order in which it was made. -/
theorem eq_map_of_perm {α : Type} {make : Row → α} {le : α → α → Prop}
    (hle : ∀ row row', le (make row) (make row') ↔ row.time ≤ row'.time) {rows : List Row}
    (htimes : (rows.map (·.time)).Pairwise (· < ·)) {stored : List α}
    (hperm : stored.Perm (rows.map make)) (hstored : stored.Pairwise le) :
    stored = rows.map make := by
  have hdistinct : (rows.map (·.time)).Nodup := htimes.imp Nat.ne_of_lt
  rw [List.pairwise_map] at htimes
  refine List.Perm.eq_of_pairwise (fun a b ha hb hab hba => ?_) hstored ?_ hperm
  · -- rows of one time are one row
    obtain ⟨row, hrow, rfl⟩ := List.mem_map.mp (hperm.mem_iff.mp ha)
    obtain ⟨row', hrow', rfl⟩ := List.mem_map.mp hb
    have htime := Nat.le_antisymm ((hle _ _).mp hab) ((hle _ _).mp hba)
    rw [List.inj_on_of_nodup_map hdistinct hrow hrow' htime]
  · rw [List.pairwise_map]
    exact htimes.imp fun h => (hle _ _).mpr (Nat.le_of_lt h)

/-- Documents in the order of their `insertTime` are those that were made, in their order. -/
theorem eq_of_perm {rows : List Row} (htimes : (rows.map (·.time)).Pairwise (· < ·))
    {stored : List Json} (hperm : stored.Perm (rows.map Row.document))
    (hstored : stored.Pairwise NotAfter) : stored = rows.map Row.document :=
  eq_map_of_perm (fun _ _ => notAfter_document) htimes hperm hstored

/-! ## Replaying -/

/-- However documents get their `VolumeMultiple`, in the order of their `insertTime` they are consumed
    without an exception to the messages in their order. -/
def Replays (documents : List Json) (messages : List (Message Float64)) : Prop :=
  ∀ stored : List (Json × String), (stored.map (·.1)).Perm documents →
    (stored.map (·.1)).Pairwise NotAfter → (∀ s ∈ stored, ∃ multiple, Cxx.stol s.2 = .ok multiple) →
    ∃ calls, stored.mapM (fun s => consume (addVolumeMultiple s.2 s.1)) = .ok calls ∧
      calls.map (·.2) = messages.map fun m => some (.market m)

/-- A document is consumed as the call of its message, where its volume is small. -/
theorem consume_row {row : Row} (hrow : row.message.map Float64.shown = row.message)
    {volumeMultiple : String} {multiple : Int64} (hmultiple : Cxx.stol volumeMultiple = .ok multiple)
    {call : Int32 × Option Call} :
    consume (addVolumeMultiple volumeMultiple row.document) = .ok call ↔
      row.message.Small ∧ call = (multiple.toInt32, some (.market row.message)) := by
  rw [Row.document, consume_document, hmultiple, hrow, Except.mapError, Except.ok_bind]
  split
  · next hsmall => exact ⟨fun h => ⟨hsmall, (Except.ok.inj h).symm⟩, fun h => congrArg _ h.2.symm⟩
  · next hsmall => exact ⟨(nomatch ·), fun h => absurd h.1 hsmall⟩

/-- Documents are replayed if all sizes in them can be read. -/
theorem replays_iff {rows : List Row} (htimes : (rows.map (·.time)).Pairwise (· < ·))
    (hrows : ∀ row ∈ rows, row.message.map Float64.shown = row.message) :
    Replays (rows.map Row.document) (rows.map (·.message)) ↔ ∀ row ∈ rows, row.message.Small := by
  constructor
  · intro h row hrow
    obtain ⟨multiple, hmultiple⟩ : ∃ multiple, Cxx.stol "1" = .ok multiple :=
      ⟨1, by decide +kernel⟩
    -- the documents as they were made, all with the same `VolumeMultiple`
    have hmap : (rows.map fun row => (row.document, "1")).map (·.1) = rows.map Row.document :=
      List.map_map
    have hsorted : (rows.map Row.document).Pairwise NotAfter := by
      rw [List.pairwise_map] at htimes ⊢
      exact htimes.imp fun h => notAfter_document.mpr (Nat.le_of_lt h)
    rw [← hmap] at hsorted
    obtain ⟨calls, hcalls, -⟩ := h _ (List.Perm.of_eq hmap) hsorted fun s hs => by
      obtain ⟨_, -, rfl⟩ := List.mem_map.mp hs
      exact ⟨multiple, hmultiple⟩
    rw [Except.mapM_eq_ok] at hcalls
    obtain ⟨call, -, hcall⟩ := hcalls.exists_of_mem (List.mem_map_of_mem hrow)
    exact ((consume_row (hrows row hrow) hmultiple).mp hcall).1
  · -- sorted by time, the documents are those of the rows in their order
    intro hsmall stored hperm hstored hmultiple
    have heq := eq_of_perm htimes hperm hstored
    clear htimes hperm hstored
    simp only [Except.mapM_eq_ok]
    induction rows generalizing stored with
    | nil =>
      rw [List.map_nil, List.map_eq_nil_iff] at heq
      exact ⟨[], heq ▸ .nil, rfl⟩
    | cons row rows ih =>
      obtain ⟨s, stored, rfl, hs, hrest⟩ := List.map_eq_cons_iff.mp heq
      obtain ⟨multiple, hm⟩ := hmultiple s List.mem_cons_self
      obtain ⟨calls, hcalls, hmap⟩ := ih (fun row' h => hrows row' (List.mem_cons_of_mem row h))
        (fun row' h => hsmall row' (List.mem_cons_of_mem row h)) stored
        (fun s' h => hmultiple s' (List.mem_cons_of_mem s h)) hrest
      refine ⟨(multiple.toInt32, some (.market row.message)) :: calls, .cons ?_ hcalls, ?_⟩
      · rw [hs]
        exact (consume_row (hrows row List.mem_cons_self) hm).mpr
          ⟨hsmall row List.mem_cons_self, rfl⟩
      · rw [List.map_cons, hmap]
        rfl

/-! ## The documents of a stream -/

/-- The documents of a stream are those of the messages that are sent live, with the times at which
    they were made. -/
theorem convertAll_rows {Record : Type} {market : String}
    {convert : BookConvert → Json → Except Error (List (String × Json) × BookConvert)}
    {send : TradeMap → Record → List (Message Float64) × TradeMap} {publish : Published Record → Json}
    {clock : Nat → Nat} {stream : List (Published Record)}
    (hstep : ∀ p ∈ stream, ∀ converter : BookConvert, ∃ sendingTime sendingTimeStr,
      convert converter (publish p) = .ok
        (BookConvert.documents market sendingTime sendingTimeStr clock converter.readings
          ((send converter.trademap p.record).1.map render),
        { trademap := (send converter.trademap p.record).2
          readings := converter.readings + (send converter.trademap p.record).1.length }))
    (converter : BookConvert) :
    ∃ results, ∃ rows : List Row, Market.convertAll convert converter (stream.map publish) = .ok results ∧
      results.flatten.map (·.2) = rows.map Row.document ∧
      rows.map (·.message) =
        (Market.sendAll send converter.trademap (stream.map (·.record))).flatten ∧
      rows.map (·.time) = (List.range' converter.readings rows.length).map clock := by
  induction stream generalizing converter with
  | nil => exact ⟨[], [], rfl, rfl, rfl, rfl⟩
  | cons p stream ih =>
    obtain ⟨sendingTime, sendingTimeStr, hconvert⟩ := hstep p List.mem_cons_self converter
    generalize hsend : send converter.trademap p.record = sent at hconvert
    obtain ⟨messages, trademap⟩ := sent
    obtain ⟨results, rest, hresults, hdocuments, hmessages, htimes⟩ :=
      ih (fun p' hp' => hstep p' (List.mem_cons_of_mem p hp'))
        { trademap, readings := converter.readings + messages.length }
    -- one row for every message of the record
    have hlength : (rows market sendingTime sendingTimeStr clock converter.readings
        messages).length = messages.length := by
      rw [← List.length_map (f := (·.message)), map_message_rows]
    refine ⟨BookConvert.documents market sendingTime sendingTimeStr clock converter.readings
        (messages.map render) :: results,
      rows market sendingTime sendingTimeStr clock converter.readings messages ++ rest, ?_, ?_, ?_, ?_⟩
    · rw [List.map_cons, Market.convertAll, hconvert, Except.ok_bind]
      dsimp only
      rw [hresults]
      rfl
    · rw [List.flatten_cons, List.map_append, hdocuments, List.map_append, map_document_rows]
    · rw [List.map_append, map_message_rows, hmessages, List.map_cons, Market.sendAll, hsend,
        List.flatten_cons]
    · rw [List.map_append, map_time_rows, htimes, List.length_append, hlength, ← List.map_append,
        List.range'_append_1]

end FixHandler.Tmalpha.ReplayDataConsumer
