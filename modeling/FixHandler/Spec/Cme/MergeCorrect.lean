import Mathlib
import FixHandler.ForStd.Except
import FixHandler.ForStd.List
import FixHandler.Native.Cme.BookReplayer
import FixHandler.Native.Cme.DatSaver
import FixHandler.Spec.Cme.BookStateCorrect

/-!
# Merging increments with the recovery data

The live path moves a cursor over the recovery books and deletes by security from
there on; the playback searches all recovery books, under a test of the range of
their numbers. Both delete the books of a packet whose security has a recovery book
that is not older. They differ where the recovery data begin with a message without
entries, for then the range begins after the number from which on messages are
forwarded.

## Key results

- `removePastBooks_eq`: what the cursor deletes, for recovery books that do not go back
- `DatSaver.run_eq`: the books that the live path applies
-/

namespace FixHandler.Cme

open Cxx (OutOfRange)

/-- A book of packet `n` is older than a recovery book of its security. -/
def Past (recoveryBooks : List Book) (n : UInt32) (b : Book) : Bool :=
  recoveryBooks.any fun rb => decide (n ≤ rb.packetSeqNum) && rb.securityID == b.securityID

/-- An entry is past if a recovery of its contract is not older. -/
theorem past_iff {recoveryBooks : List Book} {n : UInt32} {b : Book} :
    Past recoveryBooks n b = true ↔
      ∃ rb ∈ recoveryBooks, n ≤ rb.packetSeqNum ∧ rb.securityID = b.securityID := by
  simp [Past]

/-- The books of recovery messages. -/
def recoveryBooksOf (recoveries : List Message) : List Book :=
  recoveries.flatMap (·.recoveryBooks)

/-- The books of an increment message on the live path. -/
def Message.books (m : Message) : List Book :=
  match m.body with
  | .increment templateId entries => parseX m.packetSeqNum templateId entries
  | _ => []

namespace BookManager

/-! ## The cursor -/

/-- Filtering for one recovery after the other is filtering for all of them. -/
private theorem foldl_filter {rest books : List Book} :
    rest.foldl (fun books pos => books.filter (!·.securityID == pos.securityID)) books =
      books.filter fun b => !rest.any (·.securityID == b.securityID) := by
  induction rest generalizing books with
  | nil => simp
  | cons pos rest ih =>
    rw [List.foldl_cons, ih, List.filter_filter]
    refine List.filter_congr fun b _ => ?_
    rw [List.any_cons, Bool.not_or, Bool.and_comm, BEq.comm (a := b.securityID)]

/-- From a cursor that has passed only older records the merge deletes the past books, and
    the cursor again passes only records older than the message. -/
theorem removePastBooks_eq {s : BookManager} {n : UInt32} {books : List Book}
    (hsorted : s.recoveryBooks.Pairwise (·.packetSeqNum ≤ ·.packetSeqNum))
    (hpassed : ∀ rb ∈ s.recoveryBooks.take s.recoveryWaitMerge, rb.packetSeqNum < n) :
    ∃ w, s.removePastBooks n books =
        (books.filter (!Past s.recoveryBooks n ·), { s with recoveryWaitMerge := w }) ∧
      ∀ rb ∈ s.recoveryBooks.take w, rb.packetSeqNum < n := by
  unfold removePastBooks
  split
  · next hdone =>
    refine ⟨s.recoveryWaitMerge, ?_, hpassed⟩
    congr 1
    rw [Bool.or_eq_true, beq_iff_eq, List.isEmpty_iff] at hdone
    rcases hdone with hend | hnil
    · -- all records are older
      rw [List.take_of_length_le (Nat.le_of_eq hend.symm)] at hpassed
      refine (List.filter_eq_self.mpr fun b _ => ?_).symm
      rw [Bool.not_eq_true', Bool.eq_false_iff, ne_eq, past_iff]
      rintro ⟨rb, hrb, hle, -⟩
      exact UInt32.not_le.mpr (hpassed rb hrb) hle
    · rw [hnil]
      rfl
  · -- the records up to the new cursor are older, those from there on are not
    generalize hp : (fun rb : Book => decide (rb.packetSeqNum < n)) = p
    have hpn : ∀ rb, p rb = true ↔ rb.packetSeqNum < n := fun rb => by
      rw [← hp, decide_eq_true_iff]
    have hdrop := List.drop_length_takeWhile p (s.recoveryBooks.drop s.recoveryWaitMerge)
    have htake := List.take_length_takeWhile p (s.recoveryBooks.drop s.recoveryWaitMerge)
    rw [List.drop_drop] at hdrop
    -- the cursor passes recoveries that are older than the message
    have hnew : ∀ rb ∈ s.recoveryBooks.take (s.recoveryWaitMerge +
        ((s.recoveryBooks.drop s.recoveryWaitMerge).takeWhile p).length), rb.packetSeqNum < n := by
      intro rb hrb
      rw [List.take_add, htake, List.mem_append] at hrb
      rcases hrb with hrb | hrb
      · exact hpassed rb hrb
      · exact (hpn rb).mp (List.mem_takeWhile_imp hrb)
    refine ⟨_, ?_, hnew⟩
    simp only [hdrop]
    rw [foldl_filter]
    congr 1
    refine List.filter_congr fun b _ => ?_
    congr 1
    rw [Bool.eq_iff_iff, List.any_eq_true, past_iff]
    -- the recoveries are in order, so that none behind the cursor is older
    have hkeep : (s.recoveryBooks.drop s.recoveryWaitMerge).Pairwise
        fun a b => p b = true → p a = true :=
      (hsorted.sublist (List.drop_sublist _ _)).imp fun {a b} hle hb =>
        (hpn a).mpr (UInt32.lt_of_le_of_lt hle ((hpn b).mp hb))
    constructor
    · -- behind the cursor nothing is older than the message
      rintro ⟨rb, hrb, heq⟩
      have hnot := List.not_of_mem_dropWhile hkeep hrb
      refine ⟨rb, List.drop_subset _ _ ((List.dropWhile_sublist p).subset hrb), ?_, eq_of_beq heq⟩
      exact UInt32.not_lt.mp fun hlt => by
        rw [(hpn rb).mpr hlt] at hnot
        exact nomatch hnot
    · rintro ⟨rb, hrb, hle, heq⟩
      refine ⟨rb, ?_, beq_iff_eq.mpr heq⟩
      rw [← List.take_append_drop (s.recoveryWaitMerge +
        ((s.recoveryBooks.drop s.recoveryWaitMerge).takeWhile p).length) s.recoveryBooks,
        List.mem_append, hdrop] at hrb
      exact hrb.resolve_left fun hmem => UInt32.not_le.mpr (hnew rb hmem) hle

/-! ## The books that are applied -/

/-- Applying a book changes the controller and sends, and nothing else. -/
theorem applyBook_eq {s : BookManager} (h : s.bookStateController.Sound) (b : Book) :
    ∃ c events, s.applyBook b =
        .ok { s with bookStateController := c, sent := s.sent ++ events } ∧ c.Sound := by
  obtain ⟨r, c, hc, hsound⟩ := h.modifyState b
  refine ⟨c, bookEvents b r (s.getSymbol b.securityID), ?_, hsound⟩
  rw [applyBook, hc]
  rfl

/-- Applying entries changes the books, and nothing of the merging. -/
theorem foldlM_applyBook_eq {s : BookManager} (h : s.bookStateController.Sound)
    (books : List Book) :
    ∃ c events, books.foldlM applyBook s =
        .ok { s with bookStateController := c, sent := s.sent ++ events } ∧ c.Sound := by
  induction books generalizing s with
  | nil => exact ⟨s.bookStateController, [], by rw [List.append_nil]; rfl, h⟩
  | cons b books ih =>
    obtain ⟨c, events, hc, hsound⟩ := applyBook_eq h b
    obtain ⟨c', events', hc', hsound'⟩ := ih (s := { s with
      bookStateController := c, sent := s.sent ++ events }) hsound
    refine ⟨c', events ++ events', ?_, hsound'⟩
    rw [List.foldlM_cons, hc]
    show books.foldlM applyBook _ = _
    rw [hc', List.append_assoc]

/-- What is kept over the messages of the live path: the recovery books, which the cursor
    has passed as far as they are older than what comes, and the history. -/
structure Merging (s : BookManager) (recoveryBooks : List Book)
    (applied : List (Message × List Book)) (rest : List Message) : Prop where
  sound : s.bookStateController.Sound
  recoveryBooks : s.recoveryBooks = recoveryBooks
  passed : ∀ rb ∈ s.recoveryBooks.take s.recoveryWaitMerge, ∀ m ∈ rest,
    rb.packetSeqNum < m.packetSeqNum
  applied : s.applied = applied

/-- The books of a message that the live path applies. -/
def kept (recoveryBooks : List Book) (m : Message) : List Book :=
  m.books.filter (!Past recoveryBooks m.packetSeqNum ·)

/-- The history entry of a message. -/
def entry (recoveryBooks : List Book) (m : Message) : List (Message × List Book) :=
  if m.books.isEmpty then [] else [(m, kept recoveryBooks m)]

/-- A definition keeps the books right. -/
theorem updateDefinition_sound {s : BookManager} (h : s.bookStateController.Sound)
    (i : Instrument) : (s.updateDefinition i).bookStateController.Sound := by
  unfold updateDefinition
  split
  · exact h
  · exact h.createOrShrink i

/-- Parsing a message keeps what the merge depends on. -/
private theorem Merging.parseIncrement {s : BookManager} {recoveryBooks : List Book}
    {applied : List (Message × List Book)} {rest : List Message}
    (h : s.Merging recoveryBooks applied rest) (m : Message) :
    (s.parseIncrement m).1 = m.books ∧
      (s.parseIncrement m).2.Merging recoveryBooks applied rest := by
  unfold BookManager.parseIncrement Message.books
  cases hbody : m.body with
  | status id st => exact ⟨rfl, ⟨h.sound, h.recoveryBooks, h.passed, h.applied⟩⟩
  | definition i =>
    refine ⟨rfl, ⟨updateDefinition_sound h.sound i, ?_, ?_, ?_⟩⟩
    · -- a definition does not touch the recoveries
      show (s.updateDefinition i).recoveryBooks = _
      unfold updateDefinition
      split <;> exact h.recoveryBooks
    · show ∀ rb ∈ (s.updateDefinition i).recoveryBooks.take
        (s.updateDefinition i).recoveryWaitMerge, _
      unfold updateDefinition
      split <;> exact h.passed
    · show (s.updateDefinition i).applied = _
      unfold updateDefinition
      split <;> exact h.applied
  -- the other messages leave the state
  | quoteRequest => exact ⟨rfl, h⟩
  | increment t es => exact ⟨rfl, h⟩
  | snapshot n id es => exact ⟨rfl, h⟩
  | admin => exact ⟨rfl, h⟩

/-- A message of the live path, and what it leaves for those that come after it. -/
theorem Merging.parseToSend {s : BookManager} {recoveryBooks : List Book}
    {applied : List (Message × List Book)} {m : Message} {rest : List Message}
    (h : s.Merging recoveryBooks applied (m :: rest))
    (hsorted : recoveryBooks.Pairwise (·.packetSeqNum ≤ ·.packetSeqNum))
    (hrest : ∀ m' ∈ rest, m.packetSeqNum ≤ m'.packetSeqNum) :
    ∃ s', s.parseToSend m = .ok s' ∧
      s'.Merging recoveryBooks (applied ++ entry recoveryBooks m) rest := by
  obtain ⟨hbooks, hparsed⟩ := h.parseIncrement m
  unfold BookManager.parseToSend
  generalize s.parseIncrement m = parsed at hbooks hparsed
  obtain ⟨books, s⟩ := parsed
  simp only at hbooks hparsed
  subst hbooks
  unfold entry
  by_cases hempty : m.books.isEmpty = true
  · simp only [hempty, if_true, List.append_nil]
    exact ⟨s, rfl, hparsed.sound, hparsed.recoveryBooks,
      fun rb hrb m' hm' => hparsed.passed rb hrb m' (List.mem_cons_of_mem _ hm'),
      hparsed.applied⟩
  · simp only [hempty]
    -- the past entries are removed before the others are applied
    obtain ⟨w, hremove, hpassed⟩ := @removePastBooks_eq s m.packetSeqNum m.books
      (hparsed.recoveryBooks ▸ hsorted)
      (fun rb hrb => hparsed.passed rb hrb m List.mem_cons_self)
    rw [hremove]
    obtain ⟨c, events, hfold, hsound⟩ := foldlM_applyBook_eq
      (s := { s with
        recoveryWaitMerge := w
        applied := s.applied ++ [(m, m.books.filter (!Past s.recoveryBooks m.packetSeqNum ·))] })
      hparsed.sound (m.books.filter (!Past s.recoveryBooks m.packetSeqNum ·))
    refine ⟨_, hfold, hsound, hparsed.recoveryBooks, fun rb hrb m' hm' => ?_, ?_⟩
    · exact UInt32.lt_of_lt_of_le (hpassed rb hrb) (hrest m' hm')
    · show s.applied ++ _ = _
      rw [hparsed.applied, hparsed.recoveryBooks]
      rfl

/-- Applying the recovery books succeeds. -/
private theorem applyRecoveryBooks_eq {c : BookStateController} (h : c.Sound) (books : List Book)
    (changed : List UInt32) :
    ∃ changed' c', applyRecoveryBooks c changed books = .ok (changed', c') ∧ c'.Sound := by
  induction books generalizing c changed with
  | nil => exact ⟨changed, c, rfl, h⟩
  | cons b books ih =>
    obtain ⟨r, c', hc, hsound⟩ := h.modifyState b
    rw [applyRecoveryBooks, hc]
    cases r with
    | bookState state => cases state <;> exact ih hsound _
    | _ => exact ih hsound _

/-- Setting the recovery data starts the merge. -/
theorem setRecoveryData_eq {s : BookManager} (h : s.bookStateController.Sound)
    (hbooks : s.recoveryBooks = []) (happlied : s.applied = []) (recoveries rest : List Message) :
    ∃ s', s.setRecoveryData recoveries = .ok s' ∧
      s'.Merging (recoveryBooksOf recoveries) [] rest := by
  obtain ⟨changed, c, hc, hsound⟩ :=
    applyRecoveryBooks_eq h (s.recoveryBooks ++ recoveryBooksOf recoveries) []
  have hset : ∃ events, s.setRecoveryData recoveries = .ok { s with
      recoveryBooks := s.recoveryBooks ++ recoveryBooksOf recoveries, recoveryWaitMerge := 0
      bookStateController := c, sent := s.sent ++ events } := by
    unfold setRecoveryData
    simp only
    rw [show recoveries.flatMap (·.recoveryBooks) = recoveryBooksOf recoveries from rfl, hc]
    exact ⟨_, rfl⟩
  obtain ⟨events, hset⟩ := hset
  refine ⟨_, hset, hsound, ?_, fun rb hrb => ?_, happlied⟩
  · show s.recoveryBooks ++ _ = _
    rw [hbooks, List.nil_append]
  · exact absurd hrb List.not_mem_nil

/-- The definitions leave the recoveries and the history. -/
theorem setDefinitionData_eq {s : BookManager} (h : s.bookStateController.Sound)
    (definitions : List Message) :
    (s.setDefinitionData definitions).bookStateController.Sound ∧
      (s.setDefinitionData definitions).recoveryBooks = s.recoveryBooks ∧
      (s.setDefinitionData definitions).applied = s.applied := by
  induction definitions generalizing s with
  | nil => exact ⟨h, rfl, rfl⟩
  | cons m definitions ih =>
    rw [setDefinitionData, List.foldl_cons]
    split
    · next i _ =>
      have hstep := ih (updateDefinition_sound h i)
      have hframe : (s.updateDefinition i).recoveryBooks = s.recoveryBooks ∧
          (s.updateDefinition i).applied = s.applied := by
        unfold updateDefinition
        split <;> exact ⟨rfl, rfl⟩
      exact ⟨hstep.1, hstep.2.1.trans hframe.1, hstep.2.2.trans hframe.2⟩
    · exact ih h

end BookManager

/-! ## The live path -/

namespace DatSaver

/-- The number up to which increments are dropped. -/
def firstSeq (recoveries : List Message) : UInt32 :=
  (recoveries.head?.bind lastMsgSeqNumProcessed?).getD 0

/-- Whether an increment is converted. -/
def converts (first : UInt32) (m : Message) : Bool := first < m.packetSeqNum

/-- What is sent to be stored is appended. -/
private theorem foldl_sendMessage (s : DatSaver) (messages : List Message) :
    messages.foldl sendMessage s = { s with stored := s.stored ++ messages.filter serializes } := by
  induction messages generalizing s with
  | nil => simp
  | cons m messages ih =>
    rw [List.foldl_cons, ih]
    unfold sendMessage
    cases hm : serializes m <;> simp [hm]

/-- A turn of the loop. -/
private theorem saveMessage_eq {s : DatSaver} {recoveryBooks : List Book}
    {applied : List (Message × List Book)} {m : Message} {rest : List Message}
    (h : s.bookManager.Merging recoveryBooks applied (m :: rest))
    (hsorted : recoveryBooks.Pairwise (·.packetSeqNum ≤ ·.packetSeqNum))
    (hrest : ∀ m' ∈ rest, m.packetSeqNum ≤ m'.packetSeqNum) :
    ∃ s', s.saveMessage m = .ok s' ∧ s'.recoveryFirstSeq = s.recoveryFirstSeq ∧
      s'.bookManager.Merging recoveryBooks (applied ++
        ([m].filter (converts s.recoveryFirstSeq)).flatMap (BookManager.entry recoveryBooks))
        rest ∧
      s'.stored = s.stored ++ ([m].filter (converts s.recoveryFirstSeq)).filter serializes := by
  unfold saveMessage convertMessage
  by_cases hn : m.packetSeqNum ≤ s.recoveryFirstSeq
  · -- a message from before the recovery is passed over
    have hconv : ¬ converts s.recoveryFirstSeq m = true := fun h =>
      UInt32.not_lt.mpr hn (of_decide_eq_true h)
    rw [if_pos hn, List.filter_cons_of_neg hconv]
    simp only [List.filter_nil, List.flatMap_nil, List.append_nil]
    exact ⟨s, rfl, rfl, { h with
      passed := fun rb hrb m' hm' => h.passed rb hrb m' (List.mem_cons_of_mem _ hm') }, rfl⟩
  · have hconv : converts s.recoveryFirstSeq m = true := decide_eq_true (UInt32.not_le.mp hn)
    rw [if_neg hn, List.filter_cons_of_pos hconv]
    simp only [List.filter_nil, List.flatMap_singleton]
    -- a later message is parsed, and stored if it can be
    obtain ⟨bookManager, hparse, hmerging⟩ := h.parseToSend hsorted hrest
    rw [hparse]
    refine ⟨sendMessage { s with bookManager } m, rfl, ?_, ?_, ?_⟩
    · unfold sendMessage
      split <;> rfl
    · unfold sendMessage
      split <;> exact hmerging
    · unfold sendMessage
      cases hm : serializes m <;> simp [hm]

/-- The increments are saved one after the other. -/
private theorem foldlM_saveMessage_eq {s : DatSaver} {recoveryBooks : List Book}
    {applied : List (Message × List Book)} {increments : List Message}
    (h : s.bookManager.Merging recoveryBooks applied increments)
    (hsorted : recoveryBooks.Pairwise (·.packetSeqNum ≤ ·.packetSeqNum))
    (hincr : increments.Pairwise (·.packetSeqNum ≤ ·.packetSeqNum)) :
    ∃ s', increments.foldlM saveMessage s = .ok s' ∧
      s'.bookManager.applied = applied ++
        (increments.filter (converts s.recoveryFirstSeq)).flatMap
          (BookManager.entry recoveryBooks) ∧
      s'.stored = s.stored ++
        (increments.filter (converts s.recoveryFirstSeq)).filter serializes := by
  induction increments generalizing s applied with
  | nil =>
    refine ⟨s, rfl, ?_, ?_⟩
    · rw [h.applied]
      simp
    · simp
  | cons m increments ih =>
    rw [List.pairwise_cons] at hincr
    obtain ⟨s₁, hs₁, hfirst, hmerging, hstored⟩ := saveMessage_eq h hsorted hincr.1
    obtain ⟨s₂, hs₂, happlied₂, hstored₂⟩ := ih hmerging hincr.2
    rw [← List.singleton_append (l := increments), List.filter_append, List.flatMap_append,
      List.filter_append]
    refine ⟨s₂, ?_, ?_, ?_⟩
    · rw [List.singleton_append, List.foldlM_cons, hs₁]
      exact hs₂
    · rw [happlied₂, hfirst, List.append_assoc]
    · rw [hstored₂, hstored, hfirst, List.append_assoc]

/-- The recovery messages do not go back. -/
def Ascending (recoveries : List Message) : Prop :=
  recoveries.Pairwise fun a b => ∀ m ∈ lastMsgSeqNumProcessed? a,
    ∀ n ∈ lastMsgSeqNumProcessed? b, m ≤ n

instance : DecidablePred Ascending :=
  have : DecidableRel fun a b : Message => ∀ m ∈ lastMsgSeqNumProcessed? a,
      ∀ n ∈ lastMsgSeqNumProcessed? b, m ≤ n := fun _ _ =>
    -- not by trying every number
    @Option.decidableForallMem _ _ (fun _ => Option.decidableForallMem _) _
  fun recoveries => List.instDecidablePairwise recoveries

/-- The recovery books follow the order of their messages. -/
theorem recoveryBooksOf_sorted {recoveries : List Message} (h : Ascending recoveries) :
    (recoveryBooksOf recoveries).Pairwise (·.packetSeqNum ≤ ·.packetSeqNum) := by
  -- all entries of a snapshot carry its last number
  have hseq : ∀ m : Message, ∀ b ∈ m.recoveryBooks,
      b.packetSeqNum ∈ lastMsgSeqNumProcessed? m := by
    intro m b hb
    unfold Message.recoveryBooks at hb
    unfold lastMsgSeqNumProcessed?
    cases hbody : m.body with
    | snapshot n id es =>
      rw [hbody] at hb
      obtain ⟨e, -, rfl⟩ := List.mem_map.mp hb
      rfl
    | _ => rw [hbody] at hb; exact absurd hb List.not_mem_nil
  rw [recoveryBooksOf, List.pairwise_flatMap]
  refine ⟨fun m _ => List.pairwise_of_forall_mem_list fun b hb b' hb' => ?_,
    h.imp fun {m m'} hle b hb b' hb' => ?_⟩
  · rw [Option.mem_unique (hseq m b hb) (hseq m b' hb')]
    exact UInt32.le_refl _
  · exact hle _ (hseq m b hb) _ (hseq m' b' hb')

/-- The live path applies, of every increment after the first recovery number, the books
    that are not past; and it forwards these increments behind the recovery data. -/
theorem run_eq {definitions recoveries increments : List Message} (hrec : Ascending recoveries)
    (hincr : increments.Pairwise (·.packetSeqNum ≤ ·.packetSeqNum)) :
    ∃ s, run definitions recoveries increments = .ok s ∧
      s.bookManager.applied = (increments.filter (converts (firstSeq recoveries))).flatMap
        (BookManager.entry (recoveryBooksOf recoveries)) ∧
      s.stored = (definitions ++ recoveries).filter serializes ++
        (increments.filter (converts (firstSeq recoveries))).filter serializes := by
  obtain ⟨hsound, hbooks, happlied⟩ :=
    BookManager.setDefinitionData_eq (s := {}) .initial definitions
  obtain ⟨bookManager, hset, hmerging⟩ :=
    BookManager.setRecoveryData_eq hsound hbooks happlied recoveries increments
  -- the definitions and the recoveries are stored first
  have hprocess : processRecoveryData {} definitions recoveries = .ok
      { bookManager, recoveryFirstSeq := firstSeq recoveries
        stored := (definitions ++ recoveries).filter serializes } := by
    unfold processRecoveryData
    simp only
    rw [hset]
    show Except.ok (List.foldl sendMessage _ _) = _
    rw [foldl_sendMessage]
    rfl
  obtain ⟨s, hs, hsapplied, hstored⟩ := foldlM_saveMessage_eq
    (s := { bookManager, recoveryFirstSeq := firstSeq recoveries
            stored := (definitions ++ recoveries).filter serializes }) hmerging
    (recoveryBooksOf_sorted hrec) hincr
  refine ⟨s, ?_, by rw [hsapplied, List.nil_append], hstored⟩
  rw [run, hprocess]
  exact hs

end DatSaver

end FixHandler.Cme
