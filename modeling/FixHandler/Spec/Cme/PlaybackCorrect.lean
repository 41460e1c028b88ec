import Mathlib
import FixHandler.Spec.Cme.MergeCorrect

/-!
# The playback of what the live path has stored

The playback searches all recovery books for a book that is not older, but only for
packets within the range of the numbers of the recovery books. The live path forwards
packets from the number of the first recovery message on, and this message may have no
books. Also, the live path makes no books of the order book messages of template 43, and
a blank one of a message without entries; the playback makes books of all entries, and
of nothing else.

## Key results

- `BookReplayer.run_eq`: the books that the playback applies
- `merge_agrees_iff`: the playback applies the books that the live path has applied,
  exactly if no packet before the first recovery book is about a security of the
  recovery books, and every entry of an order book message is discarded
-/

namespace FixHandler.Cme

open Cxx (OutOfRange)

namespace BookReplayer

/-- Applying a book changes the controller and sends, and nothing else. -/
theorem foldlM_applyBook_eq {s : BookReplayer} (h : s.bookStateController.Sound)
    (books : List Book) :
    ∃ c events, books.foldlM applyBook s =
        .ok { s with bookStateController := c, sent := s.sent ++ events } ∧ c.Sound := by
  induction books generalizing s with
  | nil => exact ⟨s.bookStateController, [], by rw [List.append_nil]; rfl, h⟩
  | cons b books ih =>
    obtain ⟨r, c, hc, hsound⟩ := h.modifyState b
    obtain ⟨c', events', hc', hsound'⟩ := ih (s := { s with
      bookStateController := c
      sent := s.sent ++ BookManager.bookEvents b r (s.contract b.securityID) }) hsound
    refine ⟨c', BookManager.bookEvents b r (s.contract b.securityID) ++ events', ?_, hsound'⟩
    rw [List.foldlM_cons, applyBook, hc]
    refine Eq.trans hc' ?_
    simp only [List.append_assoc]

/-- A recovery book is kept, and applied. -/
theorem foldlM_applyRecovery_eq {s : BookReplayer} (h : s.bookStateController.Sound)
    (books : List Book) :
    ∃ c events, books.foldlM applyRecovery s =
        .ok { s with
          bookStateController := c, recoveries := s.recoveries ++ books
          sent := s.sent ++ events } ∧ c.Sound := by
  induction books generalizing s with
  | nil =>
    exact ⟨s.bookStateController, [], by rw [List.append_nil, List.append_nil]; rfl, h⟩
  | cons b books ih =>
    -- a recovery book is applied and remembered
    obtain ⟨r, c, hc, hsound⟩ := h.modifyState b
    obtain ⟨c', events', hc', hsound'⟩ := ih (s := { s with
      bookStateController := c, recoveries := s.recoveries ++ [b]
      sent := s.sent ++ BookManager.bookEvents b r (s.contract b.securityID) }) hsound
    refine ⟨c', BookManager.bookEvents b r (s.contract b.securityID) ++ events', ?_, hsound'⟩
    rw [List.foldlM_cons, applyRecovery, applyBook, hc]
    refine Eq.trans hc' ?_
    simp only [List.append_assoc, List.singleton_append]

/-- A definition changes the definitions and the controller, and sends. -/
theorem parseDefinitions_eq (s : BookReplayer) (i : Instrument) :
    s.parseDefinitions i = s ∨
    ∃ instruments, s.parseDefinitions i = { s with
      bookStateController := s.bookStateController.createOrShrink i, instruments
      sent := s.sent ++ [.contractDefinition i] } := by
  unfold parseDefinitions
  split
  · exact .inl rfl
  · by_cases hdelete : (i.securityUpdateAction == 'D') = true
    · simp only [hdelete, if_true]
      exact .inr ⟨_, rfl⟩
    · simp only [hdelete]
      exact .inr ⟨_, rfl⟩

/-- The state of the playback: the recovery books so far, and the history. -/
structure Playing (s : BookReplayer) (recoveryBooks : List Book)
    (applied : List (Message × List Book)) : Prop where
  sound : s.bookStateController.Sound
  recoveries : s.recoveries = recoveryBooks
  applied : s.applied = applied

/-- Definitions, statuses and the like do not take part in the merge. -/
def passive (m : Message) : Bool :=
  match m.body with
  | .snapshot .. | .increment .. => false
  | _ => true

/-- A message that carries no book changes nothing that is played back. -/
private theorem Playing.passive {s : BookReplayer} {recoveryBooks : List Book}
    {applied : List (Message × List Book)} (h : s.Playing recoveryBooks applied) {m : Message}
    (hm : passive m = true) :
    ∃ s', s.applyMessage m = .ok s' ∧ s'.Playing recoveryBooks applied ∧
      s'.isFirstRecovery = s.isFirstRecovery := by
  unfold BookReplayer.passive at hm
  unfold applyMessage
  cases hbody : m.body with
  | definition i =>
    rcases s.parseDefinitions_eq i with hsame | ⟨instruments, heq⟩
    · exact ⟨s, congrArg Except.ok hsame, h, rfl⟩
    · exact ⟨_, congrArg Except.ok heq, ⟨h.sound.createOrShrink i, h.recoveries, h.applied⟩, rfl⟩
  | snapshot n id es => rw [hbody] at hm; exact nomatch hm
  | increment t es => rw [hbody] at hm; exact nomatch hm
  | status id st => exact ⟨_, rfl, ⟨h.sound, h.recoveries, h.applied⟩, rfl⟩
  | quoteRequest => exact ⟨_, rfl, h, rfl⟩
  | admin => exact ⟨_, rfl, h, rfl⟩

/-- A recovery message before the first increment adds its books. -/
private theorem Playing.snapshot {s : BookReplayer} {recoveryBooks : List Book}
    {applied : List (Message × List Book)} (h : s.Playing recoveryBooks applied)
    (hfirst : s.isFirstRecovery = true → recoveryBooks = []) {m : Message} {n id : UInt32}
    {es : List Book} (hm : m.body = .snapshot n id es) :
    ∃ s', s.applyMessage m = .ok s' ∧ s'.Playing (recoveryBooks ++ m.recoveryBooks) applied ∧
      s'.isFirstRecovery = false := by
  have hbooks : m.recoveryBooks = parseW n id es := by rw [Message.recoveryBooks, hm]
  rw [hbooks]
  unfold applyMessage
  rw [hm]
  show ∃ s', s.parseRecoveries n id es = .ok s' ∧ _
  unfold parseRecoveries
  -- the first snapshot after increments clears what was recovered
  cases hflag : s.isFirstRecovery with
  | true =>
    obtain ⟨c, events, hc, hsound⟩ := foldlM_applyRecovery_eq
      (s := { s with
        bookStateController := s.bookStateController.resetState
        recoveries := [], isFirstRecovery := false }) (BookStateController.sound_resetState _) (parseW n id es)
    refine ⟨_, hc, ⟨hsound, ?_, h.applied⟩, rfl⟩
    rw [hfirst hflag]
  | false =>
    obtain ⟨c, events, hc, hsound⟩ := foldlM_applyRecovery_eq h.sound (parseW n id es)
    refine ⟨_, hc, ⟨hsound, ?_, h.applied⟩, hflag⟩
    show s.recoveries ++ _ = _
    rw [h.recoveries]

/-- The books of an increment message that the playback applies. -/
def kept (recoveryBooks : List Book) (m : Message) : List Book :=
  match m.body with
  | .increment _ entries =>
    (entries.map fun b => { b with packetSeqNum := m.packetSeqNum, type := 'X' }).filter
      (!({ recoveries := recoveryBooks } : BookReplayer).discards m.packetSeqNum ·)
  | _ => []

/-- The history entry of a message. -/
def entry (recoveryBooks : List Book) (m : Message) : List (Message × List Book) :=
  match m.body with
  | .increment .. => [(m, kept recoveryBooks m)]
  | _ => []

/-- An increment is applied but for the entries that are discarded. -/
private theorem Playing.increment {s : BookReplayer} {recoveryBooks : List Book}
    {applied : List (Message × List Book)} (h : s.Playing recoveryBooks applied) {m : Message}
    {t : UInt16} {es : List Book} (hm : m.body = .increment t es) :
    ∃ s', s.applyMessage m = .ok s' ∧
      s'.Playing recoveryBooks (applied ++ [(m, kept recoveryBooks m)]) := by
  -- the entries are given the number of their packet, and the past ones are dropped
  have hkept : (es.map fun b => { b with packetSeqNum := m.packetSeqNum, type := 'X' }).filter
      (!s.discards m.packetSeqNum ·) = kept recoveryBooks m := by
    rw [kept, hm, ← h.recoveries]
    rfl
  unfold applyMessage
  rw [hm]
  obtain ⟨c, events, hc, hsound⟩ := foldlM_applyBook_eq
    (s := { s with
      isFirstRecovery := true, applied := s.applied ++ [(m, kept recoveryBooks m)] })
    h.sound (kept recoveryBooks m)
  refine ⟨{ s with
    bookStateController := c, isFirstRecovery := true, sent := s.sent ++ events
    applied := s.applied ++ [(m, kept recoveryBooks m)] }, ?_, hsound, h.recoveries, ?_⟩
  · show s.parseIncrements m es = _
    unfold parseIncrements
    simp only [hkept]
    exact hc
  · show s.applied ++ _ = _
    rw [h.applied]

/-- Whether a message is a recovery message. -/
def isSnapshot (m : Message) : Bool :=
  match m.body with
  | .snapshot .. => true
  | _ => false

/-- Definitions are played back first. -/
private theorem foldlM_definitions {s : BookReplayer} {recoveryBooks : List Book}
    {applied : List (Message × List Book)} (h : s.Playing recoveryBooks applied)
    {definitions : List Message} (hdef : ∀ m ∈ definitions, passive m = true) :
    ∃ s', definitions.foldlM applyMessage s = .ok s' ∧ s'.Playing recoveryBooks applied := by
  induction definitions generalizing s with
  | nil => exact ⟨s, rfl, h⟩
  | cons m definitions ih =>
    obtain ⟨s₁, hs₁, hplay, -⟩ := h.passive (hdef m List.mem_cons_self)
    obtain ⟨s₂, hs₂, hplay₂⟩ := ih hplay fun m' hm' => hdef m' (List.mem_cons_of_mem _ hm')
    refine ⟨s₂, ?_, hplay₂⟩
    rw [List.foldlM_cons, hs₁]
    exact hs₂

/-- The recoveries are collected while they are played back. -/
private theorem foldlM_recoveries {s : BookReplayer} {recoveryBooks : List Book}
    {applied : List (Message × List Book)} (h : s.Playing recoveryBooks applied)
    (hfirst : s.isFirstRecovery = true → recoveryBooks = [])
    {recoveries : List Message} (hrec : ∀ m ∈ recoveries, isSnapshot m = true) :
    ∃ s', recoveries.foldlM applyMessage s = .ok s' ∧
      s'.Playing (recoveryBooks ++ recoveryBooksOf recoveries) applied := by
  induction recoveries generalizing s recoveryBooks with
  | nil => exact ⟨s, rfl, by rwa [recoveryBooksOf, List.flatMap_nil, List.append_nil]⟩
  | cons m recoveries ih =>
    have hm := hrec m List.mem_cons_self
    unfold isSnapshot at hm
    cases hbody : m.body with
    | snapshot n id es =>
      -- only the first snapshot resets the data
      obtain ⟨s₁, hs₁, hplay, hflag⟩ := h.snapshot hfirst hbody
      obtain ⟨s₂, hs₂, hplay₂⟩ := ih hplay (fun h => by rw [hflag] at h; cases h)
        fun m' hm' => hrec m' (List.mem_cons_of_mem _ hm')
      refine ⟨s₂, ?_, ?_⟩
      · rw [List.foldlM_cons, hs₁]
        exact hs₂
      · rw [recoveryBooksOf, List.flatMap_cons, ← List.append_assoc]
        exact hplay₂
    | _ => rw [hbody] at hm; cases hm

/-- Each increment is played back against the recoveries. -/
private theorem foldlM_increments {s : BookReplayer} {recoveryBooks : List Book}
    {applied : List (Message × List Book)} (h : s.Playing recoveryBooks applied)
    {increments : List Message} (hincr : ∀ m ∈ increments, isSnapshot m = false) :
    ∃ s', increments.foldlM applyMessage s = .ok s' ∧
      s'.Playing recoveryBooks (applied ++ increments.flatMap (entry recoveryBooks)) := by
  induction increments generalizing s applied with
  | nil => exact ⟨s, rfl, by rwa [List.flatMap_nil, List.append_nil]⟩
  | cons m increments ih =>
    have hm := hincr m List.mem_cons_self
    -- a message without entries leaves no trace
    have hstep : ∃ s', s.applyMessage m = .ok s' ∧
        s'.Playing recoveryBooks (applied ++ entry recoveryBooks m) := by
      by_cases hpassive : BookReplayer.passive m = true
      · obtain ⟨s₁, hs₁, hplay, -⟩ := h.passive hpassive
        refine ⟨s₁, hs₁, ?_⟩
        unfold entry
        unfold BookReplayer.passive at hpassive
        cases hbody : m.body with
        | increment t es => rw [hbody] at hpassive; exact nomatch hpassive
        | _ => rwa [List.append_nil]
      · unfold entry
        unfold BookReplayer.passive at hpassive
        unfold isSnapshot at hm
        cases hbody : m.body with
        | increment t es => exact h.increment hbody
        | snapshot n id es => rw [hbody] at hm; exact nomatch hm
        | _ => rw [hbody] at hpassive; exact absurd rfl hpassive
    obtain ⟨s₁, hs₁, hplay⟩ := hstep
    obtain ⟨s₂, hs₂, hplay₂⟩ := ih hplay fun m' hm' => hincr m' (List.mem_cons_of_mem _ hm')
    refine ⟨s₂, ?_, ?_⟩
    · rw [List.foldlM_cons, hs₁]
      exact hs₂
    · rwa [List.flatMap_cons, ← List.append_assoc]

/-- The playback applies, of every increment message, the books that it does not find in
    the recovery data. -/
theorem run_eq {definitions recoveries increments : List Message}
    (hdef : ∀ m ∈ definitions, passive m = true) (hrec : ∀ m ∈ recoveries, isSnapshot m = true)
    (hincr : ∀ m ∈ increments, isSnapshot m = false) :
    ∃ s, run (definitions ++ recoveries ++ increments) = .ok s ∧
      s.applied = increments.flatMap (entry (recoveryBooksOf recoveries)) := by
  have hinit : Playing {} [] [] := ⟨.initial, rfl, rfl⟩
  obtain ⟨s₁, hs₁, h₁⟩ := foldlM_definitions hinit hdef
  obtain ⟨s₂, hs₂, h₂⟩ := foldlM_recoveries h₁ (fun _ => rfl) hrec
  obtain ⟨s₃, hs₃, h₃⟩ := foldlM_increments h₂ hincr
  refine ⟨s₃, ?_, h₃.applied⟩
  rw [run, List.foldlM_append, List.foldlM_append, hs₁]
  show (do
    let s ← recoveries.foldlM applyMessage s₁
    increments.foldlM applyMessage s) = _
  rw [hs₂]
  exact hs₃

end BookReplayer

/-! ## The two paths -/

/-- A message with entries has books for the live path, unless it is an order book message. -/
def Message.hasEntries (m : Message) : Bool :=
  match m.body with
  | .increment _ entries => !entries.isEmpty
  | _ => false

/-- The entries of an order book message, which the live path ignores. -/
def Message.orderBookEntries (m : Message) : List Book :=
  match m.body with
  | .increment templateId entries => if templateId == 43 then entries else []
  | _ => []

/-- A message of a packet before the first recovery book is about a security of the recovery
    books. -/
def HidesPast (recoveryBooks : List Book) (m : Message) : Prop :=
  m.hasEntries = true ∧ (∃ rb ∈ recoveryBooks.head?, m.packetSeqNum < rb.packetSeqNum) ∧
    ∃ b ∈ m.books, ∃ rb ∈ recoveryBooks, rb.securityID = b.securityID

/-- An entry of an order book message is not older than the recovery books of its security, or its
    packet is before the first recovery book. -/
def PlaysOrderBook (recoveryBooks : List Book) (m : Message) : Prop :=
  ∃ b ∈ m.orderBookEntries, (∃ rb ∈ recoveryBooks.head?, m.packetSeqNum < rb.packetSeqNum) ∨
    ¬ ∃ rb ∈ recoveryBooks, m.packetSeqNum ≤ rb.packetSeqNum ∧ rb.securityID = b.securityID

/-- A message without entries makes a blank book, which is not older than the recovery books of its
    security 0. -/
def MakesBlank (recoveryBooks : List Book) (m : Message) : Prop :=
  m.hasEntries = false ∧ ∃ b ∈ m.books,
    ¬ ∃ rb ∈ recoveryBooks, m.packetSeqNum ≤ rb.packetSeqNum ∧ rb.securityID = b.securityID

/-- What a history says: the messages of which books were applied, with these books. -/
def appliedBooks (applied : List (Message × List Book)) : List (Message × List Book) :=
  applied.filter (!·.2.isEmpty)

/-- On a book of packet `n` the search under the range test finds what the cursor finds, behind the
    first recovery book. -/
private theorem discards_iff {recoveryBooks : List Book}
    (hsorted : recoveryBooks.Pairwise (·.packetSeqNum ≤ ·.packetSeqNum)) {n : UInt32} {b : Book}
    (hb : b.packetSeqNum = n) :
    ({ recoveries := recoveryBooks } : BookReplayer).discards n b = true ↔
      ¬ (∃ rb ∈ recoveryBooks.head?, n < rb.packetSeqNum) ∧ Past recoveryBooks n b = true := by
  -- the search is for a recovery of the same contract that is not older
  have hsearch : (recoveryBooks.any fun rb =>
      decide (b.packetSeqNum ≤ rb.packetSeqNum) && b.securityID == rb.securityID) =
        Past recoveryBooks n b := by
    unfold Past
    rw [hb]
    congr 1
    funext rb
    rw [BEq.comm (a := b.securityID)]
  unfold BookReplayer.discards
  rw [hsearch]
  cases recoveryBooks with
  | nil =>
    -- without recovery books nothing is found
    have hpast : Past [] n b = false := rfl
    simp [hpast]
  | cons rb₀ rest =>
    -- the recoveries are in order, so that the last one has the greatest number
    have hlast : ∀ rb ∈ rb₀ :: rest, rb.packetSeqNum ≤
        ((rb₀ :: rest).getLast (List.cons_ne_nil _ _)).packetSeqNum := by
      intro rb hrb
      rw [← List.dropLast_append_getLast (List.cons_ne_nil rb₀ rest)] at hrb hsorted
      cases List.mem_append.mp hrb with
      | inl hrb => exact (List.pairwise_append.mp hsorted).2.2 rb hrb _ List.mem_cons_self
      | inr hrb =>
        rw [List.mem_singleton.mp hrb]
        exact UInt32.le_refl _
    have hlastSeq : BookReplayer.lastRecoverySeq { recoveries := rb₀ :: rest } =
        ((rb₀ :: rest).getLast (List.cons_ne_nil _ _)).packetSeqNum := by
      rw [BookReplayer.lastRecoverySeq, List.getLast?_eq_some_getLast (List.cons_ne_nil _ _)]
      rfl
    have hhead : (∃ rb ∈ (rb₀ :: rest).head?, n < rb.packetSeqNum) ↔ n < rb₀.packetSeqNum := by
      simp
    rw [hlastSeq, show BookReplayer.firstRecoverySeq { recoveries := rb₀ :: rest } =
      rb₀.packetSeqNum from rfl, hhead, UInt32.not_lt]
    simp only [Bool.and_eq_true, decide_eq_true_iff]
    constructor
    · rintro ⟨⟨hge, -⟩, hpast⟩
      exact ⟨hge, hpast⟩
    · rintro ⟨hge, hpast⟩
      -- what is found is within the range
      obtain ⟨rb, hrb, hle, -⟩ := past_iff.mp hpast
      exact ⟨⟨hge, UInt32.le_trans hle (hlast rb hrb)⟩, hpast⟩

/-- Before the first recovery book, the two differ on the securities of the recovery books. -/
private theorem discards_eq_past_iff {recoveryBooks : List Book}
    (hsorted : recoveryBooks.Pairwise (·.packetSeqNum ≤ ·.packetSeqNum)) {n : UInt32} {b : Book}
    (hb : b.packetSeqNum = n) :
    ({ recoveries := recoveryBooks } : BookReplayer).discards n b = Past recoveryBooks n b ↔
      ¬ ((∃ rb ∈ recoveryBooks.head?, n < rb.packetSeqNum) ∧
        ∃ rb ∈ recoveryBooks, rb.securityID = b.securityID) := by
  rw [Bool.eq_iff_iff, discards_iff hsorted hb, past_iff]
  constructor
  · rintro h ⟨hhead, rb, hrb, heq⟩
    obtain ⟨rb₀, hrb₀, hlt⟩ := hhead
    obtain ⟨rest, rfl⟩ := List.head?_eq_some_iff.mp hrb₀
    -- the first recovery has the smallest number
    have hfirst : rb₀.packetSeqNum ≤ rb.packetSeqNum := by
      cases List.mem_cons.mp hrb with
      | inl hsame =>
        rw [hsame]
        exact UInt32.le_refl _
      | inr hrb => exact (List.pairwise_cons.mp hsorted).1 rb hrb
    exact (h.mpr ⟨rb, hrb, UInt32.le_trans (UInt32.le_of_lt hlt) hfirst, heq⟩).1 ⟨rb₀, hrb₀, hlt⟩
  · intro h
    refine and_iff_right_of_imp fun hpast hhead => ?_
    obtain ⟨rb, hrb, -, heq⟩ := hpast
    exact h ⟨hhead, rb, hrb, heq⟩

/-- Two selections of a list agree exactly if they agree on every element. -/
private theorem filter_eq_filter_iff {α : Type} {p q : α → Bool} {l : List α} :
    l.filter p = l.filter q ↔ ∀ a ∈ l, p a = q a := by
  refine ⟨fun h a ha => ?_, fun h => List.filter_congr h⟩
  have hmem : a ∈ l.filter p ↔ a ∈ l.filter q := by rw [h]
  rw [List.mem_filter, List.mem_filter, and_iff_right ha, and_iff_right ha] at hmem
  exact Bool.eq_iff_iff.mpr hmem

section

variable {recoveryBooks : List Book} {m : Message}

/-- On a message with entries the two paths keep the same books exactly if it neither hides what is
    past nor plays an order book. -/
private theorem kept_eq_kept_iff
    (hsorted : recoveryBooks.Pairwise (·.packetSeqNum ≤ ·.packetSeqNum))
    (hm : m.hasEntries = true) :
    BookManager.kept recoveryBooks m = BookReplayer.kept recoveryBooks m ↔
      ¬ HidesPast recoveryBooks m ∧ ¬ PlaysOrderBook recoveryBooks m := by
  unfold HidesPast PlaysOrderBook Message.orderBookEntries
  rw [hm]
  unfold Message.hasEntries at hm
  cases hbody : m.body with
  | increment t es =>
    rw [hbody] at hm
    rw [Bool.not_eq_true'] at hm
    -- the playback reads the entries that the conversion stored
    have hreplay : BookReplayer.kept recoveryBooks m =
        (es.map fun b => { b with packetSeqNum := m.packetSeqNum, type := 'X' }).filter
          (!({ recoveries := recoveryBooks } : BookReplayer).discards m.packetSeqNum ·) := by
      rw [BookReplayer.kept, hbody]
    have hbooks : m.books = parseX m.packetSeqNum t es := by rw [Message.books, hbody]
    rw [hreplay, BookManager.kept, hbooks, parseX]
    dsimp only
    cases ht : t == 43 with
    | true =>
      -- the live path has no books, and the playback has to discard all of them
      simp only [if_true, List.filter_nil, List.not_mem_nil, false_and, exists_false, and_false,
        not_false_eq_true, true_and]
      rw [eq_comm, List.filter_eq_nil_iff]
      simp only [List.forall_mem_map, Bool.not_eq_true', Bool.not_eq_false]
      rw [not_exists]
      refine forall_congr' fun b => ?_
      rw [not_and]
      refine imp_congr_right fun _ => ?_
      have hdiscards := @discards_iff recoveryBooks hsorted m.packetSeqNum
        { b with packetSeqNum := m.packetSeqNum, type := 'X' } rfl
      rw [hdiscards, past_iff, not_or, not_not]
    | false =>
      simp only [Bool.false_eq_true, if_false, hm, List.not_mem_nil, false_and, exists_false,
        not_false_eq_true, and_true, true_and]
      rw [filter_eq_filter_iff]
      -- the entries have the number of their packet
      have hseq : ∀ b ∈ es.map fun b => { b with packetSeqNum := m.packetSeqNum, type := 'X' },
          b.packetSeqNum = m.packetSeqNum := by
        simp
      constructor
      · rintro h ⟨hhead, b, hb, hrb⟩
        exact (discards_eq_past_iff hsorted (hseq b hb)).mp (Bool.not_inj (h b hb)).symm
          ⟨hhead, hrb⟩
      · intro h b hb
        rw [(discards_eq_past_iff hsorted (hseq b hb)).mpr fun ⟨hhead, hrb⟩ =>
          h ⟨hhead, b, hb, hrb⟩]
  | _ =>
    rw [hbody] at hm
    cases hm

/-- Of a message without entries the playback has no books. -/
private theorem kept_of_no_entries (hm : m.hasEntries = false) :
    BookReplayer.kept recoveryBooks m = [] ∧ ¬ HidesPast recoveryBooks m ∧
      ¬ PlaysOrderBook recoveryBooks m := by
  unfold HidesPast PlaysOrderBook BookReplayer.kept Message.orderBookEntries
  rw [hm]
  unfold Message.hasEntries at hm
  cases hbody : m.body with
  | increment t es =>
    rw [hbody] at hm
    have hes : es = [] := by simpa using hm
    simp [hes]
  | _ => simp

/-- Of such a message the live path keeps nothing exactly if it makes no blank book that is not
    past. -/
private theorem kept_eq_nil_iff (hm : m.hasEntries = false) :
    BookManager.kept recoveryBooks m = [] ↔ ¬ MakesBlank recoveryBooks m := by
  unfold MakesBlank BookManager.kept
  rw [List.filter_eq_nil_iff, and_iff_right hm, not_exists]
  refine forall_congr' fun b => ?_
  rw [not_and, not_not, ← past_iff, Bool.not_eq_true', Bool.not_eq_false]

end

/-! ### Histories -/

/-- The messages of which something is kept, with what is kept of them -/
private def historyOf (kept : Message → List Book) (messages : List Message) :
    List (Message × List Book) :=
  messages.flatMap fun m => if (kept m).isEmpty then [] else [(m, kept m)]

section

variable {kept kept' : Message → List Book} {messages : List Message}

/-- What is in the history was kept of one of the messages. -/
private theorem mem_historyOf {e : Message × List Book} :
    e ∈ historyOf kept messages ↔ e.1 ∈ messages ∧ e.2 = kept e.1 ∧ e.2 ≠ [] := by
  unfold historyOf
  rw [List.mem_flatMap]
  constructor
  · rintro ⟨m, hm, he⟩
    split at he
    · cases he
    · next hne =>
      rw [List.mem_singleton.mp he]
      exact ⟨hm, rfl, by simpa using hne⟩
  · obtain ⟨m, books⟩ := e
    rintro ⟨hm, hbooks, hne⟩
    have hbooks : books = kept m := hbooks
    rw [hbooks] at hne ⊢
    exact ⟨m, hm, by rw [if_neg (by simpa using hne)]; exact List.mem_singleton_self _⟩

/-- The history depends on what is kept of the messages alone. -/
private theorem historyOf_congr (h : ∀ m ∈ messages, kept m = kept' m) :
    historyOf kept messages = historyOf kept' messages :=
  List.flatMap_congr fun m hm => by rw [h m hm]

/-- Two histories of the same messages agree exactly if the same is kept of every message. -/
private theorem historyOf_eq_iff :
    historyOf kept messages = historyOf kept' messages ↔ ∀ m ∈ messages, kept m = kept' m := by
  refine ⟨fun h m hm => ?_, historyOf_congr⟩
  have hmem : ∀ books, (m, books) ∈ historyOf kept messages ↔ (m, books) ∈ historyOf kept' messages :=
    fun books => by rw [h]
  simp only [mem_historyOf, hm, true_and] at hmem
  by_cases hnil : kept m = []
  · -- then nothing is kept on the other side either
    by_contra hne
    have hkept' : kept' m ≠ [] := fun h' => hne (hnil.trans h'.symm)
    exact hne ((hmem (kept' m)).mpr ⟨rfl, hkept'⟩).1.symm
  · exact ((hmem (kept m)).mp ⟨rfl, hnil⟩).1

/-- A part of the history is the history of a part of the messages. -/
private theorem filter_historyOf (p : Message → Bool) :
    (historyOf kept messages).filter (p ·.1) =
      historyOf (fun m => if p m then kept m else []) messages := by
  unfold historyOf
  rw [List.filter_flatMap]
  refine List.flatMap_congr fun m _ => ?_
  cases hp : p m <;> cases hk : (kept m).isEmpty <;> simp [hp, hk]

/-- A message of which nothing is kept may be left out. -/
private theorem historyOf_filter {p : Message → Bool}
    (h : ∀ m ∈ messages, p m = false → kept m = []) :
    historyOf kept (messages.filter p) = historyOf kept messages := by
  induction messages with
  | nil => rfl
  | cons m messages ih =>
    have ih := ih fun m' hm' => h m' (List.mem_cons_of_mem _ hm')
    unfold historyOf at ih ⊢
    cases hp : p m with
    | true => rw [List.filter_cons_of_pos hp, List.flatMap_cons, List.flatMap_cons, ih]
    | false =>
      rw [List.filter_cons_of_neg (by simp [hp]), List.flatMap_cons, ih,
        h m List.mem_cons_self hp]
      rfl

end

/-- The history of the live path -/
private theorem appliedBooks_live (recoveryBooks : List Book) (messages : List Message) :
    appliedBooks (messages.flatMap (BookManager.entry recoveryBooks)) =
      historyOf (BookManager.kept recoveryBooks) messages := by
  unfold appliedBooks historyOf
  rw [List.filter_flatMap]
  refine List.flatMap_congr fun m _ => ?_
  unfold BookManager.entry
  split
  · next hempty =>
    have hkept : BookManager.kept recoveryBooks m = [] := by
      rw [BookManager.kept, List.isEmpty_iff.mp hempty]
      rfl
    rw [hkept]
    rfl
  · cases hk : (BookManager.kept recoveryBooks m).isEmpty <;> simp [hk]

/-- The history of the playback -/
private theorem appliedBooks_replay (recoveryBooks : List Book) (messages : List Message) :
    appliedBooks (messages.flatMap (BookReplayer.entry recoveryBooks)) =
      historyOf (BookReplayer.kept recoveryBooks) messages := by
  unfold appliedBooks historyOf
  rw [List.filter_flatMap]
  refine List.flatMap_congr fun m _ => ?_
  unfold BookReplayer.entry
  cases hbody : m.body with
  | increment t es =>
    cases hk : (BookReplayer.kept recoveryBooks m).isEmpty <;> simp [hk]
  | _ =>
    unfold BookReplayer.kept
    rw [hbody]
    rfl

/-- Nothing is kept of a message that is not stored. -/
private theorem kept_of_not_serializes {recoveryBooks : List Book} {m : Message}
    (h : DatSaver.serializes m = false) : BookReplayer.kept recoveryBooks m = [] := by
  unfold DatSaver.serializes at h
  unfold BookReplayer.kept
  cases hbody : m.body with
  | increment t es =>
    rw [hbody] at h
    cases h
  | _ => rfl

/-- The live path applies the messages that have books. -/
private theorem BookManager.flatMap_entry {recoveryBooks : List Book} (messages : List Message) :
    messages.flatMap (BookManager.entry recoveryBooks) =
      (messages.filter fun m => !m.books.isEmpty).map
        fun m => (m, BookManager.kept recoveryBooks m) := by
  induction messages with
  | nil => rfl
  | cons m messages ih =>
    rw [List.flatMap_cons, ih]
    unfold BookManager.entry
    cases hm : m.books.isEmpty <;> simp [hm]

/-- The live path applies the books of the packets behind the first recovery message that no
    recovery book of their security is younger than. The playback of what is stored applies the same
    books of the entries exactly if none of these messages hides what is past or plays an order
    book; and it applies the same books altogether exactly if none makes a blank book either. -/
theorem merge_agrees_iff {definitions recoveries increments : List Message}
    (hdef : ∀ m ∈ definitions, BookReplayer.passive m = true)
    (hrec : ∀ m ∈ recoveries, BookReplayer.isSnapshot m = true)
    (hasc : DatSaver.Ascending recoveries)
    (hincr : ∀ m ∈ increments, BookReplayer.isSnapshot m = false)
    (hle : increments.Pairwise (·.packetSeqNum ≤ ·.packetSeqNum)) :
    ∃ live replay, DatSaver.run definitions recoveries increments = .ok live ∧
      BookReplayer.run live.stored = .ok replay ∧
      live.bookManager.applied =
        (increments.filter fun m =>
          decide (DatSaver.firstSeq recoveries < m.packetSeqNum) && !m.books.isEmpty).map
          (fun m => (m, m.books.filter (!Past (recoveryBooksOf recoveries) m.packetSeqNum ·))) ∧
      ((appliedBooks live.bookManager.applied).filter (·.1.hasEntries) =
          appliedBooks replay.applied ↔
        ∀ m ∈ increments, DatSaver.firstSeq recoveries < m.packetSeqNum →
          ¬ HidesPast (recoveryBooksOf recoveries) m ∧
            ¬ PlaysOrderBook (recoveryBooksOf recoveries) m) ∧
      (appliedBooks live.bookManager.applied = appliedBooks replay.applied ↔
        ∀ m ∈ increments, DatSaver.firstSeq recoveries < m.packetSeqNum →
          ¬ HidesPast (recoveryBooksOf recoveries) m ∧
            ¬ PlaysOrderBook (recoveryBooksOf recoveries) m ∧
            ¬ MakesBlank (recoveryBooksOf recoveries) m) := by
  obtain ⟨live, hlive, happlied, hstored⟩ := @DatSaver.run_eq definitions _ _ hasc hle
  -- what is converted are the increments after the first recovery
  have hforward : ∀ m, m ∈ increments.filter (DatSaver.converts (DatSaver.firstSeq recoveries)) ↔
      m ∈ increments ∧ DatSaver.firstSeq recoveries < m.packetSeqNum := fun m => by
    rw [List.mem_filter, DatSaver.converts, decide_eq_true_iff]
  obtain ⟨replay, hreplay, hreapplied⟩ := @BookReplayer.run_eq
    (definitions.filter DatSaver.serializes) (recoveries.filter DatSaver.serializes)
    ((increments.filter (DatSaver.converts (DatSaver.firstSeq recoveries))).filter
      DatSaver.serializes)
    (fun m hm => hdef m (List.mem_of_mem_filter hm))
    (fun m hm => hrec m (List.mem_of_mem_filter hm))
    fun m hm => hincr m (List.mem_of_mem_filter (List.mem_of_mem_filter hm))
  -- every recovery is stored, as it is a snapshot
  have hsnapshots : recoveries.filter DatSaver.serializes = recoveries := by
    refine List.filter_eq_self.mpr fun m hm => ?_
    have hm := hrec m hm
    unfold BookReplayer.isSnapshot at hm
    unfold DatSaver.serializes
    cases hbody : m.body with
    | snapshot n id es => rfl
    | _ =>
      rw [hbody] at hm
      cases hm
  rw [hsnapshots] at hreplay hreapplied
  have hsorted := DatSaver.recoveryBooksOf_sorted hasc
  refine ⟨live, replay, hlive, ?_, ?_, ?_, ?_⟩
  · rw [hstored, List.filter_append, hsnapshots]
    exact hreplay
  · rw [happlied, BookManager.flatMap_entry, List.filter_filter]
    refine congrArg _ (List.filter_congr fun m _ => ?_)
    exact Bool.and_comm _ _
  · -- both histories are compared message by message
    rw [happlied, hreapplied, appliedBooks_live, appliedBooks_replay,
      historyOf_filter fun m _ => kept_of_not_serializes, filter_historyOf, historyOf_eq_iff]
    simp only [hforward, and_imp]
    refine forall₃_congr fun m _ _ => ?_
    cases hm : m.hasEntries with
    | true => exact kept_eq_kept_iff hsorted hm
    | false =>
      obtain ⟨hkept, hnot⟩ := @kept_of_no_entries (recoveryBooksOf recoveries) m hm
      exact iff_of_true hkept.symm hnot
  · rw [happlied, hreapplied, appliedBooks_live, appliedBooks_replay,
      historyOf_filter fun m _ => kept_of_not_serializes, historyOf_eq_iff]
    simp only [hforward, and_imp]
    refine forall₃_congr fun m _ _ => ?_
    cases hm : m.hasEntries with
    | true =>
      -- a message with entries makes no blank
      have hblank : ¬ MakesBlank (recoveryBooksOf recoveries) m := fun h =>
        Bool.noConfusion (h.1.symm.trans hm)
      rw [kept_eq_kept_iff hsorted hm, and_iff_left hblank]
    | false =>
      obtain ⟨hkept, hhides, hplays⟩ :=
        @kept_of_no_entries (recoveryBooksOf recoveries) m hm
      rw [hkept, kept_eq_nil_iff hm, and_iff_right hhides, and_iff_right hplays]

private def bid (securityID : UInt32) : Book :=
  { packetSeqNum := 0, type := 'X', securityID, mDEntryType := .bid, mDPriceLevel := 1 }

/-- The first recovery message has no entries, the second one is about security 2. -/
private def emptyFirst : List Message := [⟨0, .snapshot 10 1 []⟩, ⟨0, .snapshot 20 2 [bid 2]⟩]

/-- A packet behind the recovery books is not hidden. -/
theorem merge_agrees_behind : ∃ live replay,
    DatSaver.run [] emptyFirst [⟨25, .increment 32 [bid 2]⟩] = .ok live ∧
      BookReplayer.run live.stored = .ok replay ∧
      appliedBooks live.bookManager.applied = appliedBooks replay.applied := by
  obtain ⟨live, replay, hlive, hreplay, -, -, hagree⟩ :=
    @merge_agrees_iff [] emptyFirst [⟨25, .increment 32 [bid 2]⟩]
      (by decide) (by decide) (by decide +kernel) (by decide) (by decide)
  refine ⟨live, replay, hlive, hreplay, hagree.mpr fun m hm _ => ?_⟩
  rw [List.mem_singleton.mp hm]
  refine ⟨fun h => ?_, fun h => ?_, fun h => Bool.noConfusion h.1⟩
  · obtain ⟨-, ⟨rb, hrb, hlt⟩, -⟩ := h
    cases hrb
    exact absurd hlt (by decide)
  · obtain ⟨b, hb, -⟩ := h
    cases hb

/-- Packet 15 is past for security 2, which the live path finds and the playback does not. -/
theorem hidden_packet_played :
    DatSaver.Ascending emptyFirst ∧
    (DatSaver.run [] emptyFirst [⟨15, .increment 32 [bid 2]⟩]).map (·.bookManager.applied) =
      .ok [(⟨15, .increment 32 [bid 2]⟩, [])] ∧
    ((DatSaver.run [] emptyFirst [⟨15, .increment 32 [bid 2]⟩]).bind fun live =>
      (BookReplayer.run live.stored).map (·.applied)) =
      .ok [(⟨15, .increment 32 [bid 2]⟩, [{ bid 2 with packetSeqNum := 15 }])] := by
  exact ⟨by decide +kernel, by decide +kernel, by decide +kernel⟩

/-- An order book message behind the recovery books is played, too. -/
example :
    (DatSaver.run [] emptyFirst [⟨25, .increment 43 [bid 2]⟩]).map (·.bookManager.applied) =
      .ok [] ∧
    ((DatSaver.run [] emptyFirst [⟨25, .increment 43 [bid 2]⟩]).bind fun live =>
      (BookReplayer.run live.stored).map (·.applied)) =
      .ok [(⟨25, .increment 43 [bid 2]⟩, [{ bid 2 with packetSeqNum := 25 }])] := by
  exact ⟨by decide +kernel, by decide +kernel⟩

end FixHandler.Cme
