import Mathlib
import FixHandler.Native.Tmalpha.ReplayMonitor

/-!
# Whether the reader and the replayer come to an end

A thread that waits is woken by the other thread only. The last notification of the reader is
lost if the replayer has seen that the data goes on, and is not waiting yet. The replayer sends
no notification when it sees that it is stopped, so that a reader that waits then, or is on its
way to its wait, is left there.

## Key results

- `Careful`: the moves after which no thread is left waiting
- `Inv`: what careful moves keep
- `Doomed`: what any other move brings about
- `never_stuck_iff`: runs of careful moves come to an end, and no others do
-/

namespace FixHandler.Tmalpha

namespace ReplayMonitor

variable {α : Type} {s s' : ReplayMonitor α}

/-- One thread waits, and the other one waits as well or has returned. -/
def Stuck (s : ReplayMonitor α) : Prop :=
  s.reader = .waiting ∧ (s.replayer = .waiting ∨ s.replayer = .returned) ∨
    s.replayer = .waiting ∧ s.reader = .returned

/-- Both threads have returned, so that `Join` returns. -/
def Joined (s : ReplayMonitor α) : Prop := s.reader = .returned ∧ s.replayer = .returned

/-- None of the threads can go on. -/
def Complete (s : ReplayMonitor α) : Prop :=
  ¬ machine.guard s .reader ∧ ¬ machine.guard s .replayer

/-! ## Careful moves -/

/-- The reader comes to its wait without another test of the loop. -/
def ReaderWillWait (s : ReplayMonitor α) : Prop :=
  match s.reader with
  | .query => ∃ batch rest, s.batches = batch :: rest ∧ batch ≠ []
  | .lock _ | .push _ | .notify | .wait | .waiting => True
  | _ => False

/-- The replayer comes to its wait, if no message comes and the end is not reported before. -/
def ReplayerWillWait (s : ReplayMonitor α) : Prop :=
  match s.replayer with
  | .lock | .look | .checkEnd => s.messages = [] ∧ s.isFetchEnd = false
  | .wait => True
  | _ => False

/-- The replayer does not see that it is stopped while the reader is on its way to its wait, or
    is waiting, and the reader does not send its last notification while the replayer is on its
    way to its wait. -/
def Careful (s : ReplayMonitor α) : Thread → Prop
  | .reader => s.reader = .lastNotify → ¬ s.ReplayerWillWait
  | .replayer => s.replayer = .test → s.isStopped = true → ¬ s.ReaderWillWait
  | .stopper => True

/-! ## What careful moves keep -/

/-- The places of the reader at which it holds the mutex. -/
def ReaderAt.Holds : ReaderAt α → Prop
  | .push _ | .notify | .wait | .unlock => True
  | _ => False

/-- The places of the replayer at which it holds the mutex. -/
def ReplayerAt.Holds : ReplayerAt → Prop
  | .look | .consume | .size | .checkEnd | .wait | .unlock | .leave => True
  | _ => False

/-- A thread holds the mutex exactly at the places between its lock and its unlock. -/
structure Locked (s : ReplayMonitor α) : Prop where
  reader : s.mutex = some .reader ↔ ReaderAt.Holds s.reader
  replayer : s.mutex = some .replayer ↔ ReplayerAt.Holds s.replayer
  stopper : s.mutex ≠ some .stopper

/-- The reader takes the lock with messages in hand only. -/
structure Hands (s : ReplayMonitor α) : Prop where
  lock : ∀ b, s.reader = .lock b → b ≠ []
  push : ∀ b, s.reader = .push b → b ≠ []

/-- The reader ends behind the data or when it is stopped, and the replayer leaves its lock
    behind the data only. -/
structure Flags (s : ReplayMonitor α) : Prop where
  fetch_end : s.isFetchEnd = true → s.reader = .lastNotify ∨ s.reader = .returned
  last : s.reader = .lastNotify ∨ s.reader = .returned → s.isFetchEnd = true ∨ s.isStopped = true
  leave : s.replayer = .leave → s.isFetchEnd = true

/-- The reader waits only while there are messages, or a notification is to come, and the
    replayer waits only while there are none. -/
structure Waits (s : ReplayMonitor α) : Prop where
  consume : s.replayer = .consume → s.messages ≠ []
  empty : s.replayer = .checkEnd ∨ s.replayer = .wait → s.messages = []
  messages : s.reader = .notify ∨ s.reader = .wait ∨ s.reader = .waiting →
    s.messages ≠ [] ∨ s.replayer = .size
  notified : s.reader = .wait ∨ s.reader = .waiting → s.replayer ≠ .waiting

/-- What careful moves keep: a thread that has returned leaves nobody waiting. -/
structure Ends (s : ReplayMonitor α) : Prop where
  replayer : s.replayer = .returned → s.isFetchEnd = true ∨ s.isStopped = true ∧ ¬ s.ReaderWillWait
  reader : s.reader = .returned → ¬ s.ReplayerWillWait ∧ s.replayer ≠ .waiting

attribute [local grind =] ReaderAt.Holds ReplayerAt.Holds ReaderWillWait ReplayerWillWait Careful
  notifyReplayer notifyReader

/-- The reader keeps the mutex as its place says. -/
theorem Locked.read (h : s.Locked) (hs : s.read = some s') : s'.Locked := by
  obtain ⟨hreader, hreplayer, hstopper⟩ := h
  revert hs
  fun_cases ReplayMonitor.read s <;> intro hs <;> cases hs
  all_goals constructor <;> grind -ring -linarith

/-- So does the replayer. -/
theorem Locked.replay (h : s.Locked) (hs : s.replay = some s') : s'.Locked := by
  obtain ⟨hreader, hreplayer, hstopper⟩ := h
  revert hs
  fun_cases ReplayMonitor.replay s <;> intro hs <;> cases hs
  all_goals constructor <;> grind -ring -linarith

/-- The reader keeps the batch in its hand. -/
theorem Hands.read (h : s.Hands) (hs : s.read = some s') : s'.Hands := by
  obtain ⟨hlock, hpush⟩ := h
  revert hs
  fun_cases ReplayMonitor.read s <;> intro hs <;> cases hs
  all_goals constructor <;> grind -ring -linarith

/-- The replayer leaves it. -/
theorem Hands.replay (h : s.Hands) (hs : s.replay = some s') : s'.Hands := by
  obtain ⟨hlock, hpush⟩ := h
  revert hs
  fun_cases ReplayMonitor.replay s <;> intro hs <;> cases hs
  all_goals constructor <;> grind -ring -linarith

/-- The reader sets its flags in order. -/
theorem Flags.read (h : s.Flags) (hs : s.read = some s') : s'.Flags := by
  obtain ⟨hfetch, hlast, hleave⟩ := h
  revert hs
  fun_cases ReplayMonitor.read s <;> intro hs <;> cases hs
  all_goals constructor <;> grind -ring -linarith

/-- The replayer leaves them. -/
theorem Flags.replay (h : s.Flags) (hs : s.replay = some s') : s'.Flags := by
  obtain ⟨hfetch, hlast, hleave⟩ := h
  revert hs
  fun_cases ReplayMonitor.replay s <;> intro hs <;> cases hs
  all_goals constructor <;> grind -ring -linarith

/-- After a move of the reader nobody waits without reason. -/
theorem Waits.read (h : s.Waits) (hhands : s.Hands) (hlocked : s.Locked)
    (hs : s.read = some s') : s'.Waits := by
  obtain ⟨hconsume, hempty, hmessages, hnotified⟩ := h
  have hpush := hhands.push
  obtain ⟨hreader, hreplayer, -⟩ := hlocked
  revert hs
  fun_cases ReplayMonitor.read s <;> intro hs <;> cases hs
  all_goals constructor <;> grind -ring -linarith [List.append_eq_nil_iff]

/-- So it is after a move of the replayer. -/
theorem Waits.replay (h : s.Waits) (hhands : s.Hands) (hlocked : s.Locked)
    (hs : s.replay = some s') : s'.Waits := by
  obtain ⟨hconsume, hempty, hmessages, hnotified⟩ := h
  have hpush := hhands.push
  obtain ⟨hreader, hreplayer, -⟩ := hlocked
  revert hs
  fun_cases ReplayMonitor.replay s <;> intro hs <;> cases hs
  all_goals constructor <;> grind -ring -linarith

/-- A careful move of the reader loses no notification. -/
theorem Ends.read (h : s.Ends) (hflags : s.Flags)
    (hcareful : s.Careful .reader) (hs : s.read = some s') : s'.Ends := by
  obtain ⟨hreplayer, hreader⟩ := h
  obtain ⟨hfetch, hlast, hleave⟩ := hflags
  revert hs
  fun_cases ReplayMonitor.read s <;> intro hs <;> cases hs
  all_goals constructor <;> grind -ring -linarith

/-- A careful move of the replayer loses no notification. -/
theorem Ends.replay (h : s.Ends) (hflags : s.Flags) (hwaits : s.Waits)
    (hcareful : s.Careful .replayer) (hs : s.replay = some s') : s'.Ends := by
  obtain ⟨hreplayer, hreader⟩ := h
  obtain ⟨-, hempty, hmessages, hnotified⟩ := hwaits
  obtain ⟨hfetch, hlast, hleave⟩ := hflags
  revert hs
  fun_cases ReplayMonitor.replay s <;> intro hs <;> cases hs
  all_goals constructor <;> grind -ring -linarith

/-- The four together. -/
structure Inv (s : ReplayMonitor α) : Prop where
  locked : s.Locked
  hands : s.Hands
  flags : s.Flags
  waits : s.Waits

/-- The threads start with the invariant. -/
theorem Inv.start {place : ReplayerAt} (hplace : place = .sleep ∨ place = .test)
    (batches : List (List α)) : Inv { replayer := place, batches } := by
  rcases hplace with rfl | rfl <;> refine ⟨?_, ?_, ?_, ?_⟩ <;> constructor <;>
    simp [ReaderAt.Holds, ReplayerAt.Holds]

/-- Whoever moves. -/
theorem Inv.step (h : s.Inv) {t : Thread} (hs : s.step t = some s') : s'.Inv := by
  cases t with
  | reader =>
    exact ⟨h.locked.read hs, h.hands.read hs, h.flags.read hs, h.waits.read h.hands h.locked hs⟩
  | replayer =>
    exact ⟨h.locked.replay hs, h.hands.replay hs, h.flags.replay hs,
      h.waits.replay h.hands h.locked hs⟩
  | stopper =>
    cases hs
    refine ⟨⟨h.locked.reader, h.locked.replayer, h.locked.stopper⟩, ⟨h.hands.lock, h.hands.push⟩, ?_,
      ⟨h.waits.consume, h.waits.empty, h.waits.messages, h.waits.notified⟩⟩
    exact ⟨h.flags.fetch_end, fun _ => .inr rfl, h.flags.leave⟩

/-- Careful moves lose no notification. -/
theorem Ends.step (h : s.Ends) (hinv : s.Inv) {t : Thread} (hcareful : s.Careful t)
    (hs : s.step t = some s') : s'.Ends := by
  cases t with
  | reader => exact h.read hinv.flags hcareful hs
  | replayer => exact h.replay hinv.flags hinv.waits hcareful hs
  | stopper =>
    cases hs
    refine ⟨fun hreturned => ?_, h.reader⟩
    exact (h.replayer hreturned).imp_right fun hstopped => ⟨rfl, hstopped.2⟩

/-- Both threads never wait at the same time, and after careful moves none waits for one that
    has returned. -/
theorem Ends.not_stuck (h : s.Ends) (hinv : s.Inv) : ¬ s.Stuck := by
  rintro (⟨hreader, hreplayer | hreplayer⟩ | ⟨hreplayer, hreader⟩)
  · exact hinv.waits.notified (.inr hreader) hreplayer
  · rcases h.replayer hreplayer with hend | ⟨-, hnot⟩
    · rcases hinv.flags.fetch_end hend with hplace | hplace <;> rw [hreader] at hplace <;>
        exact nomatch hplace
    · rw [ReaderWillWait, hreader] at hnot
      exact hnot trivial
  · exact (h.reader hreader).2 hreplayer

/-- When the reader cannot move -/
theorem read_eq_none (h : s.read = none) :
    s.reader = .waiting ∨ s.reader = .returned ∨ s.mutex ≠ none ∧ ¬ ReaderAt.Holds s.reader := by
  revert h
  fun_cases ReplayMonitor.read s <;> intro h <;> grind -ring -linarith

/-- When the replayer cannot move -/
theorem replay_eq_none (h : s.replay = none) :
    s.replayer = .waiting ∨ s.replayer = .returned ∨
      s.mutex ≠ none ∧ ¬ ReplayerAt.Holds s.replayer := by
  revert h
  fun_cases ReplayMonitor.replay s <;> intro h <;> grind -ring -linarith

/-- Where none of the threads can go on, each of them waits or has returned: whoever holds the
    mutex can go on. -/
theorem Inv.complete (h : s.Inv) (hcomplete : s.Complete) :
    (s.reader = .waiting ∨ s.reader = .returned) ∧
      (s.replayer = .waiting ∨ s.replayer = .returned) := by
  have hread : s.read = none := by simpa [machine, ReplayMonitor.step] using hcomplete.1
  have hreplay : s.replay = none := by simpa [machine, ReplayMonitor.step] using hcomplete.2
  obtain ⟨hreader, hreplayer, hstopper⟩ := h.locked
  -- whoever has the mutex can move
  have hfree : s.mutex = none := by
    cases hmutex : s.mutex with
    | none => rfl
    | some t =>
      cases t with
      | reader =>
        have hholds := hreader.mp hmutex
        rcases read_eq_none hread with hplace | hplace | ⟨-, hnot⟩
        · rw [hplace] at hholds
          exact hholds.elim
        · rw [hplace] at hholds
          exact hholds.elim
        · exact absurd hholds hnot
      | replayer =>
        have hholds := hreplayer.mp hmutex
        rcases replay_eq_none hreplay with hplace | hplace | ⟨-, hnot⟩
        · rw [hplace] at hholds
          exact hholds.elim
        · rw [hplace] at hholds
          exact hholds.elim
        · exact absurd hholds hnot
      | stopper => exact absurd hmutex hstopper
  refine ⟨?_, ?_⟩
  · exact (read_eq_none hread).imp_right fun h => h.resolve_right fun h => h.1 hfree
  · exact (replay_eq_none hreplay).imp_right fun h => h.resolve_right fun h => h.1 hfree

/-! ## What the other moves bring about -/

/-- A thread has returned, and the other one will wait, or waits. -/
def Doomed (s : ReplayMonitor α) : Prop :=
  s.reader = .returned ∧ (s.ReplayerWillWait ∨ s.replayer = .waiting) ∨
    s.replayer = .returned ∧ s.ReaderWillWait

/-- Nobody is there any more to put messages, to report the end or to notify. -/
theorem Doomed.step (h : s.Doomed) {t : Thread} (hs : s.step t = some s') : s'.Doomed := by
  cases t with
  | reader =>
    revert hs
    show s.read = some s' → _
    fun_cases ReplayMonitor.read s <;> intro hs <;> cases hs
    all_goals grind -ring -linarith [Doomed]
  | replayer =>
    revert hs
    show s.replay = some s' → _
    fun_cases ReplayMonitor.replay s <;> intro hs <;> cases hs
    all_goals grind -ring -linarith [Doomed]
  | stopper =>
    cases hs
    exact h

/-- A move that is not careful leaves a thread waiting for good. -/
theorem Doomed.of_not_careful {t : Thread} (h : ¬ s.Careful t) (hs : s.step t = some s') :
    s'.Doomed := by
  cases t with
  | reader =>
    obtain ⟨hplace, hwill⟩ := Classical.not_imp.mp h
    have hread : s.read = some { s.notifyReplayer with reader := .returned } := by
      rw [ReplayMonitor.read, hplace]
    cases hread.symm.trans hs
    have hwill := not_not.mp hwill
    -- the replayer is not yet waiting, so that the notification is lost
    have hnot : s.replayer ≠ .waiting := by
      intro hwaiting
      rw [ReplayerWillWait, hwaiting] at hwill
      exact hwill
    refine .inl ⟨rfl, .inl ?_⟩
    simpa only [ReplayerWillWait, notifyReplayer, if_neg hnot] using hwill
  | replayer =>
    obtain ⟨hplace, hstopped⟩ := Classical.not_imp.mp h
    obtain ⟨hstopped, hwill⟩ := Classical.not_imp.mp hstopped
    have hreplay : s.replay = some { s with replayer := .returned } := by
      rw [ReplayMonitor.replay, hplace, hstopped]
      rfl
    cases hreplay.symm.trans hs
    exact .inr ⟨rfl, not_not.mp hwill⟩
  | stopper => exact absurd trivial h

/-- A thread that waits for good does not return. -/
theorem Doomed.not_joined (h : s.Doomed) : ¬ s.Joined := by
  rintro ⟨hreader, hreplayer⟩
  rcases h with ⟨-, hwill | hwaiting⟩ | ⟨-, hwill⟩
  · rw [ReplayerWillWait, hreplayer] at hwill
    exact hwill
  · rw [hreplayer] at hwaiting
    exact nomatch hwaiting
  · rw [ReaderWillWait, hreader] at hwill
    exact hwill

/-! ## Every run comes to an end -/

/-- How many moves a place of the reader is worth: a batch that is fetched pays for its way to
    the wait, and a notification pays for the replayer that it wakes. -/
def ReaderAt.work : ReaderAt α → Nat
  | .test => 15
  | .query => 14
  | .fetchEnd => 13
  | .lock _ => 40
  | .push _ => 39
  | .notify => 38
  | .wait => 25
  | .waiting => 16
  | .woken => 20
  | .unlock => 19
  | .lastNotify => 12
  | .returned => 0

/-- A message that is consumed pays for the next turn of the loop. -/
def ReplayerAt.work : ReplayerAt → Nat
  | .sleep => 10
  | .test => 9
  | .lock => 8
  | .look => 7
  | .consume => 6
  | .size => 20
  | .checkEnd => 6
  | .wait => 5
  | .waiting => 1
  | .woken => 11
  | .unlock => 10
  | .leave => 5
  | .returned => 0

/-- The messages that are not in the queue yet. -/
def ReaderAt.inHand : ReaderAt α → Nat
  | .lock batch | .push batch => batch.length
  | _ => 0

/-- A bound on the moves that are left -/
def work (s : ReplayMonitor α) : Nat :=
  ReaderAt.work s.reader + ReplayerAt.work s.replayer + 30 * s.batches.length +
    20 * (s.messages.length + ReaderAt.inHand s.reader + (s.batches.map List.length).sum)

/-- Waking the replayer adds some moves. -/
theorem work_notifyReplayer (s : ReplayMonitor α) :
    ReplayerAt.work s.notifyReplayer.replayer ≤ ReplayerAt.work s.replayer + 10 := by
  unfold notifyReplayer
  by_cases hwaiting : s.replayer = .waiting
  · simp [hwaiting, ReplayerAt.work]
  · simp [hwaiting]

/-- Waking the reader adds some moves. -/
theorem work_notifyReader (s : ReplayMonitor α) :
    ReaderAt.work s.notifyReader.reader + 20 * ReaderAt.inHand s.notifyReader.reader ≤
      ReaderAt.work s.reader + 20 * ReaderAt.inHand s.reader + 4 := by
  unfold notifyReader
  cases s.reader <;> simp [ReaderAt.work, ReaderAt.inHand]

/-- A move of the reader leaves fewer. -/
theorem work_read (hs : s.read = some s') : s'.work < s.work := by
  have hnotify := work_notifyReplayer s
  revert hs
  unfold work
  fun_cases ReplayMonitor.read s <;> intro hs <;> cases hs
  all_goals
    grind -ring -linarith [ReaderAt.work, ReaderAt.inHand]

/-- A move of the replayer leaves fewer. -/
theorem work_replay (hwaits : s.Waits) (hs : s.replay = some s') : s'.work < s.work := by
  have hconsume : s.replayer = .consume → 0 < s.messages.length := fun hplace =>
    List.length_pos_iff.mpr (hwaits.consume hplace)
  have hnotify := work_notifyReader s
  revert hs
  unfold work
  fun_cases ReplayMonitor.replay s <;> intro hs <;> cases hs
  all_goals grind -ring -linarith [ReplayerAt.work]

/-! ## Runs -/

/-- The simulater of the replay or the one of the market, started on the batches of a provider. -/
def Started (batches : List (List α)) (s : ReplayMonitor α) : Prop :=
  s = startReplay batches ∨ s = startMarket batches

/-- The start satisfies the invariant. -/
theorem Started.inv {batches : List (List α)} (h : Started batches s) : s.Inv := by
  rcases h with rfl | rfl
  · exact Inv.start (.inl rfl) batches
  · exact Inv.start (.inr rfl) batches

/-- At the start no notification is lost. -/
theorem Started.ends {batches : List (List α)} (h : Started batches s) : s.Ends := by
  rcases h with rfl | rfl <;> exact ⟨fun h => (nomatch h), fun h => (nomatch h)⟩

/-- An allowed move is a step. -/
theorem apply_of_guard {t : Thread} (h : machine.guard s t) :
    s.step t = some (machine.apply s t) := by
  show s.step t = some ((s.step t).getD s)
  obtain ⟨s', hs'⟩ := Option.isSome_iff_exists.mp h
  rw [hs', Option.getD_some]

/-- The invariant holds along every run. -/
theorem Started.exec_inv {batches : List (List α)} (h : Started batches s) {moves : List Thread}
    (hruns : machine.Runs s moves) : (machine.exec s moves).Inv :=
  hruns.invariant (fun _ _ hinv hguard => hinv.step (apply_of_guard hguard)) h.inv

/-- After careful moves no thread is left waiting. A run that has come to an end has joined both
    threads exactly if all its moves were careful, and every run comes to an end: the moves of
    its threads are bounded by the data of the provider. -/
theorem never_stuck_iff (batches : List (List α)) (h : Started batches s) (moves : List Thread)
    (hruns : machine.Runs s moves) :
    ((machine.restrict Careful).Runs s moves → ¬ (machine.exec s moves).Stuck) ∧
      ((machine.exec s moves).Complete →
        ((machine.exec s moves).Joined ↔ (machine.restrict Careful).Runs s moves)) ∧
      moves.countP (· != .stopper) ≤
        25 + 30 * batches.length + 20 * (batches.map List.length).sum := by
  have hinv := h.exec_inv hruns
  -- careful moves lose no notification
  have hends : (machine.restrict Careful).Runs s moves → (machine.exec s moves).Ends := by
    intro hcareful
    refine (Guarded.Runs.invariant (I := fun s => s.Inv ∧ s.Ends) (fun s t hs hguard => ?_) hcareful
      ⟨h.inv, h.ends⟩).2
    have hstep := apply_of_guard hguard.1
    exact ⟨hs.1.step hstep, hs.2.step hs.1 hguard.2 hstep⟩
  refine ⟨fun hcareful => (hends hcareful).not_stuck hinv, fun hcomplete => ⟨fun hjoined => ?_,
    fun hcareful => ?_⟩, ?_⟩
  · by_contra hcareful
    -- some move was not careful, and a thread waits for good since
    have hdoomed : (machine.exec s moves).Doomed :=
      hruns.of_not_restrict (I := fun _ => True) (fun _ _ _ _ _ => trivial)
        (fun _ _ _ hguard hnot => .of_not_careful hnot (apply_of_guard hguard))
        (fun _ _ hdoomed hguard => hdoomed.step (apply_of_guard hguard)) hcareful trivial
    exact hdoomed.not_joined hjoined
  · -- a thread that cannot go on waits or has returned, and none is left waiting
    have hnot := (hends hcareful).not_stuck hinv
    obtain ⟨hreader, hreplayer⟩ := hinv.complete hcomplete
    rcases hreader with hreader | hreader <;> rcases hreplayer with hreplayer | hreplayer
    · exact absurd (.inl ⟨hreader, .inl hreplayer⟩) hnot
    · exact absurd (.inl ⟨hreader, .inr hreplayer⟩) hnot
    · exact absurd (.inr ⟨hreplayer, hreader⟩) hnot
    · exact ⟨hreader, hreplayer⟩
  · refine (hruns.countP_le (f := work) (fun _ _ hinv hguard => hinv.step (apply_of_guard hguard))
      (fun s t hinv hguard ht => ?_) (fun s t hinv hguard ht => ?_) h.inv).trans ?_
    · have hstep := apply_of_guard hguard
      cases t with
      | reader => exact work_read hstep
      | replayer => exact work_replay hinv.waits hstep
      | stopper => exact nomatch ht
    · cases t with
      | reader => exact nomatch ht
      | replayer => exact nomatch ht
      | stopper => exact Nat.le_refl _
    · rcases h with rfl | rfl
      · exact Nat.le_of_eq (by simp [work, startReplay, ReaderAt.work, ReplayerAt.work, ReaderAt.inHand])
      · simp [work, startMarket, ReaderAt.work, ReplayerAt.work, ReaderAt.inHand]

instance (s : ReplayMonitor α) (t : Thread) : Decidable (machine.guard s t) :=
  inferInstanceAs (Decidable ((s.step t).isSome = true))

/-- The reader fetches a message and waits, and the replayer consumes the message. -/
private def oneMessage : List Thread :=
  List.replicate 6 .reader ++ List.replicate 6 .replayer

/-- Then the reader finds the end, and the replayer looks for it behind that. -/
private def played : List Thread :=
  oneMessage ++ List.replicate 6 .reader ++ List.replicate 5 .replayer

/-- One batch is played, and both threads return. -/
theorem never_stuck_played :
    ((machine.restrict Careful).Runs (startMarket [["m"]]) played →
        ¬ (machine.exec (startMarket [["m"]]) played).Stuck) ∧
      ((machine.exec (startMarket [["m"]]) played).Complete →
        ((machine.exec (startMarket [["m"]]) played).Joined ↔
          (machine.restrict Careful).Runs (startMarket [["m"]]) played)) ∧
      played.countP (· != .stopper) ≤ 25 + 30 * 1 + 20 * 1 :=
  never_stuck_iff [["m"]] (.inr rfl) played (by decide +kernel)

/-- The replayer sees that it is stopped, and leaves the reader waiting. -/
private def stopped : List Thread := List.replicate 6 .reader ++ [.stopper, .replayer]

/-- The reader reports the end after the replayer has looked for it, and before the replayer
    waits. -/
private def endMissed : List Thread :=
  oneMessage ++ List.replicate 3 .reader ++ List.replicate 4 .replayer ++
    List.replicate 3 .reader ++ [.replayer]

/-- Two runs in which a thread is left waiting -/
theorem left_waiting :
    (machine.Runs (startMarket [["m"]]) stopped ∧
      (machine.exec (startMarket [["m"]]) stopped).Stuck) ∧
    machine.Runs (startMarket [["m"]]) endMissed ∧
      (machine.exec (startMarket [["m"]]) endMissed).Stuck := by
  refine ⟨⟨by decide +kernel, .inl ?_⟩, by decide +kernel, .inr ?_⟩
  · exact ⟨by decide +kernel, .inr (by decide +kernel)⟩
  · exact ⟨by decide +kernel, by decide +kernel⟩

end ReplayMonitor

end FixHandler.Tmalpha
