import Mathlib
import FixHandler.Spec.Tmalpha.MonitorCorrect

/-!
# What the replayer consumes

Every message of the provider is consumed, is in the queue, is in the hands of the reader, or is
still to be fetched, in this order, whoever moves. The replayer returns when it is stopped, or when it
has found the queue empty behind the end of the data.

## Key results

- `Delivers.step`: what every move keeps
- `Started.consumed`: what is consumed in a run
-/

namespace FixHandler.Tmalpha

namespace ReplayMonitor

variable {α : Type} {s s' : ReplayMonitor α} {whole : List α}

/-- The messages of a provider: a batch without messages ends the data. -/
def stream : List (List α) → List α
  | [] => []
  | [] :: _ => []
  | batch :: batches => batch ++ stream batches

/-- Where no batch is empty, all of them are read. -/
theorem stream_eq_flatten {batches : List (List α)} (h : [] ∉ batches) :
    stream batches = batches.flatten := by
  induction batches with
  | nil => rfl
  | cons batch batches ih =>
    have hrest := ih fun hmem => h (List.mem_cons_of_mem _ hmem)
    cases batch with
    | nil => exact absurd List.mem_cons_self h
    | cons a batch => simp [stream, hrest]

/-- What the reader has fetched and not put into the queue yet -/
def ReaderAt.batch : ReaderAt α → List α
  | .lock batch | .push batch => batch
  | _ => []

/-- What is still to be fetched -/
def remaining (s : ReplayMonitor α) : List α :=
  match s.reader with
  | .fetchEnd => []
  | _ => if s.isFetchEnd then [] else stream s.batches

/-- The messages of a provider are where they belong. -/
structure Delivers (whole : List α) (s : ReplayMonitor α) : Prop where
  queue : whole = s.consumed ++ (s.messages ++ (ReaderAt.batch s.reader ++ s.remaining))
  leave : s.replayer = .leave → s.messages = [] ∧ s.isFetchEnd = true
  returned : s.replayer = .returned → s.isStopped = true ∨ s.messages = [] ∧ s.isFetchEnd = true

attribute [local grind =] ReaderAt.batch remaining stream notifyReplayer notifyReader
  ReplayerAt.Holds ReaderAt.Holds

/-- The reader keeps the messages in their order. -/
theorem Delivers.read (h : s.Delivers whole) (hinv : s.Inv) (hs : s.read = some s') :
    s'.Delivers whole := by
  obtain ⟨hqueue, hleave, hreturned⟩ := h
  have hfetch := hinv.flags.fetch_end
  obtain ⟨hreader, hreplayer, -⟩ := hinv.locked
  revert hs
  fun_cases ReplayMonitor.read s <;> intro hs <;> cases hs
  all_goals constructor <;> grind -ring -linarith

/-- The replayer keeps the messages in their order. -/
theorem Delivers.replay (h : s.Delivers whole) (hinv : s.Inv) (hs : s.replay = some s') :
    s'.Delivers whole := by
  obtain ⟨hqueue, hleave, hreturned⟩ := h
  obtain ⟨hconsume, hempty, -, -⟩ := hinv.waits
  -- the message that is consumed is the first one of the queue
  have hhead : s.messages = s.messages.head?.toList ++ s.messages.tail := by
    cases s.messages <;> rfl
  revert hs
  fun_cases ReplayMonitor.replay s <;> intro hs <;> cases hs
  all_goals constructor <;> grind -ring -linarith

/-- Whoever moves. -/
theorem Delivers.step (h : s.Delivers whole) (hinv : s.Inv) {t : Thread} (hs : s.step t = some s') :
    s'.Delivers whole := by
  cases t with
  | reader => exact h.read hinv hs
  | replayer => exact h.replay hinv hs
  | stopper =>
    cases hs
    exact ⟨h.queue, h.leave, fun _ => .inl rfl⟩

/-- At the start everything is still to be read. -/
theorem Started.delivers {batches : List (List α)} (h : Started batches s) :
    s.Delivers (stream batches) := by
  cases h with
  | inl h =>
    subst h
    exact ⟨rfl, fun h => (nomatch h), fun h => (nomatch h)⟩
  | inr h =>
    subst h
    exact ⟨rfl, fun h => (nomatch h), fun h => (nomatch h)⟩

/-- In every run the first messages of the provider are consumed, each once and in their order; if the
    replayer has returned without being stopped, they are all the messages. -/
theorem Started.consumed {batches : List (List α)} (h : Started batches s) {moves : List Thread}
    (hruns : machine.Runs s moves) :
    (machine.exec s moves).consumed <+: stream batches ∧
      ((machine.exec s moves).replayer = .returned → (machine.exec s moves).isStopped = false →
        (machine.exec s moves).consumed = stream batches) := by
  have hinv := hruns.invariant (I := fun s => s.Inv ∧ s.Delivers (stream batches))
    (fun s t hs hguard => ⟨hs.1.step (apply_of_guard hguard),
      hs.2.step hs.1 (apply_of_guard hguard)⟩) ⟨h.inv, h.delivers⟩
  obtain ⟨hinv, hqueue, -, hreturned⟩ := hinv
  -- the replayer returns when it was stopped or when nothing is left in the queue behind the end
  refine ⟨⟨_, hqueue.symm⟩, fun hplace hstopped => ?_⟩
  obtain hstop | ⟨hmessages, hend⟩ := hreturned hplace
  · rw [hstopped] at hstop
    exact nomatch hstop
  · -- behind the end of the data the reader has nothing in its hands
    have hnothing : ReaderAt.batch (machine.exec s moves).reader ++
        (machine.exec s moves).remaining = [] := by
      unfold remaining
      obtain hplace | hplace := hinv.flags.fetch_end hend <;> rw [hplace] <;> simp [ReaderAt.batch, hend]
    rw [hqueue, hmessages, hnothing, List.nil_append, List.append_nil]

end ReplayMonitor

end FixHandler.Tmalpha
