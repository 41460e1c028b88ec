import Mathlib
import FixHandler.ForStd.Guarded

/-!
# The reader and the replayer

The threads of `tmalpha/replay/replay_simulater.cc` and `tmalpha/market/market_simulater.cc`.
`Read` and `Replay` are the same in both, but for the second that the first one sleeps before
its loop. `Start` has been called, so that `m_is_stopped` is false.

A place is the next thing that a thread does; between two places other threads may run. The
places `wait` and `waiting` are the two halves of `m_condition.wait`: a thread leaves `waiting`
by a notification only. Times and logging are left out.
-/

namespace FixHandler.Tmalpha

/-- Who makes a move: one of the threads, or the caller of `Stop`. -/
inductive Thread where
  | reader
  | replayer
  | stopper
deriving DecidableEq, Repr

/-- Where `Read` is. -/
inductive ReaderAt (α : Type) where
  /-- the test of the loop -/
  | test
  /-- `m_provider->Query` -/
  | query
  /-- nothing was found: `m_is_fetch_end = true` -/
  | fetchEnd
  /-- the lock is taken with messages in hand -/
  | lock (batch : List α)
  | push (batch : List α)
  | notify
  | wait
  | waiting
  /-- notified, before the mutex is taken again -/
  | woken
  /-- the end of the scope of the lock -/
  | unlock
  /-- the notification behind the loop -/
  | lastNotify
  | returned
deriving DecidableEq, Repr

/-- Where `Replay` is. -/
inductive ReplayerAt where
  /-- the second before the loop -/
  | sleep
  | test
  | lock
  /-- `m_messages.empty()` -/
  | look
  /-- `Consume_one` -/
  | consume
  /-- `m_messages.size() < 100` -/
  | size
  /-- `m_is_fetch_end` -/
  | checkEnd
  | wait
  | waiting
  | woken
  | unlock
  /-- the end of the scope by `return` -/
  | leave
  | returned
deriving DecidableEq, Repr

/-- The queue between the two threads, and where each of them is -/
structure ReplayMonitor (α : Type) where
  reader : ReaderAt α := .test
  replayer : ReplayerAt
  /-- who holds `m_mutex` -/
  mutex : Option Thread := none
  isFetchEnd : Bool := false
  isStopped : Bool := false
  messages : List α := []
  /-- what the provider still has to give; a batch without messages ends the data -/
  batches : List (List α)
  consumed : List α := []
deriving DecidableEq, Repr

namespace ReplayMonitor

variable {α : Type}

/-- `notify_all`, as far as the replayer is waiting -/
def notifyReplayer (s : ReplayMonitor α) : ReplayMonitor α :=
  { s with replayer := if s.replayer = .waiting then .woken else s.replayer }

/-- `notify_all`, as far as the reader is waiting -/
def notifyReader (s : ReplayMonitor α) : ReplayMonitor α :=
  { s with reader := match s.reader with
      | .waiting => .woken
      | place => place }

/-- `Read` -/
def read (s : ReplayMonitor α) : Option (ReplayMonitor α) :=
  match s.reader with
  | .test => some { s with reader := if s.isStopped then .lastNotify else .query }
  | .query =>
    match s.batches with
    | [] => some { s with reader := .fetchEnd }
    | [] :: rest => some { s with reader := .fetchEnd, batches := rest }
    | batch :: rest => some { s with reader := .lock batch, batches := rest }
  | .fetchEnd => some { s with reader := .lastNotify, isFetchEnd := true }
  | .lock batch =>
    if s.mutex = none then some { s with reader := .push batch, mutex := some .reader } else none
  | .push batch => some { s with reader := .notify, messages := s.messages ++ batch }
  | .notify => some { s.notifyReplayer with reader := .wait }
  | .wait => some { s with reader := .waiting, mutex := none }
  | .waiting => none
  | .woken =>
    if s.mutex = none then some { s with reader := .unlock, mutex := some .reader } else none
  | .unlock => some { s with reader := .test, mutex := none }
  | .lastNotify => some { s.notifyReplayer with reader := .returned }
  | .returned => none

/-- `Replay` -/
def replay (s : ReplayMonitor α) : Option (ReplayMonitor α) :=
  match s.replayer with
  | .sleep => some { s with replayer := .test }
  | .test => some { s with replayer := if s.isStopped then .returned else .lock }
  | .lock =>
    if s.mutex = none then some { s with replayer := .look, mutex := some .replayer } else none
  | .look => some { s with replayer := if s.messages.isEmpty then .checkEnd else .consume }
  | .consume =>
    some { s with replayer := .size, messages := s.messages.tail
                  consumed := s.consumed ++ s.messages.head?.toList }
  | .size =>
    some { (if s.messages.length < 100 then s.notifyReader else s) with replayer := .unlock }
  | .checkEnd => some { s with replayer := if s.isFetchEnd then .leave else .wait }
  | .wait => some { s with replayer := .waiting, mutex := none }
  | .waiting => none
  | .woken =>
    if s.mutex = none then some { s with replayer := .unlock, mutex := some .replayer } else none
  | .unlock => some { s with replayer := .test, mutex := none }
  | .leave => some { s with replayer := .returned, mutex := none }
  | .returned => none

/-- `Stop` may be called at any time. -/
def stop (s : ReplayMonitor α) : ReplayMonitor α := { s with isStopped := true }

/-- One move of one thread, where it can make one -/
def step (s : ReplayMonitor α) : Thread → Option (ReplayMonitor α)
  | .reader => s.read
  | .replayer => s.replay
  | .stopper => some s.stop

/-- The threads in any order. -/
def machine : Guarded (ReplayMonitor α) Thread where
  guard s t := (s.step t).isSome
  apply s t := (s.step t).getD s

/-- `ReplaySimulater::Start` -/
def startReplay (batches : List (List α)) : ReplayMonitor α := { replayer := .sleep, batches }

/-- `MarketSimulater::Start` -/
def startMarket (batches : List (List α)) : ReplayMonitor α := { replayer := .test, batches }

end ReplayMonitor

end FixHandler.Tmalpha
