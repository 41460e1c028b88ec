import Mathlib
import FixHandler.ForStd.Guarded
import FixHandler.Native.Cme.DatArbitrator
import FixHandler.Native.Cme.CmeData

/-!
# From the packets of the feeds to the messages of the saver

`dat_processor.cc` and the loop of `DatSaver::Start_save`. The thread of the UDP
feed and the threads of the TCP replays check a packet with the arbitrator and
then insert its messages; the saver picks the next message, processes it, and then
removes it. Each of the four is one critical section, and one action here. A packet
that cannot be split, or has a message that cannot be decoded, throws on its way to
the data: it ends the run, and is none of the packets here.
-/

namespace FixHandler.Cme

open Cxx (uint32Max)

/-- The shared data, what each thread is at, and the history. -/
structure Delivery where
  arbitration : Arbitration := {}
  data : CmeData := {}
  /-- the packet that the thread of the feed has checked and not inserted yet -/
  feed : Option Packet := none
  /-- the packets that replay threads have checked and not inserted yet, one of each
      thread; any thread may be the next to run -/
  replay : List Packet := []
  /-- the message that the saver has picked and not removed yet -/
  saver : Option (Nat × MdpMessage) := none
  accepted : List Packet := []
  picked : List MdpMessage := []

namespace Delivery

/-- What the threads do with the buffer -/
inductive Act where
  /-- the first half of `Process_feed_data` -/
  | checkFeed (packet : Packet)
  /-- `Process_data` in the thread of the feed -/
  | insertFeed
  /-- the first half of `Process_replay_data` -/
  | checkReplay (packet : Packet)
  /-- `Process_data` in one of the replay threads -/
  | insertReplay (thread : Nat)
  | pick
  | remove

/-- The packet that an action brings in. -/
def Act.packet? : Act → Option Packet
  | .checkFeed p | .checkReplay p => some p
  | _ => none

/-- The answer to a call is not that the packet is to be discarded. -/
def valid (s : Delivery) (c : Call) : Prop := (s.arbitration.arbitrator.check c).1 ≠ uint32Max

instance (s : Delivery) (c : Call) : Decidable (s.valid c) := inferInstanceAs (Decidable (_ ≠ _))

/-- The check of a packet of the feed, which is to be inserted if it is accepted -/
def checkFeed (s : Delivery) (p : Packet) : Delivery :=
  let arbitration := s.arbitration.step (.feed p.seqNum)
  if s.valid (.feed p.seqNum) then
    { s with arbitration, feed := some p, accepted := s.accepted ++ [p] }
  else { s with arbitration }

/-- The check of a packet of a replay, which is to be inserted if it is accepted -/
def checkReplay (s : Delivery) (p : Packet) : Delivery :=
  let arbitration := s.arbitration.step (.replay p.seqNum)
  if s.valid (.replay p.seqNum) then
    { s with arbitration, replay := s.replay ++ [p], accepted := s.accepted ++ [p] }
  else { s with arbitration }

/-- `Process_data` -/
def insert (s : Delivery) (p : Packet) : Delivery :=
  { s with data := s.data.insertIncrementData p.seqNum p.messages }

/-- One step of one thread -/
def apply (s : Delivery) : Act → Delivery
  | .checkFeed p => s.checkFeed p
  | .insertFeed =>
    match s.feed with
    | some p => { s.insert p with feed := none }
    | none => s
  | .checkReplay p => s.checkReplay p
  | .insertReplay i =>
    match s.replay[i]? with
    | some p => { s.insert p with replay := s.replay.eraseIdx i }
    | none => s
  | .pick =>
    match s.data.pickNextMessage with
    | some m => { s with saver := some m, picked := s.picked ++ [m.2] }
    | none => s
  | .remove =>
    match s.saver with
    | some m => { s with saver := none, data := s.data.removeIncrementData m.1 }
    | none => s

/-- Whether the thread that takes an action has come to it. -/
def guard (s : Delivery) : Act → Prop
  | .checkFeed _ => s.feed = none
  | .insertFeed => s.feed.isSome
  | .checkReplay _ => True
  | .insertReplay i => i < s.replay.length
  | .pick => s.saver = none ∧ s.data.pickNextMessage.isSome
  | .remove => s.saver.isSome

instance (s : Delivery) : (a : Act) → Decidable (s.guard a)
  | .checkFeed _ => inferInstanceAs (Decidable (s.feed = none))
  | .insertFeed => inferInstanceAs (Decidable (s.feed.isSome = true))
  | .checkReplay _ => inferInstanceAs (Decidable True)
  | .insertReplay i => inferInstanceAs (Decidable (i < s.replay.length))
  | .pick => inferInstanceAs (Decidable (s.saver = none ∧ s.data.pickNextMessage.isSome = true))
  | .remove => inferInstanceAs (Decidable (s.saver.isSome = true))

/-- The interleavings of the threads. -/
def machine : Guarded Delivery Act where
  guard := guard
  apply := apply

instance (s : Delivery) (a : Act) : Decidable (machine.guard s a) :=
  inferInstanceAs (Decidable (s.guard a))

end Delivery

end FixHandler.Cme
