import Mathlib
import FixHandler.Native.Cme.BookManager

/-!
# Playback of stored messages

`playback/book_replayer.cc`. A stored message keeps the type, the number and the
entries of the message, whatever its template.
-/

namespace FixHandler.Cme

open Cxx (OutOfRange)

/-- The books of a replay, and what the market listener was told -/
structure BookReplayer where
  bookStateController : BookStateController := {}
  instruments : Std.TreeMap UInt32 Instrument := ∅
  recoveries : List Book := []
  isFirstRecovery : Bool := true
  /-- what was sent to the listener -/
  sent : List MarketEvent := []
  /-- the increment messages, each with the books that were passed to `Modify_state` -/
  applied : List (Message × List Book) := []

namespace BookReplayer

/-- Tell the market listener -/
def send (s : BookReplayer) (events : List MarketEvent) : BookReplayer :=
  { s with sent := s.sent ++ events }

/-- The contract of a security, empty where it is not defined -/
def contract (s : BookReplayer) (securityID : UInt32) : String :=
  match s.instruments[securityID]? with
  | none => ""
  | some definition => definition.symbol

/-- `parse_definitions`: a book for every contract that is defined -/
def parseDefinitions (s : BookReplayer) (ins : Instrument) : BookReplayer :=
  if ins.securityUpdateAction == 'D' && !s.instruments.contains ins.securityID then
    -- there is nothing to delete
    s
  else
    let s :=
      if ins.securityUpdateAction == 'D' then
        { s with instruments := s.instruments.erase ins.securityID }
      else { s with instruments := s.instruments.insert ins.securityID ins }
    let s := { s with bookStateController := s.bookStateController.createOrShrink ins }
    s.send [.contractDefinition ins]

/-- A book is applied, and what comes of it is sent. -/
def applyBook (s : BookReplayer) (b : Book) : Except OutOfRange BookReplayer := do
  let (changedState, bookStateController) ← s.bookStateController.modifyState b
  let s := { s with bookStateController }
  return s.send (BookManager.bookEvents b changedState (s.contract b.securityID))

/-- One entry of a snapshot -/
def applyRecovery (s : BookReplayer) (b : Book) : Except OutOfRange BookReplayer :=
  { s with recoveries := s.recoveries ++ [b] }.applyBook b

/-- The first recovery message after increments resets the data. -/
def parseRecoveries (s : BookReplayer) (lastSeq securityID : UInt32) (entries : List Book) :
    Except OutOfRange BookReplayer :=
  let s :=
    if s.isFirstRecovery then
      { s with
        bookStateController := s.bookStateController.resetState
        recoveries := []
        isFirstRecovery := false }
    else s
  (parseW lastSeq securityID entries).foldlM applyRecovery s

/-- The number of the first recovery book, 0 if there is none. -/
def firstRecoverySeq (s : BookReplayer) : UInt32 := (s.recoveries.head?.map (·.packetSeqNum)).getD 0

/-- The number of the last recovery book, 0 if there is none. -/
def lastRecoverySeq (s : BookReplayer) : UInt32 :=
  (s.recoveries.getLast?.map (·.packetSeqNum)).getD 0

/-- Whether a book of packet `seq` is in the recovery data already. -/
def discards (s : BookReplayer) (seq : UInt32) (b : Book) : Bool :=
  (decide (seq ≥ s.firstRecoverySeq) && decide (seq ≤ s.lastRecoverySeq)) &&
    s.recoveries.any fun rb =>
      decide (b.packetSeqNum ≤ rb.packetSeqNum) && b.securityID == rb.securityID

/-- `parse_increments`: the entries of an increment, one by one -/
def parseIncrements (s : BookReplayer) (m : Message) (entries : List Book) :
    Except OutOfRange BookReplayer :=
  let seq := m.packetSeqNum
  let books := entries.map fun b => { b with packetSeqNum := seq, type := 'X' }
  let kept := books.filter (!s.discards seq ·)
  -- a recovery message after this one resets the data
  kept.foldlM applyBook { s with isFirstRecovery := true, applied := s.applied ++ [(m, kept)] }

/-- No security is stored as 0. -/
def parseStatus (s : BookReplayer) (securityID : UInt32) (status : SecurityTradingStatus) :
    BookReplayer :=
  let securityID := if securityID == 2147483647 then 0 else securityID
  let contract :=
    if securityID == 0 then ""
    else
      let contract := s.contract securityID
      if contract == "" then toString securityID.toNat else contract
  s.send (BookManager.statusEvents contract status)

/-- One message of the replay -/
def applyMessage (s : BookReplayer) (m : Message) : Except OutOfRange BookReplayer :=
  match m.body with
  | .definition instrument => .ok (s.parseDefinitions instrument)
  | .snapshot lastMsgSeqNumProcessed securityID entries =>
    s.parseRecoveries lastMsgSeqNumProcessed securityID entries
  | .increment _ entries => s.parseIncrements m entries
  | .status securityID status => .ok (s.parseStatus securityID status)
  | .quoteRequest | .admin => .ok s

/-- The messages of a replay, in order -/
def run (messages : List Message) : Except OutOfRange BookReplayer :=
  messages.foldlM applyMessage {}

end BookReplayer

end FixHandler.Cme
