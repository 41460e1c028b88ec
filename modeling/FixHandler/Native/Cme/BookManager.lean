import Mathlib
import FixHandler.Native.Cme.BookStateController

/-!
# From messages to published books

`book_manager.cc` with its `definition_manager.cc`, `status_manager.cc` and
`recovery_manager.cc`, and the message parsers. A message is given by the number of its
packet and its decoded body; the books of a message are those that the parser makes
of its entries.
-/

namespace FixHandler.Cme

open Cxx (OutOfRange)

/-- The trading status of a contract -/
inductive SecurityTradingStatus where
  | tradingHalt | close | newPriceIndication | readyToTrade | notAvailableForTrading
  | unknownorInvalid | preOpen | preCross | cross | postClose | noChange | nullValue
deriving DecidableEq, Repr

/-- The body of a message. -/
inductive Body where
  /-- f -/
  | status (securityID : UInt32) (status : SecurityTradingStatus)
  /-- d -/
  | definition (instrument : Instrument)
  /-- R -/
  | quoteRequest
  /-- X, with its template and its entries -/
  | increment (templateId : UInt16) (entries : List Book)
  /-- W, of one security -/
  | snapshot (lastMsgSeqNumProcessed : UInt32) (securityID : UInt32) (entries : List Book)
  /-- heartbeats and the like -/
  | admin
deriving DecidableEq, Repr

/-- A message that was parsed, with the number of its packet -/
structure Message where
  packetSeqNum : UInt32
  body : Body
deriving DecidableEq, Repr

/-- A book with all fields zero, as `std::vector::resize` makes it. -/
def Book.empty : Book :=
  { packetSeqNum := 0, type := '\x00', securityID := 0, mDEntryType := .nullValue }

/-- `MessageParserX::Parse`: order books by order are ignored, and a message without entries
    makes an empty book. -/
def parseX (packetSeqNum : UInt32) (templateId : UInt16) (entries : List Book) : List Book :=
  if templateId == 43 then []
  else (if entries.isEmpty then [Book.empty] else entries).map fun b =>
    { b with packetSeqNum, type := 'X' }

/-- `MessageParserW::Parse` -/
def parseW (lastMsgSeqNumProcessed : UInt32) (securityID : UInt32) (entries : List Book) :
    List Book :=
  entries.map fun b => { b with packetSeqNum := lastMsgSeqNumProcessed, type := 'W', securityID }

/-- The books of a recovery message. -/
def Message.recoveryBooks (m : Message) : List Book :=
  match m.body with
  | .snapshot lastMsgSeqNumProcessed securityID entries =>
    parseW lastMsgSeqNumProcessed securityID entries
  | _ => []

/-- What the listener is told. An L2, BBO, bid or offer message is given by the book that it
    is made from, whose symbol is its contract. -/
inductive MarketEvent where
  | contractDefinition (instrument : Instrument)
  | contractAuctioning (contract : String)
  | contractTrading (contract : String)
  | contractNoTrading (contract : String)
  | l2 (state : BookState)
  | bbo (state : BookState)
  | bid (state : BookState)
  | offer (state : BookState)
  | trade (contract : String) (book : Book)
deriving DecidableEq, Repr

/-- The books of all contracts, and what the market listener was told -/
structure BookManager where
  bookStateController : BookStateController := {}
  /-- the definitions of the definition manager -/
  instruments : Std.TreeMap UInt32 Instrument := ∅
  /-- the books of the recovery manager -/
  recoveryBooks : List Book := []
  /-- the position of the first recovery book that may still be merged -/
  recoveryWaitMerge : Nat := 0
  sent : List MarketEvent := []
  /-- the messages with books, each with those that were passed to `Modify_state` -/
  applied : List (Message × List Book) := []

namespace BookManager

/-- Tell the market listener -/
def send (s : BookManager) (events : List MarketEvent) : BookManager :=
  { s with sent := s.sent ++ events }

/-! ## Definitions and status -/

/-- `DefinitionManager::Get_symbol` -/
def getSymbol (s : BookManager) (securityID : UInt32) : String :=
  match s.instruments[securityID]? with
  | none => ""
  | some definition => definition.symbol

/-- `DefinitionManager::Update_definition`, with `On_definition_changed` as the callback. -/
def updateDefinition (s : BookManager) (instrument : Instrument) : BookManager :=
  if instrument.securityUpdateAction == 'D' then
    -- the callback is not called
    { s with instruments := s.instruments.erase instrument.securityID }
  else
    let s := { s with instruments := s.instruments.insert instrument.securityID instrument }
    let s := s.send [.contractDefinition instrument]
    { s with bookStateController := s.bookStateController.createOrShrink instrument }

/-- `StatusManager::Convert_status` and `Send` -/
def statusEvents (contract : String) : SecurityTradingStatus → List MarketEvent
  | .preOpen => [.contractAuctioning contract]
  | .readyToTrade => [.contractTrading contract]
  | .tradingHalt | .notAvailableForTrading | .close => [.contractNoTrading contract]
  | _ => []

/-- `StatusManager::On_new_status`; the largest positive number stands for no security. -/
def onNewStatus (s : BookManager) (securityID : UInt32) (status : SecurityTradingStatus) :
    BookManager :=
  let contract :=
    if securityID == 2147483647 then ""
    else
      let symbol := s.getSymbol securityID
      if symbol == "" then toString securityID.toNat else symbol
  s.send (statusEvents contract status)

/-! ## Publication -/

/-- Whether a book may change the best prices. -/
def isBBOChanged (b : Book) : Bool :=
  if b.type == 'W' then b.mDPriceLevel == 1
  else if b.type == 'X' then
    match b.mDUpdateAction with
    | .new | .change | .delete => b.mDPriceLevel == 1
    | .deleteThru | .deleteFrom => true
    | _ => false
  else false

/-- The best bid and offer, the one side or none -/
def bboEvents (state : BookState) : List MarketEvent :=
  if state.bid.isEmpty && state.ask.isEmpty then []
  else if !state.bid.isEmpty && !state.ask.isEmpty then [.bbo state]
  else if state.bid.isEmpty then [.offer state]
  else [.bid state]

/-- The trade that an entry reports -/
def tradeEvents (contract : String) (book : Book) : List MarketEvent :=
  match book.mDUpdateAction with
  | .delete | .deleteThru | .deleteFrom => []
  | _ => [.trade contract book]

/-- `BookManager::Send` -/
def bookEvents (b : Book) (changedState : ChangedState) (contract : String) : List MarketEvent :=
  match changedState with
  | .noData | .reset | .bookState none => []
  | .bookState (some state) => .l2 state :: if isBBOChanged b then bboEvents state else []
  | .trade book => tradeEvents contract book

/-- A book is applied, and what comes of it is sent. -/
def applyBook (s : BookManager) (b : Book) : Except OutOfRange BookManager := do
  let (changedState, bookStateController) ← s.bookStateController.modifyState b
  let s := { s with bookStateController }
  return s.send (bookEvents b changedState (s.getSymbol b.securityID))

/-! ## Recovery -/

/-- `RecoveryManager::Remove_past_books`: the books that are left. -/
def removePastBooks (s : BookManager) (messageSeq : UInt32) (books : List Book) :
    List Book × BookManager :=
  if s.recoveryWaitMerge == s.recoveryBooks.length || books.isEmpty then (books, s)
  else
    -- the cursor skips the records before the message
    let skipped :=
      (s.recoveryBooks.drop s.recoveryWaitMerge).takeWhile (·.packetSeqNum < messageSeq)
    let s := { s with recoveryWaitMerge := s.recoveryWaitMerge + skipped.length }
    let rest := s.recoveryBooks.drop s.recoveryWaitMerge
    (rest.foldl (fun books pos => books.filter (!·.securityID == pos.securityID)) books, s)

/-- `RecoveryManager::On_new_recovery` without the sending of the changed books. -/
def applyRecoveryBooks (c : BookStateController) (changed : List UInt32) :
    List Book → Except OutOfRange (List UInt32 × BookStateController)
  | [] => .ok (changed, c)
  | b :: books => do
    let (changedState, c) ← c.modifyState b
    match changedState with
    | .bookState (some _) => applyRecoveryBooks c (b.securityID :: changed) books
    | _ => applyRecoveryBooks c changed books

/-- `RecoveryManager::On_new_recovery`. The books that were changed are sent once each, in
    an order that is not specified; here it is that of their securities. -/
def setRecoveryData (s : BookManager) (messages : List Message) :
    Except OutOfRange BookManager := do
  let books := messages.flatMap (·.recoveryBooks)
  let s := { s with recoveryBooks := s.recoveryBooks ++ books, recoveryWaitMerge := 0 }
  let (changed, bookStateController) ← applyRecoveryBooks s.bookStateController [] s.recoveryBooks
  let states := (bookStateController.mdBookStates.toList.filter (changed.contains ·.1)).map (·.2)
  return { s with bookStateController }.send (states.flatMap fun state => .l2 state :: bboEvents state)

/-- `BookManager::Parse_definition` -/
def setDefinitionData (s : BookManager) (messages : List Message) : BookManager :=
  messages.foldl (fun s m =>
    match m.body with
    | .definition instrument => s.updateDefinition instrument
    | _ => s) s

/-! ## Increments -/

/-- `BookManager::Parse_increment`: the books of a message. -/
def parseIncrement (s : BookManager) (m : Message) : List Book × BookManager :=
  match m.body with
  | .status securityID status => ([], s.onNewStatus securityID status)
  | .definition instrument => ([], s.updateDefinition instrument)
  | .increment templateId entries => (parseX m.packetSeqNum templateId entries, s)
  | .quoteRequest | .snapshot .. | .admin => ([], s)

/-- `BookManager::Parse_to_send` -/
def parseToSend (s : BookManager) (m : Message) : Except OutOfRange BookManager := do
  let (books, s) := s.parseIncrement m
  if books.isEmpty then return s
  let (books, s) := s.removePastBooks m.packetSeqNum books
  books.foldlM applyBook { s with applied := s.applied ++ [(m, books)] }

/-- The messages in the order they are picked. -/
def run (messages : List Message) : Except OutOfRange BookManager :=
  messages.foldlM parseToSend {}

end BookManager

end FixHandler.Cme
