import Mathlib
import FixHandler.Native.Cme.Mktdata
import FixHandler.Native.Cme.MdpMessage

/-!
# The message parsers

The parsers `message_parser_x.cc`, `message_parser_w.cc`, `message_parser_d.cc`
and `message_parser_f.cc`: from the bytes of a message to its books, its instrument or its status.
Every field that the source reads is read, also where nothing comes of it: a read may throw.
-/

namespace FixHandler.Cme

open Sbe Mktdata

namespace MdpMessage

/-- The type of a message, at the place of its template -/
def MDP_MESSAGE_TYPES : String := "----X-------0--A5----------d-df-XXXXXXWR-dXXW"

/-- `message_type`: the text is read up to the zero behind it. -/
def messageType (templateId : UInt16) : Except Fault Char :=
  match (MDP_MESSAGE_TYPES.toList ++ ['\x00'])[templateId.toNat]? with
  | some c => .ok c
  | none => .error .outside

end MdpMessage

/-- A price is sent as its mantissa. -/
def priceOf (f : BlockField Int64) : Accessor Px := do return (← f.get, exponent)

/-! ## Increments -/

namespace MessageParserX

/-- A book with what all the increments leave at zero -/
def book (securityID : Int32) (mDUpdateAction : MDUpdateAction) (mDEntryType : MDEntryType) : Book :=
  { packetSeqNum := 0, type := '\x00', securityID := securityID.toUInt32, mDUpdateAction,
    mDEntryType }

open ChannelReset4.NoMDEntries in
/-- An entry of a channel reset -/
def entry4 : Accessor Book := do
  let type ← MDEntryType.get mDEntryType
  let _ ← applID.get
  return book 0 mDUpdateAction type

open MDIncrementalRefreshBook32.NoMDEntries in
/-- An entry of the book -/
def entry32 : Accessor Book := do
  let mDEntryPx ← priceOf mDEntryPx
  let mDEntrySize ← mDEntrySize.get
  let securityID ← securityID.get
  let _ ← rptSeq.get
  let numberOfOrders ← numberOfOrders.get
  let mDPriceLevel ← mDPriceLevel.get
  let mDUpdateAction ← mDUpdateAction.get
  let mDEntryType ← MDEntryType.get (← mDEntryType.get).val
  return { book securityID mDUpdateAction mDEntryType with
    mDEntryPx, mDEntrySize := mDEntrySize.toUInt32, numberOfOrders := numberOfOrders.toUInt32,
    mDPriceLevel }

open MDIncrementalRefreshDailyStatistics33.NoMDEntries in
/-- An entry of the daily statistics -/
def entry33 : Accessor Book := do
  let mDEntryPx ← priceOf mDEntryPx
  let mDEntrySize ← mDEntrySize.get
  let securityID ← securityID.get
  let _ ← rptSeq.get
  let _ ← tradingReferenceDate.get
  let mDUpdateAction ← mDUpdateAction.get
  let mDEntryType ← MDEntryType.get (← mDEntryType.get).val
  let _ ← settlPriceType.get
  return { book securityID mDUpdateAction mDEntryType with
    mDEntryPx, mDEntrySize := mDEntrySize.toUInt32 }

open MDIncrementalRefreshLimitsBanding34.NoMDEntries in
/-- An entry of the limits and bands -/
def entry34 : Accessor Book := do
  let _ ← priceOf highLimitPrice
  let _ ← priceOf lowLimitPrice
  let _ ← priceOf maxPriceVariation
  let securityID ← securityID.get
  let _ ← rptSeq.get
  let mDEntryType ← MDEntryType.get mDEntryType
  return book securityID mDUpdateAction mDEntryType

open MDIncrementalRefreshSessionStatistics35.NoMDEntries in
/-- An entry of the session statistics -/
def entry35 : Accessor Book := do
  let mDEntryPx ← priceOf mDEntryPx
  let securityID ← securityID.get
  let _ ← rptSeq.get
  let _ ← openCloseSettlFlag.get
  let mDUpdateAction ← mDUpdateAction.get
  let mDEntryType ← MDEntryType.get (← mDEntryType.get).val
  let mDEntrySize ← mDEntrySize.get
  return { book securityID mDUpdateAction mDEntryType with
    mDEntryPx, mDEntrySize := mDEntrySize.toUInt32 }

open MDIncrementalRefreshTrade36.NoMDEntries in
/-- An entry of the trades -/
def entry36 : Accessor Book := do
  let mDEntryPx ← priceOf mDEntryPx
  let mDEntrySize ← mDEntrySize.get
  let securityID ← securityID.get
  let _ ← rptSeq.get
  let numberOfOrders ← numberOfOrders.get
  let _ ← tradeID.get
  let _ ← aggressorSide.get
  let mDUpdateAction ← mDUpdateAction.get
  let mDEntryType ← MDEntryType.get mDEntryType
  return { book securityID mDUpdateAction mDEntryType with
    mDEntryPx, mDEntrySize := mDEntrySize.toUInt32, numberOfOrders := numberOfOrders.toUInt32 }

open MDIncrementalRefreshVolume37.NoMDEntries in
/-- An entry of the volumes -/
def entry37 : Accessor Book := do
  let mDEntrySize ← mDEntrySize.get
  let securityID ← securityID.get
  let _ ← rptSeq.get
  let mDUpdateAction ← mDUpdateAction.get
  let mDEntryType ← MDEntryType.get mDEntryType
  return { book securityID mDUpdateAction mDEntryType with mDEntrySize := mDEntrySize.toUInt32 }

open MDIncrementalRefreshTradeSummary42.NoMDEntries in
/-- An entry of the trade summary -/
def entry42 : Accessor Book := do
  let mDEntryPx ← priceOf mDEntryPx
  let mDEntrySize ← mDEntrySize.get
  let securityID ← securityID.get
  let _ ← rptSeq.get
  let numberOfOrders ← numberOfOrders.get
  let _ ← aggressorSide.get
  let mDUpdateAction ← mDUpdateAction.get
  let mDEntryType ← MDEntryType.get mDEntryType
  let _ ← mDTradeEntryID.get
  return { book securityID mDUpdateAction mDEntryType with
    mDEntryPx, mDEntrySize := mDEntrySize.toUInt32, numberOfOrders := numberOfOrders.toUInt32 }

/-- What a template makes of an entry -/
def entry? (templateId : UInt16) : Option (Accessor Book) :=
  match templateId.toNat with
  | 4 => some entry4
  | 32 => some entry32
  | 33 => some entry33
  | 34 => some entry34
  | 35 => some entry35
  | 36 => some entry36
  | 37 => some entry37
  | 42 => some entry42
  -- 43 is for market by order
  | _ => none

/-- `Parse_4` and the others. `Set_match_event_indicator` reads the bits of the event. -/
def parseEntries (entry : Accessor Book) (body : SbeBody) : Except Fault (List Book) := do
  let (entries, _) ← body.group groupSize entry
  let _ ← Increment.matchEventIndicator.get body.root
  return entries

/-- `Parse`, up to what `parseX` makes of the entries -/
def parse (templateId : UInt16) (body : SbeBody) : Except Fault (List Book) :=
  match entry? templateId with
  | some entry => parseEntries entry body
  | none => .ok []

end MessageParserX

/-! ## Recovery messages -/

namespace MessageParserW

open SnapshotFullRefresh38.NoMDEntries in
/-- An entry of a snapshot -/
def entry38 : Accessor Book := do
  let mDEntryPx ← priceOf mDEntryPx
  let mDEntrySize ← mDEntrySize.get
  let numberOfOrders ← numberOfOrders.get
  let mDPriceLevel ← mDPriceLevel.get
  let _ ← tradingReferenceDate.get
  let _ ← openCloseSettlFlag.get
  let _ ← settlPriceType.get
  let mDEntryType ← mDEntryType.get
  return { MessageParserX.book 0 .new mDEntryType with
    mDEntryPx, mDEntrySize := mDEntrySize.toUInt32, numberOfOrders := numberOfOrders.toUInt32,
    mDPriceLevel := mDPriceLevel.toUInt8 }

open SnapshotFullRefreshOrderBook44.NoMDEntries in
/-- An entry of a snapshot of the order book -/
def entry44 : Accessor Book := do
  let _ ← orderID.get
  let _ ← mDOrderPriority.get
  let mDEntryPx ← priceOf mDEntryPx
  let _ ← mDDisplayQty.get
  let mDEntryType ← MDEntryType.get (← mDEntryType.get).val
  return { MessageParserX.book 0 .new mDEntryType with mDEntryPx }

open SnapshotFullRefresh38 in
/-- A snapshot -/
def parse38 (body : SbeBody) : Except Fault (UInt32 × UInt32 × List Book) := do
  let (entries, _) ← body.group groupSize entry38
  let lastMsgSeqNumProcessed ← lastMsgSeqNumProcessed.get body.root
  let securityID ← securityID.get body.root
  let _ ← rptSeq.get body.root
  let _ ← priceOf highLimitPrice body.root
  let _ ← priceOf lowLimitPrice body.root
  let _ ← priceOf maxPriceVariation body.root
  return (lastMsgSeqNumProcessed, securityID.toUInt32, entries)

open SnapshotFullRefreshOrderBook44 in
/-- A snapshot of the order book -/
def parse44 (body : SbeBody) : Except Fault (UInt32 × UInt32 × List Book) := do
  let (entries, _) ← body.group groupSize entry44
  let lastMsgSeqNumProcessed ← lastMsgSeqNumProcessed.get body.root
  let securityID ← securityID.get body.root
  return (lastMsgSeqNumProcessed, securityID.toUInt32, entries)

/-- `Parse`, up to what `parseW` makes of the entries: the number and the security are those of all
    of them. -/
def parse (templateId : UInt16) (body : SbeBody) : Except Fault (UInt32 × UInt32 × List Book) :=
  match templateId.toNat with
  | 38 => parse38 body
  | 44 => parse44 body
  | _ => .ok (0, 0, [])

end MessageParserW

/-! ## Definitions and status -/

/-- `Trim_null`: what comes before the first zero. -/
def trimNull (bs : List UInt8) : String :=
  String.ofList ((bs.takeWhile (· != 0)).map fun b => Char.ofNat b.toNat)

namespace MessageParserD

/-- An entry of the feed types: the depth of the book with real orders, if it is that. -/
def feedType : Accessor (Option UInt8) := do
  let mDFeedType ← Definition.NoMDFeedTypes.mDFeedType
  let marketDepth ← Definition.NoMDFeedTypes.marketDepth.get
  return if mDFeedType == "GBX".toUTF8.toList then some marketDepth.toUInt8 else none

/-- `Parse_X`. The last depth counts; that of the implied book is not kept here. -/
def parseX (definition : Definition) (body : SbeBody) : Except Fault Instrument := do
  let root := body.root
  let _ ← Definition.applID.get root
  let securityID ← Definition.securityID.get root
  let securityUpdateAction ← Definition.securityUpdateAction.get root
  let symbol ← Definition.symbol root
  let minPriceIncrement ← priceOf definition.minPriceIncrement root
  let highLimitPrice ← priceOf definition.highLimitPrice root
  let lowLimitPrice ← priceOf definition.lowLimitPrice root
  -- the events have to be skipped before the feed types are found
  let (_, body) ← body.group groupSize (pure ())
  let (depths, _) ← body.group groupSize feedType
  return {
    securityUpdateAction := Char.ofNat securityUpdateAction.val.toNat
    securityID := securityID.toUInt32
    symbol := trimNull symbol
    minPriceIncrement, highLimitPrice, lowLimitPrice
    depthGBX := (depths.filterMap id).getLast?.getD 0 }

def parse27 : SbeBody → Except Fault Instrument := parseX MDInstrumentDefinitionFuture27
def parse29 : SbeBody → Except Fault Instrument := parseX MDInstrumentDefinitionSpread29
def parse41 : SbeBody → Except Fault Instrument := parseX MDInstrumentDefinitionOption41

def parse (templateId : UInt16) (body : SbeBody) : Except Fault (Option Instrument) :=
  match templateId.toNat with
  | 27 => some <$> parse27 body
  | 29 => some <$> parse29 body
  | 41 => some <$> parse41 body
  | _ => .ok none

end MessageParserD

namespace MessageParserF

open SecurityStatus30 in
/-- A trading status -/
def parse30 (body : SbeBody) : Except Fault (UInt32 × SecurityTradingStatus) := do
  let securityID ← securityID.get body.root
  let securityTradingStatus ← securityTradingStatus.get body.root
  return (securityID.toUInt32, securityTradingStatus)

end MessageParserF

/-! ## Messages -/

namespace MdpMessage

/-- What the parser of the message's type makes of it -/
def parseBody (templateId : UInt16) (body : SbeBody) : Except Fault Body := do
  match ← messageType templateId with
  | 'f' =>
    let (securityID, status) ← MessageParserF.parse30 body
    return .status securityID status
  | 'd' =>
    match ← MessageParserD.parse templateId body with
    | some instrument => return .definition instrument
    | none => return .admin
  | 'R' => return .quoteRequest
  | 'X' => return .increment templateId (← MessageParserX.parse templateId body)
  | 'W' =>
    let (lastMsgSeqNumProcessed, securityID, entries) ← MessageParserW.parse templateId body
    return .snapshot lastMsgSeqNumProcessed securityID entries
  | _ => return .admin

/-- A message that is decoded when it is made, and parsed. -/
def parse (m : MdpMessage) : Except Fault Message := do
  match ← SBEDecoder.startDecode m.buffer with
  | (templateId, some body) => return ⟨m.packetSeqNum, ← parseBody templateId body⟩
  | (templateId, none) =>
    let _ ← messageType templateId
    return ⟨m.packetSeqNum, .admin⟩

end MdpMessage

end FixHandler.Cme
