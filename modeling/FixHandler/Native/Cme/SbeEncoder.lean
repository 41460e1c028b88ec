import Mathlib
import FixHandler.Native.Cme.Mktdata

/-!
# The encoder of test messages

`sbe_encoder.cc`, which the test server makes its packets with. The setters are called in the order of
the source. What it draws at random or fixes for a field is a parameter here.
-/

namespace FixHandler.Cme

open Sbe Mktdata

/-- The types of entry that an enumeration has a name for -/
abbrev EntryTypeOf (e : Enum) : Type := { t : MDEntryType // t.value ∈ e.values }

/-- What the setter of the type is given -/
def EntryTypeOf.value {e : Enum} (t : EntryTypeOf e) : { v : UInt8 // v ∈ e.values } :=
  ⟨t.val.value, t.property⟩

/-! ## Entries -/

/-- An entry of a channel reset -/
structure Entry4 where
  applID : Int16

open ChannelReset4.NoMDEntries in
def writes4 (e : Entry4) : Writes := [applID.put e.applID]

/-- An entry of the book -/
structure Entry32 where
  mDEntryPx : Int64
  securityID : Int32
  rptSeq : UInt32
  numberOfOrders : Int32
  mDEntrySize : Int32
  mDPriceLevel : UInt8
  mDUpdateAction : MDUpdateAction
  mDEntryType : EntryTypeOf MDEntryTypeBook

open MDIncrementalRefreshBook32.NoMDEntries in
def writes32 (e : Entry32) : Writes :=
  [mDEntryPx.put e.mDEntryPx, securityID.put e.securityID, rptSeq.put e.rptSeq,
    numberOfOrders.put e.numberOfOrders, mDEntrySize.put e.mDEntrySize,
    mDPriceLevel.put e.mDPriceLevel, mDUpdateAction.put e.mDUpdateAction,
    mDEntryType.put e.mDEntryType.value]

/-- An entry of the group of order numbers behind the entries of a book -/
structure OrderIDEntry32 where
  orderID : UInt64
  mDOrderPriority : UInt64
  mDDisplayQty : Int32
  referenceID : UInt8
  orderUpdateAction : { v : UInt8 // v ∈ OrderUpdateAction.values }

open MDIncrementalRefreshBook32.NoOrderIDEntries in
def orderIDWrites32 (e : OrderIDEntry32) : Writes :=
  [orderID.put e.orderID, mDOrderPriority.put e.mDOrderPriority, mDDisplayQty.put e.mDDisplayQty,
    referenceID.put e.referenceID, orderUpdateAction.put e.orderUpdateAction]

/-- An entry of the daily statistics -/
structure Entry33 where
  mDEntryPx : Int64
  settlPriceType : UInt8
  securityID : Int32
  rptSeq : UInt32
  mDEntrySize : Int32
  tradingReferenceDate : UInt16
  mDUpdateAction : MDUpdateAction
  mDEntryType : EntryTypeOf MDEntryTypeDailyStatistics

open MDIncrementalRefreshDailyStatistics33.NoMDEntries in
def writes33 (e : Entry33) : Writes :=
  [mDEntryPx.put e.mDEntryPx, settlPriceType.put e.settlPriceType, securityID.put e.securityID,
    rptSeq.put e.rptSeq, mDEntrySize.put e.mDEntrySize,
    tradingReferenceDate.put e.tradingReferenceDate, mDUpdateAction.put e.mDUpdateAction,
    mDEntryType.put e.mDEntryType.value]

/-- An entry of the limits and bands -/
structure Entry34 where
  highLimitPrice : Int64
  lowLimitPrice : Int64
  maxPriceVariation : Int64
  securityID : Int32
  rptSeq : UInt32

open MDIncrementalRefreshLimitsBanding34.NoMDEntries in
def writes34 (e : Entry34) : Writes :=
  [highLimitPrice.put e.highLimitPrice, lowLimitPrice.put e.lowLimitPrice,
    maxPriceVariation.put e.maxPriceVariation, securityID.put e.securityID, rptSeq.put e.rptSeq]

/-- An entry of the session statistics -/
structure Entry35 where
  mDEntryPx : Int64
  securityID : Int32
  rptSeq : UInt32
  openCloseSettlFlag : { v : UInt8 // v ∈ OpenCloseSettlFlag.values }
  mDEntrySize : Int32
  mDUpdateAction : MDUpdateAction
  mDEntryType : EntryTypeOf MDEntryTypeStatistics

open MDIncrementalRefreshSessionStatistics35.NoMDEntries in
def writes35 (e : Entry35) : Writes :=
  [mDEntryPx.put e.mDEntryPx, securityID.put e.securityID, rptSeq.put e.rptSeq,
    openCloseSettlFlag.put e.openCloseSettlFlag, mDEntrySize.put e.mDEntrySize,
    mDUpdateAction.put e.mDUpdateAction, mDEntryType.put e.mDEntryType.value]

/-- An entry of the trades -/
structure Entry36 where
  mDEntryPx : Int64
  securityID : Int32
  rptSeq : UInt32
  numberOfOrders : Int32
  mDEntrySize : Int32
  tradeID : Int32
  aggressorSide : { v : UInt8 // v ∈ AggressorSide.values }
  mDUpdateAction : MDUpdateAction

open MDIncrementalRefreshTrade36.NoMDEntries in
def writes36 (e : Entry36) : Writes :=
  [mDEntryPx.put e.mDEntryPx, securityID.put e.securityID, rptSeq.put e.rptSeq,
    numberOfOrders.put e.numberOfOrders, mDEntrySize.put e.mDEntrySize, tradeID.put e.tradeID,
    aggressorSide.put e.aggressorSide, mDUpdateAction.put e.mDUpdateAction]

/-- An entry of the volumes -/
structure Entry37 where
  mDEntrySize : Int32
  securityID : Int32
  rptSeq : UInt32
  mDUpdateAction : MDUpdateAction

open MDIncrementalRefreshVolume37.NoMDEntries in
def writes37 (e : Entry37) : Writes :=
  [mDEntrySize.put e.mDEntrySize, securityID.put e.securityID, rptSeq.put e.rptSeq,
    mDUpdateAction.put e.mDUpdateAction]

/-- An entry of the trade summary -/
structure Entry42 where
  mDEntryPx : Int64
  securityID : Int32
  rptSeq : UInt32
  numberOfOrders : Int32
  mDTradeEntryID : UInt32
  aggressorSide : { v : UInt8 // v ∈ AggressorSide.values }
  mDEntrySize : Int32
  mDUpdateAction : MDUpdateAction

open MDIncrementalRefreshTradeSummary42.NoMDEntries in
def writes42 (e : Entry42) : Writes :=
  [mDEntryPx.put e.mDEntryPx, securityID.put e.securityID, rptSeq.put e.rptSeq,
    numberOfOrders.put e.numberOfOrders, mDTradeEntryID.put e.mDTradeEntryID,
    aggressorSide.put e.aggressorSide, mDEntrySize.put e.mDEntrySize,
    mDUpdateAction.put e.mDUpdateAction]

/-- An entry of the group of order numbers behind the entries of a trade -/
structure OrderIDEntry42 where
  orderID : UInt64
  lastQty : Int32

open MDIncrementalRefreshTradeSummary42.NoOrderIDEntries in
def orderIDWrites42 (e : OrderIDEntry42) : Writes :=
  [orderID.put e.orderID, lastQty.put e.lastQty]

/-- An entry of a snapshot -/
structure Entry38 where
  mDEntryPx : Int64
  mDEntrySize : Int32
  numberOfOrders : Int32
  mDPriceLevel : Int8
  tradingReferenceDate : UInt16
  openCloseSettlFlag : { v : UInt8 // v ∈ OpenCloseSettlFlag.values }
  settlPriceType : UInt8
  mDEntryType : MDEntryType

open SnapshotFullRefresh38.NoMDEntries in
def writes38 (e : Entry38) : Writes :=
  [mDEntryPx.put e.mDEntryPx, mDEntrySize.put e.mDEntrySize, numberOfOrders.put e.numberOfOrders,
    mDPriceLevel.put e.mDPriceLevel, tradingReferenceDate.put e.tradingReferenceDate,
    openCloseSettlFlag.put e.openCloseSettlFlag, settlPriceType.put e.settlPriceType,
    mDEntryType.put e.mDEntryType]

/-- An entry of a snapshot of the order book -/
structure Entry44 where
  orderID : UInt64
  mDOrderPriority : UInt64
  mDEntryPx : Int64
  mDDisplayQty : Int32
  mDEntryType : EntryTypeOf MDEntryTypeBook

open SnapshotFullRefreshOrderBook44.NoMDEntries in
def writes44 (e : Entry44) : Writes :=
  [orderID.put e.orderID, mDOrderPriority.put e.mDOrderPriority, mDEntryPx.put e.mDEntryPx,
    mDDisplayQty.put e.mDDisplayQty, mDEntryType.put e.mDEntryType.value]

/-! ## Root blocks -/

/-- The root block of an increment -/
structure IncrementRoot where
  transactTime : UInt64
  matchEventIndicator : UInt8

open Increment in
def rootWrites (r : IncrementRoot) : Writes :=
  [transactTime.put r.transactTime, matchEventIndicator.put r.matchEventIndicator]

/-- The root block of a snapshot -/
structure Root38 where
  lastMsgSeqNumProcessed : UInt32
  totNumReports : UInt32
  securityID : Int32
  rptSeq : UInt32
  transactTime : UInt64
  lastUpdateTime : UInt64
  tradeDate : UInt16
  mDSecurityTradingStatus : SecurityTradingStatus
  highLimitPrice : Int64
  lowLimitPrice : Int64
  maxPriceVariation : Int64

open SnapshotFullRefresh38 in
def rootWrites38 (r : Root38) : Writes :=
  [lastMsgSeqNumProcessed.put r.lastMsgSeqNumProcessed, totNumReports.put r.totNumReports,
    securityID.put r.securityID, rptSeq.put r.rptSeq, transactTime.put r.transactTime,
    lastUpdateTime.put r.lastUpdateTime, tradeDate.put r.tradeDate,
    mDSecurityTradingStatus.put r.mDSecurityTradingStatus, highLimitPrice.put r.highLimitPrice,
    lowLimitPrice.put r.lowLimitPrice, maxPriceVariation.put r.maxPriceVariation]

/-- The root block of a snapshot of the order book -/
structure Root44 where
  lastMsgSeqNumProcessed : UInt32
  totNumReports : UInt32
  securityID : Int32
  noChunks : UInt32
  currentChunk : UInt32
  transactTime : UInt64

open SnapshotFullRefreshOrderBook44 in
def rootWrites44 (r : Root44) : Writes :=
  [lastMsgSeqNumProcessed.put r.lastMsgSeqNumProcessed, totNumReports.put r.totNumReports,
    securityID.put r.securityID, noChunks.put r.noChunks, currentChunk.put r.currentChunk,
    transactTime.put r.transactTime]

/-! ## Messages -/

namespace SBEEncoder

/-- `BUFFER_MAX_LENGTH`, the size of the encoder's buffer -/
def bufferMaxLength : Nat := 1024 * 2

/-- `Encode_header` -/
def encodeHeader (blockLength : Nat) (templateId : UInt16) (buffer : List UInt8) :
    Except Fault (List UInt8) := do
  wrap 0 MessageHeader.encodedLength ⟨buffer, 0, 0⟩
  putAll 0
    [MessageHeader.blockLength.put (.ofNat blockLength), MessageHeader.templateId.put templateId,
      MessageHeader.schemaId.put sbeSchemaId, MessageHeader.version.put sbeSchemaVersion] buffer

/-- The root block: `wrapForEncode`, and the setters. The position moves behind it. -/
def encodeRoot (blockLength : Nat) (writes : Writes) (buffer : List UInt8) :
    Except Fault (List UInt8 × Nat) :=
  let position := MessageHeader.encodedLength + blockLength
  if buffer.length < position then .error (.thrown "buffer too short [E100]")
  else do
    let buffer ← putAll MessageHeader.encodedLength writes buffer
    return (buffer, position)

/-- A group, and another one behind it -/
def andThen (first second : List UInt8 → Nat → Except Fault (List UInt8 × Nat))
    (buffer : List UInt8) (position : Nat) : Except Fault (List UInt8 × Nat) := do
  let (buffer, position) ← first buffer position
  second buffer position

/-- A message, up to the position behind its last group -/
def encode (templateId : UInt16) (blockLength : Nat) (root : Writes)
    (groups : List UInt8 → Nat → Except Fault (List UInt8 × Nat)) (buffer : List UInt8) :
    Except Fault (List UInt8) := do
  let buffer ← encodeHeader blockLength templateId buffer
  let (buffer, position) ← encodeRoot blockLength root buffer
  let (buffer, position) ← groups buffer position
  return buffer.take position

/-! `Encode_message` for each of the templates -/

open ChannelReset4 in
def encodeMessage4 (root : IncrementRoot) (entries : List Entry4) :
    List UInt8 → Except Fault (List UInt8) :=
  encode sbeTemplateId sbeBlockLength (rootWrites root)
    (putGroup groupSize NoMDEntries.sbeBlockLength writes4 entries)

open MDIncrementalRefreshBook32 in
def encodeMessage32 (root : IncrementRoot) (entries : List Entry32) (orders : List OrderIDEntry32) :
    List UInt8 → Except Fault (List UInt8) :=
  encode sbeTemplateId sbeBlockLength (rootWrites root)
    (andThen (putGroup groupSize NoMDEntries.sbeBlockLength writes32 entries)
      (putGroup groupSize8Byte NoOrderIDEntries.sbeBlockLength orderIDWrites32 orders))

open MDIncrementalRefreshDailyStatistics33 in
def encodeMessage33 (root : IncrementRoot) (entries : List Entry33) :
    List UInt8 → Except Fault (List UInt8) :=
  encode sbeTemplateId sbeBlockLength (rootWrites root)
    (putGroup groupSize NoMDEntries.sbeBlockLength writes33 entries)

open MDIncrementalRefreshLimitsBanding34 in
def encodeMessage34 (root : IncrementRoot) (entries : List Entry34) :
    List UInt8 → Except Fault (List UInt8) :=
  encode sbeTemplateId sbeBlockLength (rootWrites root)
    (putGroup groupSize NoMDEntries.sbeBlockLength writes34 entries)

open MDIncrementalRefreshSessionStatistics35 in
def encodeMessage35 (root : IncrementRoot) (entries : List Entry35) :
    List UInt8 → Except Fault (List UInt8) :=
  encode sbeTemplateId sbeBlockLength (rootWrites root)
    (putGroup groupSize NoMDEntries.sbeBlockLength writes35 entries)

open MDIncrementalRefreshTrade36 in
def encodeMessage36 (root : IncrementRoot) (entries : List Entry36) :
    List UInt8 → Except Fault (List UInt8) :=
  encode sbeTemplateId sbeBlockLength (rootWrites root)
    (putGroup groupSize NoMDEntries.sbeBlockLength writes36 entries)

open MDIncrementalRefreshVolume37 in
def encodeMessage37 (root : IncrementRoot) (entries : List Entry37) :
    List UInt8 → Except Fault (List UInt8) :=
  encode sbeTemplateId sbeBlockLength (rootWrites root)
    (putGroup groupSize NoMDEntries.sbeBlockLength writes37 entries)

open MDIncrementalRefreshTradeSummary42 in
def encodeMessage42 (root : IncrementRoot) (entries : List Entry42) (orders : List OrderIDEntry42) :
    List UInt8 → Except Fault (List UInt8) :=
  encode sbeTemplateId sbeBlockLength (rootWrites root)
    (andThen (putGroup groupSize NoMDEntries.sbeBlockLength writes42 entries)
      (putGroup groupSize8Byte NoOrderIDEntries.sbeBlockLength orderIDWrites42 orders))

open SnapshotFullRefresh38 in
def encodeMessage38 (root : Root38) (entries : List Entry38) :
    List UInt8 → Except Fault (List UInt8) :=
  encode sbeTemplateId sbeBlockLength (rootWrites38 root)
    (putGroup groupSize NoMDEntries.sbeBlockLength writes38 entries)

open SnapshotFullRefreshOrderBook44 in
def encodeMessage44 (root : Root44) (entries : List Entry44) :
    List UInt8 → Except Fault (List UInt8) :=
  encode sbeTemplateId sbeBlockLength (rootWrites44 root)
    (putGroup groupSize NoMDEntries.sbeBlockLength writes44 entries)

end SBEEncoder

/-- What is drawn for a message of one of the templates -/
inductive Draw where
  | channelReset4 (root : IncrementRoot) (entries : List Entry4)
  | book32 (root : IncrementRoot) (entries : List Entry32) (orders : List OrderIDEntry32)
  | dailyStatistics33 (root : IncrementRoot) (entries : List Entry33)
  | limitsBanding34 (root : IncrementRoot) (entries : List Entry34)
  | sessionStatistics35 (root : IncrementRoot) (entries : List Entry35)
  | trade36 (root : IncrementRoot) (entries : List Entry36)
  | volume37 (root : IncrementRoot) (entries : List Entry37)
  | tradeSummary42 (root : IncrementRoot) (entries : List Entry42) (orders : List OrderIDEntry42)
  | snapshot38 (root : Root38) (entries : List Entry38)
  | snapshot44 (root : Root44) (entries : List Entry44)

namespace SBEEncoder

/-- `Start_encode`. What the buffer holds before is not cleared. -/
def startEncode : Draw → List UInt8 → Except Fault (List UInt8)
  | .channelReset4 root entries => encodeMessage4 root entries
  | .book32 root entries orders => encodeMessage32 root entries orders
  | .dailyStatistics33 root entries => encodeMessage33 root entries
  | .limitsBanding34 root entries => encodeMessage34 root entries
  | .sessionStatistics35 root entries => encodeMessage35 root entries
  | .trade36 root entries => encodeMessage36 root entries
  | .volume37 root entries => encodeMessage37 root entries
  | .tradeSummary42 root entries orders => encodeMessage42 root entries orders
  | .snapshot38 root entries => encodeMessage38 root entries
  | .snapshot44 root entries => encodeMessage44 root entries

end SBEEncoder

end FixHandler.Cme
