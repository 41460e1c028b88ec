import Mathlib
import FixHandler.Sbe.BlockField
import FixHandler.Native.Cme.BookManager

/-!
# The generated classes

The classes under `message/mktdata/`: the enumerations, the headers of messages and groups, and for
each template the fields of its messages and of the entries of its groups. What nothing here reads
is left out of the definitions and of the other messages.
-/

namespace FixHandler.Cme

open Sbe

/-! ## Enumerations -/

namespace MDEntryType

def get (value : UInt8) : Accessor MDEntryType :=
  match value with
  | 48 => pure .bid
  | 49 => pure .offer
  | 50 => pure .trade
  | 52 => pure .openPrice
  | 54 => pure .settlementPrice
  | 55 => pure .tradingSessionHighPrice
  | 56 => pure .tradingSessionLowPrice
  | 66 => pure .clearedVolume
  | 67 => pure .openInterest
  | 69 => pure .impliedBid
  | 70 => pure .impliedOffer
  | 74 => pure .bookReset
  | 78 => pure .sessionHighBid
  | 79 => pure .sessionLowOffer
  | 87 => pure .fixingPrice
  | 101 => pure .electronicVolume
  | 103 => pure .thresholdLimitsandPriceBandVariation
  | 0 => pure .nullValue
  | _ => throw "unknown value for enum MDEntryType [E103]"

def value : MDEntryType → UInt8
  | .bid => 48
  | .offer => 49
  | .trade => 50
  | .openPrice => 52
  | .settlementPrice => 54
  | .tradingSessionHighPrice => 55
  | .tradingSessionLowPrice => 56
  | .clearedVolume => 66
  | .openInterest => 67
  | .impliedBid => 69
  | .impliedOffer => 70
  | .bookReset => 74
  | .sessionHighBid => 78
  | .sessionLowOffer => 79
  | .fixingPrice => 87
  | .electronicVolume => 101
  | .thresholdLimitsandPriceBandVariation => 103
  | .nullValue => 0

theorem get_value (t : MDEntryType) : get t.value = pure t := by cases t <;> rfl

theorem within_get (value : UInt8) (size : Nat) : Within (get value) size := by
  unfold get
  split <;> first | exact .pure _ | exact .throw _

end MDEntryType

namespace MDUpdateAction

def get (value : UInt8) : Accessor MDUpdateAction :=
  match value with
  | 0 => pure .new
  | 1 => pure .change
  | 2 => pure .delete
  | 3 => pure .deleteThru
  | 4 => pure .deleteFrom
  | 5 => pure .overlay
  | 255 => pure .nullValue
  | _ => throw "unknown value for enum MDUpdateAction [E103]"

def value : MDUpdateAction → UInt8
  | .new => 0
  | .change => 1
  | .delete => 2
  | .deleteThru => 3
  | .deleteFrom => 4
  | .overlay => 5
  | .nullValue => 255

theorem get_value (a : MDUpdateAction) : get a.value = pure a := by cases a <;> rfl

theorem within_get (value : UInt8) (size : Nat) : Within (get value) size := by
  unfold get
  split <;> first | exact .pure _ | exact .throw _

end MDUpdateAction

namespace SecurityTradingStatus

def get (value : UInt8) : Accessor SecurityTradingStatus :=
  match value with
  | 2 => pure .tradingHalt
  | 4 => pure .close
  | 15 => pure .newPriceIndication
  | 17 => pure .readyToTrade
  | 18 => pure .notAvailableForTrading
  | 20 => pure .unknownorInvalid
  | 21 => pure .preOpen
  | 24 => pure .preCross
  | 25 => pure .cross
  | 26 => pure .postClose
  | 103 => pure .noChange
  | 255 => pure .nullValue
  | _ => throw "unknown value for enum SecurityTradingStatus [E103]"

def value : SecurityTradingStatus → UInt8
  | .tradingHalt => 2
  | .close => 4
  | .newPriceIndication => 15
  | .readyToTrade => 17
  | .notAvailableForTrading => 18
  | .unknownorInvalid => 20
  | .preOpen => 21
  | .preCross => 24
  | .cross => 25
  | .postClose => 26
  | .noChange => 103
  | .nullValue => 255

theorem get_value (s : SecurityTradingStatus) : get s.value = pure s := by cases s <;> rfl

theorem within_get (value : UInt8) (size : Nat) : Within (get value) size := by
  unfold get
  split <;> first | exact .pure _ | exact .throw _

end SecurityTradingStatus

namespace Mktdata

/-- An enumeration is given by its name and its values. -/
structure Enum where
  name : String
  values : List UInt8

/-- `get` -/
def Enum.get (e : Enum) (value : UInt8) : Accessor { v : UInt8 // v ∈ e.values } :=
  if h : value ∈ e.values then pure ⟨value, h⟩
  else throw s!"unknown value for enum {e.name} [E103]"

def MDEntryTypeBook : Enum := ⟨"MDEntryTypeBook", [48, 49, 69, 70, 74, 0]⟩

def MDEntryTypeDailyStatistics : Enum := ⟨"MDEntryTypeDailyStatistics", [54, 66, 67, 87, 0]⟩

def MDEntryTypeStatistics : Enum := ⟨"MDEntryTypeStatistics", [52, 55, 56, 78, 79, 0]⟩

def AggressorSide : Enum := ⟨"AggressorSide", [0, 1, 2, 255]⟩

def OpenCloseSettlFlag : Enum := ⟨"OpenCloseSettlFlag", [0, 5, 255]⟩

def OrderUpdateAction : Enum := ⟨"OrderUpdateAction", [0, 1, 2, 255]⟩

def SecurityUpdateAction : Enum := ⟨"SecurityUpdateAction", [65, 68, 77, 0]⟩

namespace Enum

variable (e : Enum)

theorem get_val (v : { v : UInt8 // v ∈ e.values }) : e.get v.val = pure v := dif_pos v.property

theorem within_get (value : UInt8) (size : Nat) : Within (e.get value) size := by
  unfold get
  split
  · exact .pure _
  · exact .throw _

/-- A field with the values of an enumeration -/
def field (place : Nat) : BlockField { v : UInt8 // v ∈ e.values } :=
  .enumeration place e.get Subtype.val e.get_val fun v => e.within_get v _

end Enum

def mDEntryType (place : Nat) : BlockField MDEntryType :=
  .enumeration place MDEntryType.get MDEntryType.value MDEntryType.get_value fun v =>
    MDEntryType.within_get v _

def mDUpdateAction (place : Nat) : BlockField MDUpdateAction :=
  .enumeration place MDUpdateAction.get MDUpdateAction.value MDUpdateAction.get_value fun v =>
    MDUpdateAction.within_get v _

def securityTradingStatus (place : Nat) : BlockField SecurityTradingStatus :=
  .enumeration place SecurityTradingStatus.get SecurityTradingStatus.value
    SecurityTradingStatus.get_value fun v => SecurityTradingStatus.within_get v _

/-! ## Composites -/

/-- `PRICE` and `PRICENULL`: the mantissa is sent, the exponent is the same for all prices. -/
def mantissa (place : Nat) : BlockField Int64 := .composite (.int64 place)

def exponent : Int8 := -7

/-- `MatchEventIndicator` and `SettlPriceType`: a set of bits -/
def bits (place : Nat) : BlockField UInt8 := .composite (.uint8 place)

def groupSize : Dimensions := ⟨3, 2, by decide, by decide⟩

def groupSize8Byte : Dimensions := ⟨8, 7, by decide, by decide⟩

namespace MessageHeader

def encodedLength : Nat := 8

def blockLength : BlockField UInt16 := .uint16 0
def templateId : BlockField UInt16 := .uint16 2
def schemaId : BlockField UInt16 := .uint16 4
def version : BlockField UInt16 := .uint16 6

end MessageHeader

/-- All templates are of this schema. -/
def sbeSchemaId : UInt16 := 1
def sbeSchemaVersion : UInt16 := 8

/-! ## Increments -/

namespace Increment

/-! What all the increments begin with -/

def transactTime : BlockField UInt64 := .uint64 0
def matchEventIndicator : BlockField UInt8 := bits 8

end Increment

namespace ChannelReset4

def sbeTemplateId : UInt16 := 4
def sbeBlockLength : Nat := 9

namespace NoMDEntries

def sbeBlockLength : Nat := 2
def mDUpdateAction : MDUpdateAction := .new
def mDEntryType : UInt8 := 74
def applID : BlockField Int16 := .since 3 (-32768) (.int16 0)

end NoMDEntries

end ChannelReset4

namespace MDIncrementalRefreshBook32

def sbeTemplateId : UInt16 := 32
def sbeBlockLength : Nat := 11

namespace NoMDEntries

def sbeBlockLength : Nat := 32
def mDEntryPx : BlockField Int64 := mantissa 0
def mDEntrySize : BlockField Int32 := .int32 8
def securityID : BlockField Int32 := .int32 12
def rptSeq : BlockField UInt32 := .uint32 16
def numberOfOrders : BlockField Int32 := .int32 20
def mDPriceLevel : BlockField UInt8 := .uint8 24
def mDUpdateAction : BlockField MDUpdateAction := Mktdata.mDUpdateAction 25
def mDEntryType : BlockField { v : UInt8 // v ∈ MDEntryTypeBook.values } := MDEntryTypeBook.field 26

end NoMDEntries

namespace NoOrderIDEntries

def sbeBlockLength : Nat := 24
def orderID : BlockField UInt64 := .uint64 0
def mDOrderPriority : BlockField UInt64 := .uint64 8
def mDDisplayQty : BlockField Int32 := .int32 16
def referenceID : BlockField UInt8 := .uint8 20
def orderUpdateAction : BlockField { v : UInt8 // v ∈ OrderUpdateAction.values } :=
  OrderUpdateAction.field 21

end NoOrderIDEntries

end MDIncrementalRefreshBook32

namespace MDIncrementalRefreshDailyStatistics33

def sbeTemplateId : UInt16 := 33
def sbeBlockLength : Nat := 11

namespace NoMDEntries

def sbeBlockLength : Nat := 32
def mDEntryPx : BlockField Int64 := mantissa 0
def mDEntrySize : BlockField Int32 := .int32 8
def securityID : BlockField Int32 := .int32 12
def rptSeq : BlockField UInt32 := .uint32 16
def tradingReferenceDate : BlockField UInt16 := .uint16 20
def settlPriceType : BlockField UInt8 := bits 22
def mDUpdateAction : BlockField MDUpdateAction := Mktdata.mDUpdateAction 23
def mDEntryType : BlockField { v : UInt8 // v ∈ MDEntryTypeDailyStatistics.values } :=
  MDEntryTypeDailyStatistics.field 24

end NoMDEntries

end MDIncrementalRefreshDailyStatistics33

namespace MDIncrementalRefreshLimitsBanding34

def sbeTemplateId : UInt16 := 34
def sbeBlockLength : Nat := 11

namespace NoMDEntries

def sbeBlockLength : Nat := 32
def highLimitPrice : BlockField Int64 := mantissa 0
def lowLimitPrice : BlockField Int64 := mantissa 8
def maxPriceVariation : BlockField Int64 := mantissa 16
def securityID : BlockField Int32 := .int32 24
def rptSeq : BlockField UInt32 := .uint32 28
def mDUpdateAction : MDUpdateAction := .new
def mDEntryType : UInt8 := 103

end NoMDEntries

end MDIncrementalRefreshLimitsBanding34

namespace MDIncrementalRefreshSessionStatistics35

def sbeTemplateId : UInt16 := 35
def sbeBlockLength : Nat := 11

namespace NoMDEntries

def sbeBlockLength : Nat := 24
def mDEntryPx : BlockField Int64 := mantissa 0
def securityID : BlockField Int32 := .int32 8
def rptSeq : BlockField UInt32 := .uint32 12
def openCloseSettlFlag : BlockField { v : UInt8 // v ∈ OpenCloseSettlFlag.values } :=
  OpenCloseSettlFlag.field 16
def mDUpdateAction : BlockField MDUpdateAction := Mktdata.mDUpdateAction 17
def mDEntryType : BlockField { v : UInt8 // v ∈ MDEntryTypeStatistics.values } :=
  MDEntryTypeStatistics.field 18
def mDEntrySize : BlockField Int32 := .since 8 2147483647 (.int32 19)

end NoMDEntries

end MDIncrementalRefreshSessionStatistics35

namespace MDIncrementalRefreshTrade36

def sbeTemplateId : UInt16 := 36
def sbeBlockLength : Nat := 11

namespace NoMDEntries

def sbeBlockLength : Nat := 32
def mDEntryPx : BlockField Int64 := mantissa 0
def mDEntrySize : BlockField Int32 := .int32 8
def securityID : BlockField Int32 := .int32 12
def rptSeq : BlockField UInt32 := .uint32 16
def numberOfOrders : BlockField Int32 := .int32 20
def tradeID : BlockField Int32 := .int32 24
def aggressorSide : BlockField { v : UInt8 // v ∈ AggressorSide.values } := AggressorSide.field 28
def mDUpdateAction : BlockField MDUpdateAction := Mktdata.mDUpdateAction 29
def mDEntryType : UInt8 := 50

end NoMDEntries

end MDIncrementalRefreshTrade36

namespace MDIncrementalRefreshVolume37

def sbeTemplateId : UInt16 := 37
def sbeBlockLength : Nat := 11

namespace NoMDEntries

def sbeBlockLength : Nat := 16
def mDEntrySize : BlockField Int32 := .int32 0
def securityID : BlockField Int32 := .int32 4
def rptSeq : BlockField UInt32 := .uint32 8
def mDUpdateAction : BlockField MDUpdateAction := Mktdata.mDUpdateAction 12
def mDEntryType : UInt8 := 101

end NoMDEntries

end MDIncrementalRefreshVolume37

namespace MDIncrementalRefreshTradeSummary42

def sbeTemplateId : UInt16 := 42
def sbeBlockLength : Nat := 11

namespace NoMDEntries

def sbeBlockLength : Nat := 32
def mDEntryPx : BlockField Int64 := mantissa 0
def mDEntrySize : BlockField Int32 := .int32 8
def securityID : BlockField Int32 := .int32 12
def rptSeq : BlockField UInt32 := .uint32 16
def numberOfOrders : BlockField Int32 := .int32 20
def aggressorSide : BlockField { v : UInt8 // v ∈ AggressorSide.values } := AggressorSide.field 24
def mDUpdateAction : BlockField MDUpdateAction := Mktdata.mDUpdateAction 25
def mDEntryType : UInt8 := 50
def mDTradeEntryID : BlockField UInt32 := .since 7 4294967295 (.uint32 26)

end NoMDEntries

namespace NoOrderIDEntries

def sbeBlockLength : Nat := 16
def orderID : BlockField UInt64 := .uint64 0
def lastQty : BlockField Int32 := .int32 8

end NoOrderIDEntries

end MDIncrementalRefreshTradeSummary42

namespace MDIncrementalRefreshOrderBook43

def sbeTemplateId : UInt16 := 43
def sbeBlockLength : Nat := 11

namespace NoMDEntries

def sbeBlockLength : Nat := 40
def orderID : BlockField UInt64 := .uint64 0
def mDOrderPriority : BlockField UInt64 := .uint64 8
def mDEntryPx : BlockField Int64 := mantissa 16
def mDDisplayQty : BlockField Int32 := .int32 24
def securityID : BlockField Int32 := .int32 28
def mDUpdateAction : BlockField MDUpdateAction := Mktdata.mDUpdateAction 32
def mDEntryType : BlockField { v : UInt8 // v ∈ MDEntryTypeBook.values } := MDEntryTypeBook.field 33

end NoMDEntries

end MDIncrementalRefreshOrderBook43

/-! ## Snapshots -/

namespace SnapshotFullRefresh38

def sbeTemplateId : UInt16 := 38
def sbeBlockLength : Nat := 59
def lastMsgSeqNumProcessed : BlockField UInt32 := .uint32 0
def totNumReports : BlockField UInt32 := .uint32 4
def securityID : BlockField Int32 := .int32 8
def rptSeq : BlockField UInt32 := .uint32 12
def transactTime : BlockField UInt64 := .uint64 16
def lastUpdateTime : BlockField UInt64 := .uint64 24
def tradeDate : BlockField UInt16 := .uint16 32
def mDSecurityTradingStatus : BlockField SecurityTradingStatus := securityTradingStatus 34
def highLimitPrice : BlockField Int64 := mantissa 35
def lowLimitPrice : BlockField Int64 := mantissa 43
def maxPriceVariation : BlockField Int64 := mantissa 51

namespace NoMDEntries

def sbeBlockLength : Nat := 22
def mDEntryPx : BlockField Int64 := mantissa 0
def mDEntrySize : BlockField Int32 := .int32 8
def numberOfOrders : BlockField Int32 := .int32 12
def mDPriceLevel : BlockField Int8 := .int8 16
def tradingReferenceDate : BlockField UInt16 := .uint16 17
def openCloseSettlFlag : BlockField { v : UInt8 // v ∈ OpenCloseSettlFlag.values } :=
  OpenCloseSettlFlag.field 19
def settlPriceType : BlockField UInt8 := bits 20
def mDEntryType : BlockField MDEntryType := Mktdata.mDEntryType 21

end NoMDEntries

end SnapshotFullRefresh38

namespace SnapshotFullRefreshOrderBook44

def sbeTemplateId : UInt16 := 44
def sbeBlockLength : Nat := 28
def lastMsgSeqNumProcessed : BlockField UInt32 := .uint32 0
def totNumReports : BlockField UInt32 := .uint32 4
def securityID : BlockField Int32 := .int32 8
def noChunks : BlockField UInt32 := .uint32 12
def currentChunk : BlockField UInt32 := .uint32 16
def transactTime : BlockField UInt64 := .uint64 20

namespace NoMDEntries

def sbeBlockLength : Nat := 29
def orderID : BlockField UInt64 := .uint64 0
def mDOrderPriority : BlockField UInt64 := .uint64 8
def mDEntryPx : BlockField Int64 := mantissa 16
def mDDisplayQty : BlockField Int32 := .int32 24
def mDEntryType : BlockField { v : UInt8 // v ∈ MDEntryTypeBook.values } := MDEntryTypeBook.field 28

end NoMDEntries

end SnapshotFullRefreshOrderBook44

/-! ## Status and definitions -/

namespace SecurityStatus30

def sbeTemplateId : UInt16 := 30
def sbeBlockLength : Nat := 30
def transactTime : BlockField UInt64 := .uint64 0
def securityID : BlockField Int32 := .int32 20
def tradeDate : BlockField UInt16 := .uint16 24
def matchEventIndicator : BlockField UInt8 := bits 26
def securityTradingStatus : BlockField SecurityTradingStatus := Mktdata.securityTradingStatus 27

end SecurityStatus30

/-- What the parser reads of the root block of a definition -/
structure Definition where
  sbeTemplateId : UInt16
  sbeBlockLength : Nat
  minPriceIncrement : BlockField Int64
  highLimitPrice : BlockField Int64
  lowLimitPrice : BlockField Int64

namespace Definition

/-! What is at the same place in all the definitions -/

def securityUpdateAction : BlockField { v : UInt8 // v ∈ SecurityUpdateAction.values } :=
  SecurityUpdateAction.field 5
def applID : BlockField Int16 := .int16 15
def symbol : Accessor (List UInt8) := bytes 35 20
def securityID : BlockField Int32 := .int32 55

namespace NoEvents

def sbeBlockLength : Nat := 9

end NoEvents

namespace NoMDFeedTypes

def sbeBlockLength : Nat := 4
def mDFeedType : Accessor (List UInt8) := bytes 0 3
def marketDepth : BlockField Int8 := .int8 3

end NoMDFeedTypes

end Definition

def MDInstrumentDefinitionFuture27 : Definition where
  sbeTemplateId := 27
  sbeBlockLength := 216
  minPriceIncrement := mantissa 91
  highLimitPrice := mantissa 165
  lowLimitPrice := mantissa 173

def MDInstrumentDefinitionSpread29 : Definition where
  sbeTemplateId := 29
  sbeBlockLength := 195
  minPriceIncrement := mantissa 94
  highLimitPrice := mantissa 167
  lowLimitPrice := mantissa 175

def MDInstrumentDefinitionOption41 : Definition where
  sbeTemplateId := 41
  sbeBlockLength := 213
  minPriceIncrement := mantissa 111
  highLimitPrice := mantissa 202
  lowLimitPrice := mantissa 194

end Mktdata

end FixHandler.Cme
