import FixHandler.ForStd.TreeMap
import FixHandler.ForStd.EStateM
import FixHandler.ForStd.Guarded
import FixHandler.ForStd.List
import FixHandler.Native.Trade.Simulater
import FixHandler.Spec.Trade.Price
import FixHandler.Spec.Trade.Ledger
import FixHandler.Spec.Trade.OrderBoxCorrect
import FixHandler.Spec.Trade.AlgorithmCorrect
import FixHandler.Spec.Trade.MarketCorrect
import FixHandler.Spec.Trade.SimulaterCorrect
import FixHandler.Spec.Trade.OrderLife
import FixHandler.Spec.Trade.PublishedBook
import FixHandler.Spec.Trade.Uncrossed
import FixHandler.Spec.Trade.BoxInvariant
import FixHandler.Spec.Trade.FilledQuantity
import FixHandler.Spec.Trade.Identity
import FixHandler.Spec.Trade.Conservation
import FixHandler.Cxx.Counting
import FixHandler.Native.Cme.DatArbitrator
import FixHandler.Spec.Cme.ArbitrationCorrect
import FixHandler.Cxx.Bytes
import FixHandler.Native.Cme.SbeDecoder
import FixHandler.Native.Cme.CmeData
import FixHandler.Native.Cme.DatProcessor
import FixHandler.Spec.Cme.CmeDataCorrect
import FixHandler.Spec.Cme.DeliveryCorrect
import FixHandler.Cxx.Deque
import FixHandler.Native.Cme.Book
import FixHandler.Native.Cme.BookStateController
import FixHandler.Spec.Cme.BookStateCorrect
import FixHandler.Native.Cme.Recovery
import FixHandler.Spec.Cme.RecoveryCorrect
import FixHandler.Native.Cme.BookManager
import FixHandler.Native.Cme.BookReplayer
import FixHandler.Native.Cme.DatSaver
import FixHandler.Spec.Cme.MergeCorrect
import FixHandler.Spec.Cme.PlaybackCorrect
import FixHandler.Spec.Cme.DefinitionCorrect
import FixHandler.Native.Cme.DatReplayer
import FixHandler.Spec.Cme.FramingCorrect
import FixHandler.Native.Tmalpha.OrderInfo
import FixHandler.Native.Tmalpha.ReplayOrderMatcher
import FixHandler.Native.Tmalpha.ExchangeSimulater
import FixHandler.Spec.Tmalpha.MatcherCorrect
import FixHandler.Spec.Tmalpha.OneState
import FixHandler.Spec.Tmalpha.Resting
import FixHandler.Spec.Tmalpha.CopiesAgree
import FixHandler.Spec.Tmalpha.FillPrices
import FixHandler.Native.Tmalpha.ReplayMonitor
import FixHandler.Spec.Tmalpha.MonitorCorrect
import FixHandler.ForStd.Paging
import FixHandler.Native.Persist.Mongo
import FixHandler.Spec.Persist.PagesCorrect
import FixHandler.Native.Rem.EESTraderApiManger
import FixHandler.Spec.Rem.ClientIdCorrect
import FixHandler.Native.Femas.Communicator
import FixHandler.Spec.Femas.LocalIdCorrect
import FixHandler.Native.Cme.GlobexCommunicator
import FixHandler.Spec.Cme.SynchronisationCorrect
import FixHandler.Native.StrategyCommunicator
import FixHandler.Spec.InboundCorrect
import FixHandler.ForStd.Greedy
import FixHandler.Spec.Trade.Priority
import FixHandler.Spec.Trade.Publication
import FixHandler.Spec.Trade.Answers
import FixHandler.Spec.Trade.Reports
import FixHandler.ForStd.Padded
import FixHandler.Spec.Cme.SnapshotOrder
import FixHandler.Spec.Cme.BestPrice
import FixHandler.ForStd.Assembly
import FixHandler.Spec.Cme.SaverCorrect
import FixHandler.Spec.Cme.PacketCorrect
import FixHandler.Cxx.Decimal
import FixHandler.Native.Cme.FixMessage
import FixHandler.Native.Cme.OrderManager
import FixHandler.Spec.Cme.AttributesCorrect
import FixHandler.Native.Tmalpha.ReplayListener
import FixHandler.Spec.Tmalpha.VolumesCorrect
import FixHandler.ForStd.Swaps
import FixHandler.Native.Ctp.TraderSpi
import FixHandler.Spec.Ctp.OrderRefCorrect
import FixHandler.ForStd.Threshold
import FixHandler.Spec.Tmalpha.QueuePlace
import FixHandler.Native.Ctp.CustomMdSpi
import FixHandler.Native.Femas.BookManager
import FixHandler.Native.Rem.BookManager
import FixHandler.Native.Rem.EfhMarketManager
import FixHandler.Spec.Market.BestAgrees
import FixHandler.Native.Cme.FixRequest
import FixHandler.Spec.Cme.ChecksumCorrect
import FixHandler.Spec.Trade.KeyOrder
import FixHandler.Native.Trade.Expiry
import FixHandler.Spec.Trade.ExpiryCorrect
import FixHandler.Cxx.Double
import FixHandler.Cxx.SixDigits
import FixHandler.Native.Persist.Json
import FixHandler.Native.Market.Convert
import FixHandler.Native.Ctp.BookConvert
import FixHandler.Native.Femas.BookConvert
import FixHandler.Native.Rem.BookConvert
import FixHandler.Native.Rem.EfhBookConvert
import FixHandler.Spec.Market.ConvertCorrect
import FixHandler.Spec.Ctp.ConvertCorrect
import FixHandler.Spec.Rem.ConvertCorrect
import FixHandler.Native.Tmalpha.ReplayDataConsumer
import FixHandler.Spec.Tmalpha.ConsumeCorrect
import FixHandler.Spec.Femas.ConvertCorrect
import FixHandler.Spec.Persist.MultiplesCorrect
import FixHandler.Sbe.Flyweight
import FixHandler.Sbe.Group
import FixHandler.Sbe.Encoding
import FixHandler.Sbe.BlockField
import FixHandler.Native.Cme.MessageParser
import FixHandler.Native.Cme.Pipeline
import FixHandler.Native.Cme.SbeEncoder
import FixHandler.Spec.Cme.EncoderCorrect
import FixHandler.Spec.Cme.ParserBounds
import FixHandler.Spec.Cme.PublicationCorrect
import FixHandler.Spec.Tmalpha.DeliveredCorrect
import FixHandler.Spec.Tmalpha.FeedsReplayed
import FixHandler.Spec.Cme.DecodedCorrect
import FixHandler.Spec.Trade.TapeCorrect
import FixHandler.Spec.Trade.Finality
