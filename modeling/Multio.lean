import Multio.Domain.MaskCompression
import Multio.Lib.RunLength
import Multio.Domain.BitMaskCodec
import Multio.Domain.RunLengthEncoder
import Multio.Domain.RunLengthDecoder
import Multio.Domain.MaskRoundTrip
import Multio.Domain.EncoderDiscipline
import Multio.Domain.DecoderRobustness
import Multio.Domain.WideRuns
import Multio.Lib.HashTable
import Multio.Lib.OrderedMap
import Multio.Lib.Scatter
import Multio.Message.Message
import Multio.Domain.Domain
import Multio.Action.Aggregate
import Multio.Domain.DomainScatter
import Multio.Action.AggregateStep
import Multio.Action.AggregateOrder
import Multio.Lib.RepeatedRounds
import Multio.Action.FlushRounds
import Multio.Domain.DomainSize
import Multio.Server.Dispatcher
import Multio.Server.DomainsInFlight
import Multio.Config.Configuration
import Multio.Lib.BooleanFormula
import Multio.Message.BaseMetadata
import Multio.Message.FieldIdentity
import Multio.Message.MatcherSemantics
import Multio.Message.MatcherLists
import Multio.Message.ConvertPrecision
import Multio.Message.MetadataEquality
import Multio.Message.Parametrization
import Multio.Message.Wire
import Multio.Message.WireRoundTrip
import Multio.Lib.SharedCells
import Multio.Message.CopyOnWrite
import Multio.Server.CompletesEarly
import Multio.Server.Listener
import Multio.Action.StatisticsMtg2.Configuration
import Multio.Mars2Grib.RuleSemantics
import Multio.Action.CoLocation
import Multio.Action.EvenDistribution
import Multio.Domain.MaskCompleteness
import Multio.Domain.GlobalMask
import Multio.Domain.MaskArrival
import Multio.Action.MaskSemantics
import Multio.Domain.DomainConsistency
import Multio.Domain.IndexAgreement
import Multio.Domain.MappingsAtomicity
import Multio.Action.AggregateSafety
import Multio.Action.StatisticsMtg2.FstreamIO
import Multio.Action.StatisticsMtg2.Operations
import Multio.Transport.StreamDelivery
import Multio.Transport.BufferExhaustion
import Multio.Server.BarrierOrder
import Multio.Action.HEALPixBijection
import Multio.Mars2Grib.RuleExclusivity
import Multio.Mars2Grib.EncoderCacheSoundness
import Multio.Mars2Mars.Rules
import Multio.Datamod.RecordRoundTrip
import Multio.Lib.TimeWindows
import Multio.Lib.GregorianCalendar
import Multio.Action.StatisticsMtg2.OperationIndependence
import Multio.Action.Statistics.EagerRun
import Multio.Action.Statistics.RestartEquivalence
import Multio.Action.StatisticsMtg2.PeriodPartition
import Multio.Action.StatisticsMtg2.MessageTime
import Multio.Action.StatisticsMtg2.FailedUpdate
import Multio.Action.StatisticsMtg2.FirstMessage
import Multio.Action.Averages
import Multio.Action.Extremes
import Multio.Action.StatisticsMtg2.Deviations
import Multio.Action.StatisticsMtg2.Differences
import Multio.Action.StatisticsMtg2.WindowRestart
import Multio.Action.HEALPixCache
import Multio.Action.StatisticsMtg2.RestartBuffer
import Multio.Action.StatisticsMtg2.RestartLoad
import Multio.Datamod.TimeDurationCodec
import Multio.Lib.DoubleRounding
import Multio.Lib.SlotQueue
import Multio.Mars2Grib.Level
import Multio.Mars2Grib.LevelCheck
import Multio.Mars2Grib.LocalSection
import Multio.Mars2Grib.PressureLevel
import Multio.Mars2Mars.Encodable
import Multio.Util.DateTime
import Multio.Util.PrehashedKey
import Multio.Util.RingBuffer
import Multio.Action.FailureRecovery
import Multio.Action.FesomInterpolation
import Multio.Action.FesomProduct
import Multio.Action.Scale
import Multio.Action.ScalePresets
import Multio.Action.Statistics.ParameterRemapping
import Multio.Lib.RecycledBlocks
import Multio.Sink.Trigger
import Multio.Util.Substitution
import Multio.Util.Tracer
import Multio.Util.TracerOwnership
import Multio.Util.TracerRuns
import Multio.Action.Encode.DateAndStatisticalFields
import Multio.Action.Encode.EncodedTimes
import Multio.Action.Statistics.Deaccumulation
import Multio.Transport.BufferBounds
import Multio.Action.EncodeMtg2
import Multio.Action.EncodedValues
import Multio.Domain.RunWidths
import Multio.Server.FieldAcceptance
import Multio.Action.Statistics.RestartFolders
import Multio.Action.Statistics.RestartedRun
import Multio.Action.StatisticsMtg2.WindowTimeline
import Multio.Server.DistributedAggregation
import Multio.Transport.ServersAtRest
