import NaiveRtc.Receiver.RtpVideoReceiver
import NaiveRtc.Receiver.NackSafety
import NaiveRtc.Jitter.FrameBufferContinuity
import NaiveRtc.Jitter.FrameMetadata
import NaiveRtc.Jitter.PacketBufferClear
import NaiveRtc.Jitter.InsertAtomicity
import NaiveRtc.Jitter.PacketBufferOrder
import NaiveRtc.Rtcp.Datagrams
import NaiveRtc.Pacing.QueueAccounting
import NaiveRtc.Pacing.QueueOrder
import NaiveRtc.CongestionControl.ReceiveTimes
import NaiveRtc.Rtcp.RrtrStore
import NaiveRtc.Rtcp.FeedbackAtomicity
import NaiveRtc.Rtcp.FeedbackGrammar
import NaiveRtc.Rtcp.RttDelivery
import NaiveRtc.Rtcp.RembDelivery
import NaiveRtc.Fec.GeneratorOutput
import NaiveRtc.Fec.GeneratorTrigger
import NaiveRtc.Fec.WideSpans
import NaiveRtc.Sdp.MediaRoundTrip
import NaiveRtc.Rtp.PacketHistoryRun
import NaiveRtc.Jitter.FrameRefFinderRun
import NaiveRtc.Rtp.H264RoundTrip
import NaiveRtc.Rtp.H264Delivery
import NaiveRtc.Rtp.ExtensionRemoval
import NaiveRtc.Rtp.HeaderSizes
import NaiveRtc.Transports.SctpReceive
import NaiveRtc.Sdp.Description
import NaiveRtc.Rtcp.TimestampAccuracy
import NaiveRtc.DataChannel.OpenMessage
import NaiveRtc.Components.ReceiveStatistics
import NaiveRtc.Components.RollingAccumulator
import NaiveRtc.Rtcp.CompactNtp
import NaiveRtc.Numerics.HistogramPercentileCounter
import NaiveRtc.Numerics.MovingMedianFilter
import NaiveRtc.CongestionControl.PacketArrivalTimeMap
import NaiveRtc.Base.BitIoRoundTrip
import NaiveRtc.Media.NalUnitFragment
import NaiveRtc.Rtcp.RtcpSenderFlags
import NaiveRtc.Components.RtpDemuxerRtp
import NaiveRtc.Fec.DecoderStore
import NaiveRtc.Fec.FecReceiverUlp
import NaiveRtc.Pacing.ControllerRuns
import NaiveRtc.CongestionControl.EmptyDereferences
import NaiveRtc.CongestionControl.MinHistory
import NaiveRtc.CongestionControl.LossReportBasedBwe
import NaiveRtc.CongestionControl.InterArrivalDelta
import NaiveRtc.Rtp.SendDelayStatistics
import NaiveRtc.Receiver.PlayoutTiming
import NaiveRtc.Transports.SctpReadiness
import NaiveRtc.Sdp.SsrcRemoval
import NaiveRtc.Rtcp.LastChunkQueue
import NaiveRtc.Components.WrapAroundOrder
import NaiveRtc.Base.ByteIoTemplates
