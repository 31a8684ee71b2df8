import NaiveRtc.Components.WrapAround

/-!
# Video headers

What the receive path knows about the video in a packet:
`rtc/media/video/common.hpp`, `rtc/media/video/codecs/h264/common.hpp`,
`rtc/rtp_rtcp/rtp_video_header.hpp` and the codec header of
`rtc/rtp_rtcp/rtp/depacketizer/rtp_depacketizer.hpp`.
-/

namespace NaiveRtc

/-- `video::FrameType`. -/
inductive FrameType where
  | empty
  | key
  | delta
  deriving DecidableEq

/-- `video::CodecType`. -/
inductive CodecType where
  | generic
  | h264
  | vp8
  | vp9
  | av1
  | multiplex
  deriving DecidableEq

/-- `RtpVideoHeader`, less the playout delay. -/
structure RtpVideoHeader where
  frameWidth : U16 := 0
  frameHeight : U16 := 0
  frameType : FrameType := .empty
  codecType : CodecType := .generic
  isFirstPacketInFrame : Bool := false
  isLastPacketInFrame : Bool := false
  deriving DecidableEq

namespace H264

/-- The depacketizer stores at most this many NAL units of one packet. -/
def kMaxNaluNumPerPacket : Nat := 10

/-- `h264::NaluInfo`. -/
structure NaluInfo where
  type : UInt8
  spsId : Int := -1
  ppsId : Int := -1
  offset : Nat := 0
  size : Nat := 0
  deriving DecidableEq

/-- `h264::PacketizationInfo`, less the packetization mode and type. -/
structure PacketizationInfo where
  nalus : List NaluInfo := []
  hasSps : Bool := false
  hasPps : Bool := false
  hasIdr : Bool := false
  deriving DecidableEq

end H264

/-- `RtpVideoCodecHeader`, a variant. -/
inductive RtpVideoCodecHeader where
  | monostate
  | h264 (info : H264.PacketizationInfo)
  deriving DecidableEq

end NaiveRtc
