import NaiveRtc.Components.WrapAround

/-!
# RTP packets on their way out

What the pacer and the packet history read of `rtc/rtp_rtcp/rtp/packets/rtp_packet_to_send.hpp`:
the identity of a packet, its kind and its sizes.  Its bytes are looked at elsewhere.
-/

namespace NaiveRtc

/-- `rtc/base/internals.hpp`; the capacity of a packet is at most this. -/
def kIpPacketSize : Nat := 1500

/-- `RtpPacketType` of `rtc/rtp_rtcp/base/rtp_rtcp_defines.hpp`. -/
inductive RtpPacketType
  | audio
  | video
  | retransmission
  | fec
  | padding
  deriving DecidableEq

/-- `RtpPacketToSend`. -/
structure RtpPacketToSend where
  ssrc : U32
  sequenceNumber : U16
  packetType : RtpPacketType
  allowRetransmission : Bool
  headerSize : Nat
  payloadSize : Nat
  paddingSize : Nat
  deriving DecidableEq

end NaiveRtc
