import NaiveRtc.Fec.MaskSpread

/-!
# What `Encode` returns

* `encode_result` — `Encode` returns what its sanity checks say: the failure of
  `InsertZeroInPacketMasks` is a number that is compared without its sign.
* `encode_of_accepts` and its siblings — what it makes of a list, by the checks.
-/

namespace NaiveRtc.Fec

open Overwrite
open Rtp (RtpPacket)

namespace FecEncoder

variable (e : FecEncoder) (mediaPackets : List RtpPacket) (params : EncodeParams)
  (generated : List FecPacket)

theorem encode_result :
    (e.encode mediaPackets params generated).2.2 = accepts mediaPackets params := by
  unfold encode
  cases haccepts : accepts mediaPackets params with
  | false => rfl
  | true =>
    dsimp only
    rw [Bool.not_true, if_neg (by decide)]
    split
    · rfl
    · rw [if_neg (Nat.not_lt_zero _)]

/-- The encoder with the masks of its FEC packets. -/
def withMasks (numFecPackets : Nat) : FecEncoder :=
  let r := (e.preparePacketMasks mediaPackets.length numFecPackets params).insertZeroInPacketMasks
    mediaPackets numFecPackets
  { r.1 with packetMaskSize := Fec.packetMaskSize (sizeT r.2) }

theorem encode_of_accepts (haccepts : accepts mediaPackets params = true) {numFec : Nat}
    (hnumFec : calcNumFecPackets mediaPackets.length params.protectionFactor.toNat = numFec)
    (hne : numFec ≠ 0) :
    e.encode mediaPackets params generated =
      let m := e.withMasks mediaPackets params numFec
      let payloads := m.generateFecPayload mediaPackets
        (generated.take numFec ++ List.replicate (numFec - generated.length) [])
      ({ m with inBounds := m.inBounds && payloads.2 && m.headersInside payloads.1 },
        m.finalizeFecHeaders (mediaPackets.headD { buffer := ⟨[], 0⟩ }).sequenceNum payloads.1,
        true) := by
  rw [encode, haccepts]
  dsimp only
  rw [hnumFec, Bool.not_true, if_neg (by decide), if_neg hne, if_neg (Nat.not_lt_zero _)]
  rfl

theorem encode_of_numFec_zero (haccepts : accepts mediaPackets params = true)
    (hnumFec : calcNumFecPackets mediaPackets.length params.protectionFactor.toNat = 0) :
    e.encode mediaPackets params generated = (e, generated, true) := by
  rw [encode, haccepts]
  dsimp only
  rw [hnumFec]
  rfl

theorem encode_of_not_accepts (h : accepts mediaPackets params = false) :
    e.encode mediaPackets params generated = (e, generated, false) := by
  rw [encode, h]
  rfl

end FecEncoder

/-- A packet with a header and nothing else. -/
def bareHeader (sequenceNum : U16) : RtpPacket :=
  { sequenceNum := sequenceNum, buffer := ⟨List.replicate 12 0, 1500⟩ }

end NaiveRtc.Fec
