import NaiveRtc.Rtp.ExtensionPlaces

/-!
# How large extensions are

The size of the extensions of a packet that got them one by one.

* `needsTwoByte`, `elementsSize`, `blockSize` — the size of a list of extensions, each with its
  identifier and its size, in the header of a packet.
* `blockSize_le_append` — more extensions take more room.
* `RtpPacket.Laid` — the header of the packet has the size that its extensions need.
* `Laid.grownSize_eq`, `Laid.appended` — **a new extension makes the header as large as the
  extensions together need**.
-/

namespace NaiveRtc.Rtp

open ByteIo CopyOnWrite Overwrite

/-! ## Sizes -/

/-- An extension of the list has a header of two bytes, and with it all of them. -/
def needsTwoByte (es : List (Nat × Nat)) : Bool := es.any fun e => RtpPacket.twoByteRequired e.1 e.2

/-- The size of the header of each extension. -/
def eachHeaderSize (es : List (Nat × Nat)) : Nat :=
  if needsTwoByte es then kTwoByteExtensionHeaderSize else kOneByteExtensionHeaderSize

/-- The size of the extensions with their headers. -/
def elementsSize (es : List (Nat × Nat)) : Nat :=
  eachHeaderSize es * es.length + (es.map Prod.snd).sum

/-- The size of the block of extensions, which begins with a word and ends with one. -/
def blockSize (es : List (Nat × Nat)) : Nat :=
  if es = [] then 0 else 4 + RtpPacket.paddedSize (elementsSize es)

@[simp] theorem needsTwoByte_nil : needsTwoByte [] = false := rfl

theorem needsTwoByte_append (es es' : List (Nat × Nat)) :
    needsTwoByte (es ++ es') = (needsTwoByte es || needsTwoByte es') := List.any_append

theorem needsTwoByte_singleton (id size : Nat) :
    needsTwoByte [(id, size)] = RtpPacket.twoByteRequired id size := Bool.or_false _

theorem eachHeaderSize_pos (es : List (Nat × Nat)) : 1 ≤ eachHeaderSize es := by
  unfold eachHeaderSize
  split <;> decide

theorem eachHeaderSize_le_append (es es' : List (Nat × Nat)) :
    eachHeaderSize es ≤ eachHeaderSize (es ++ es') := by
  unfold eachHeaderSize
  rw [needsTwoByte_append]
  cases needsTwoByte es <;> cases needsTwoByte es' <;> decide

theorem elementsSize_pos_iff {es : List (Nat × Nat)} : 0 < elementsSize es ↔ es ≠ [] := by
  unfold elementsSize
  constructor
  · rintro hpos rfl
    exact absurd hpos (by decide)
  · intro hne
    have hlength := List.length_pos_iff.2 hne
    have hheader := Nat.mul_le_mul (eachHeaderSize_pos es) (Nat.le_refl es.length)
    omega

theorem elementsSize_append (es : List (Nat × Nat)) (id size : Nat) :
    elementsSize (es ++ [(id, size)]) =
      eachHeaderSize (es ++ [(id, size)]) * (es.length + 1) + (es.map Prod.snd).sum + size := by
  unfold elementsSize
  rw [List.length_append, List.map_append, List.sum_append]
  simp only [List.length_singleton, List.map_cons, List.map_nil, List.sum_cons, List.sum_nil]
  omega

theorem elementsSize_le_append (es es' : List (Nat × Nat)) :
    elementsSize es ≤ elementsSize (es ++ es') := by
  unfold elementsSize
  rw [List.length_append, List.map_append, List.sum_append]
  have hheaders := Nat.mul_le_mul (eachHeaderSize_le_append es es')
    (Nat.le_add_right es.length es'.length)
  omega

theorem paddedSize_mono {size size' : Nat} (h : size ≤ size') :
    RtpPacket.paddedSize size ≤ RtpPacket.paddedSize size' := by
  unfold RtpPacket.paddedSize
  omega

theorem blockSize_le_append (es es' : List (Nat × Nat)) : blockSize es ≤ blockSize (es ++ es') := by
  unfold blockSize
  by_cases hnil : es = []
  · rw [if_pos hnil]
    exact Nat.zero_le _
  · rw [if_neg hnil, if_neg fun happend => hnil (List.append_eq_nil_iff.1 happend).1]
    have hmono := paddedSize_mono (elementsSize_le_append es es')
    omega

/-! ## Packets -/

namespace RtpPacket

variable {p q : RtpPacket}

/-- The identifiers and the sizes of the extensions. -/
def pairs (p : RtpPacket) : List (Nat × Nat) := p.extensionEntries.map fun e => (e.id, e.size)

/-- The extensions in the header are what its size says, and nothing else is in their block. -/
structure Laid (p : RtpPacket) : Prop extends p.Placed where
  size : p.extensionsSize = elementsSize p.pairs
  header : p.payloadOffset + 4 = p.extensionsOffset + blockSize p.pairs
  profile : p.pairs ≠ [] → p.profileId p.extensionsOffset =
    if needsTwoByte p.pairs then kTwoByteExtensionProfileId else kOneByteExtensionProfileId

theorem Laid.entries_ne_nil (h : p.Laid) (hsize : 0 < p.extensionsSize) :
    p.extensionEntries ≠ [] := by
  rw [h.size, elementsSize_pos_iff] at hsize
  exact fun hnil => hsize (congrArg (List.map _) hnil)

theorem Laid.grownSize_eq (h : p.Laid) (id size : Nat) :
    p.grownSize id size = elementsSize (p.pairs ++ [(id, size)]) ∧
      p.grownProfile id size = if needsTwoByte (p.pairs ++ [(id, size)]) then
        kTwoByteExtensionProfileId else kOneByteExtensionProfileId := by
  have hlength : p.pairs.length = p.extensionEntries.length := List.length_map _
  have hsize := h.size
  rw [elementsSize_append]
  unfold grownSize grownProfile
  unfold elementsSize at hsize
  unfold eachHeaderSize at hsize ⊢
  rw [needsTwoByte_append, needsTwoByte_singleton]
  by_cases hpos : 0 < p.extensionsSize
  · have hne : p.pairs ≠ [] := by
      rw [← elementsSize_pos_iff, ← h.size]
      exact hpos
    rw [if_pos hpos, if_pos hpos, h.profile hne]
    have hdiffer : kTwoByteExtensionProfileId ≠ kOneByteExtensionProfileId := by decide
    cases htwo : needsTwoByte p.pairs <;> cases hrequired : twoByteRequired id size <;>
      rw [htwo] at hsize <;>
      simp [hdiffer, headerSizeFor, kOneByteExtensionHeaderSize, kTwoByteExtensionHeaderSize]
        at hsize ⊢ <;> omega
  · have hnil : p.pairs = [] := by
      by_contra hne
      refine hpos ?_
      rw [h.size]
      exact elementsSize_pos_iff.2 hne
    rw [if_neg hpos, if_neg hpos, hnil]
    cases twoByteRequired id size <;>
      simp [kOneByteExtensionHeaderSize, kTwoByteExtensionHeaderSize]

theorem pairs_of_carries {bytes bytes' : List UInt8} {es es' : List ExtensionInfo}
    (h : List.Forall₂ (Carries bytes bytes') es es') :
    es'.map (fun e => (e.id, e.size)) = es.map fun e => (e.id, e.size) := by
  induction h with
  | nil => rfl
  | cons hcarry _ ih => rw [List.map_cons, List.map_cons, hcarry.id, hcarry.size, ih]

theorem Appended.pairs_eq {id size offset : Nat} (h : Appended p q id size offset) :
    q.pairs = p.pairs ++ [(id, size)] := by
  obtain ⟨entries, hentries, hcarries⟩ := h.entries
  unfold pairs
  rw [hentries, List.map_append, pairs_of_carries hcarries]
  rfl

section Growth

variable {growTo : Nat → Nat → Nat}

theorem Laid.of_nil (h : p.Placed) (hentries : p.extensionEntries = [])
    (hsize : p.extensionsSize = 0) (hheader : p.payloadOffset + 4 = p.extensionsOffset) :
    p.Laid where
  toPlaced := h
  size := by
    unfold pairs
    rw [hsize, hentries]
    rfl
  header := by
    unfold pairs
    rw [hheader, hentries]
    rfl
  profile hne := by
    unfold pairs at hne
    rw [hentries] at hne
    exact absurd rfl hne

theorem Laid.resize_capacity (h : p.Laid) : (p.resize growTo p.capacity).Laid := by
  obtain ⟨hplaced, hfirst, -, hprofile, -⟩ := @Placed.resize_capacity growTo p h.toPlaced
  refine ⟨hplaced, h.size, ?_, fun hne => ?_⟩
  · rw [hfirst]
    exact h.header
  · rw [hfirst, hprofile]
    exact h.profile hne

theorem Laid.allocateRawExtension (hgrow : ∀ c n, n ≤ growTo c n) (h : p.Laid) {id size : Nat}
    (hasks : p.AsksForNew id size) (hrefuses : ¬ p.Refuses id size)
    (hsmall : p.extensionsOffset + p.grownSize id size < 2 ^ 16) :
    ∃ offset, (p.allocateRawExtension growTo id size).2 = some offset ∧
      Appended p (p.allocateRawExtension growTo id size).1 id size offset ∧
      (p.allocateRawExtension growTo id size).1.Laid := by
  obtain ⟨offset, hsome, happended, hgrown, hprofile⟩ :=
    allocateRawExtension_appended hgrow h.toPlaced hasks hrefuses hsmall
  obtain ⟨hsize, hgrownProfile⟩ := h.grownSize_eq id size
  refine ⟨offset, hsome, happended, ⟨happended.placed, ?_, ?_, fun _ => ?_⟩⟩
  · rw [hgrown, hsize, happended.pairs_eq]
  · have hne : p.pairs ++ [(id, size)] ≠ [] := fun hnil => by simp at hnil
    rw [happended.headerSize, hgrown, hsize, happended.pairs_eq, blockSize, if_neg hne]
    omega
  · rw [hprofile h.entries_ne_nil, hgrownProfile, happended.pairs_eq]

end Growth

end RtpPacket

end NaiveRtc.Rtp
