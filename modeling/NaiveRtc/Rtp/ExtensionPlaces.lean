import NaiveRtc.Rtp.RtpPacket

/-!
# Where extensions are

What `AllocateRawExtension` does to the extensions that are in a packet already.

* `Descends` — extensions that stand one behind another.
* `promoteEntries_spec` — **moving the extensions up, the last one first, keeps their values.**
* `RtpPacket.Placed` — the extensions of a packet stand one behind another in their block.
* `Extended` — a packet that kept its extensions; `promote_spec` and `append_spec` say how.
* `allocateRawExtension_refused`, `allocateRawExtension_appended` — **what an allocation does**.
-/

namespace NaiveRtc.Rtp

open ByteIo CopyOnWrite Overwrite

/-! ## Bytes -/

theorem getD_overwrite_of_not_mem {bytes data : List UInt8} {offset i : Nat}
    (h : i < offset ∨ offset + data.length ≤ i) :
    (overwrite bytes offset data).getD i 0 = bytes.getD i 0 := by
  rw [getD_overwrite, if_neg (by omega)]

/-! ## Places -/

/-- Extensions that stand one behind another between `start` and a stop, the last one first, with
a byte at least in front of each. -/
def Descends (start : Nat) : Nat → List ExtensionInfo → Prop
  | _, [] => True
  | stop, entry :: entries =>
    start < entry.offset ∧ entry.offset + entry.size ≤ stop ∧
      Descends start (entry.offset - 1) entries

variable {entries : List ExtensionInfo}

theorem Descends.mono {start stop stop' : Nat}
    (h : Descends start stop entries) (hle : stop ≤ stop') : Descends start stop' entries := by
  cases entries with
  | nil => trivial
  | cons entry entries => exact ⟨h.1, Nat.le_trans h.2.1 hle, h.2.2⟩

theorem Descends.bounds {start stop : Nat}
    (h : Descends start stop entries) {entry : ExtensionInfo} (hentry : entry ∈ entries) :
    start < entry.offset ∧ entry.offset + entry.size ≤ stop := by
  induction entries generalizing stop with
  | nil => cases hentry
  | cons head entries ih =>
    obtain ⟨hstart, hstop, htail⟩ := h
    rcases List.mem_cons.1 hentry with rfl | hmem
    · exact ⟨hstart, hstop⟩
    · have hbounds := ih htail hmem
      omega

/-- The entry stands for an extension with the same identifier and the same value. -/
structure Carries (bytes bytes' : List UInt8) (entry entry' : ExtensionInfo) : Prop where
  id : entry'.id = entry.id
  size : entry'.size = entry.size
  value : ∀ j < entry.size, bytes'.getD (entry'.offset + j) 0 = bytes.getD (entry.offset + j) 0

theorem Carries.readFrom_eq {bytes bytes' : List UInt8} {entry entry' : ExtensionInfo}
    (h : Carries bytes bytes' entry entry') :
    readFrom bytes' entry'.offset entry'.size = readFrom bytes entry.offset entry.size := by
  unfold readFrom
  rw [h.size]
  refine List.map_congr_left fun j hj => ?_
  exact h.value j (List.mem_range.1 hj)

variable {bytes bytes' bytes'' : List UInt8}

theorem Carries.of_frame {entry entry' : ExtensionInfo} (h : Carries bytes bytes' entry entry')
    (hframe : ∀ i, entry'.offset ≤ i → i < entry'.offset + entry.size →
      bytes''.getD i 0 = bytes'.getD i 0) : Carries bytes bytes'' entry entry' where
  id := h.id
  size := h.size
  value j hj := (hframe _ (by omega) (by omega)).trans (h.value j hj)

theorem Carries.trans {entry entry' entry'' : ExtensionInfo}
    (h : Carries bytes bytes' entry entry') (h' : Carries bytes' bytes'' entry' entry'') :
    Carries bytes bytes'' entry entry'' where
  id := h'.id.trans h.id
  size := h'.size.trans h.size
  value j hj := (h'.value j (by rw [h.size]; exact hj)).trans (h.value j hj)

theorem Carries.forall₂_trans {entries entries' entries'' : List ExtensionInfo}
    (h : List.Forall₂ (Carries bytes bytes') entries entries')
    (h' : List.Forall₂ (Carries bytes' bytes'') entries' entries'') :
    List.Forall₂ (Carries bytes bytes'') entries entries'' := by
  induction h generalizing entries'' with
  | nil =>
    cases h'
    exact .nil
  | cons hcarry _ ih =>
    cases h' with
    | cons hcarry' hrest => exact .cons (hcarry.trans hcarry') (ih hrest)

theorem forall₂_imp_of_mem {α β : Type*} {R S : α → β → Prop} {as : List α} {bs : List β}
    (h : List.Forall₂ R as bs) (himp : ∀ a ∈ as, ∀ b ∈ bs, R a b → S a b) :
    List.Forall₂ S as bs := by
  induction h with
  | nil => exact .nil
  | cons hab _ ih =>
    exact .cons (himp _ List.mem_cons_self _ List.mem_cons_self hab)
      (ih fun a ha b hb => himp a (List.mem_cons_of_mem _ ha) b (List.mem_cons_of_mem _ hb))

/-- **Moving the extensions up, the last one first, keeps their values**, and only the bytes up to
the new end change. -/
theorem promoteEntries_spec {start stop : Nat}
    (h : Descends start stop entries) {bytes : List UInt8}
    (hroom : stop + entries.length ≤ bytes.length) (hsmall : stop + entries.length < 2 ^ 16) :
    let r := RtpPacket.promoteEntries bytes entries.length entries
    r.1.length = bytes.length ∧
      (∀ i, i < start ∨ stop + entries.length ≤ i → r.1.getD i 0 = bytes.getD i 0) ∧
      List.Forall₂ (Carries bytes r.1) entries r.2 ∧
      Descends start (stop + entries.length) r.2 := by
  induction entries generalizing stop bytes with
  | nil => exact ⟨rfl, fun _ _ => rfl, .nil, trivial⟩
  | cons entry entries ih =>
    obtain ⟨hstart, hstop, htail⟩ := h
    rw [List.length_cons] at hroom hsmall
    -- the value, and its header in front of it
    let index := entry.offset + (entries.length + 1)
    let moved := overwrite (overwrite (overwrite bytes index
      (readFrom bytes entry.offset entry.size)) (index - 1) [UInt8.ofNat entry.size])
      (index - 2) [UInt8.ofNat entry.id]
    have hlength : moved.length = bytes.length := by simp [moved]
    have houtside : ∀ i, i < index - 2 ∨ index + entry.size ≤ i →
        moved.getD i 0 = bytes.getD i 0 := by
      intro i hi
      have hvalue := length_readFrom bytes entry.offset entry.size
      have hindex : 1 ≤ index := by omega
      rw [getD_overwrite_of_not_mem (by rw [List.length_singleton]; omega),
        getD_overwrite_of_not_mem (by rw [List.length_singleton]; omega),
        getD_overwrite_of_not_mem (by omega)]
    have hvalue : ∀ j < entry.size, moved.getD (index + j) 0 = bytes.getD (entry.offset + j) 0 := by
      intro j hj
      have hindex : 2 ≤ index := by omega
      have hinside : index + j < bytes.length := by omega
      rw [getD_overwrite_of_not_mem (by rw [List.length_singleton]; omega),
        getD_overwrite_of_not_mem (by rw [List.length_singleton]; omega), getD_overwrite,
        length_readFrom, if_pos (by omega), Nat.add_sub_cancel_left]
      exact getD_readFrom hj
    obtain ⟨hlen, hframe, hcarries, hdescends⟩ := @ih _ htail moved (by omega) (by omega)
    have hoffset : index % 2 ^ 16 = index := Nat.mod_eq_of_lt (by omega)
    refine ⟨hlen.trans hlength, fun i hi => ?_, .cons ⟨rfl, rfl, fun j hj => ?_⟩ ?_, ?_⟩
    · rw [List.length_cons] at hi
      exact (hframe i (by omega)).trans (houtside i (by omega))
    · show List.getD _ (index % 2 ^ 16 + j) 0 = _
      rw [hoffset]
      exact (hframe (index + j) (by omega)).trans (hvalue j hj)
    · refine forall₂_imp_of_mem hcarries fun e he e' _ hcarry => ⟨hcarry.id, hcarry.size, ?_⟩
      intro j hj
      have hbounds := htail.bounds he
      exact (hcarry.value j hj).trans (houtside _ (by omega))
    · rw [List.length_cons]
      refine ⟨?_, ?_, hdescends.mono ?_⟩
      · show start < index % 2 ^ 16
        omega
      · show index % 2 ^ 16 + entry.size ≤ _
        omega
      · show _ ≤ index % 2 ^ 16 - 1
        omega

/-! ## Packets -/

namespace RtpPacket

/-- Where the first extension begins. -/
def extensionsOffset (p : RtpPacket) : Nat := kFixedHeaderSize + p.numCsrc * 4 + 4

/-- The header is in the buffer. -/
structure Sound (p : RtpPacket) : Prop where
  fixed : kFixedHeaderSize ≤ p.payloadOffset
  headerSize_le : p.payloadOffset ≤ p.bytes.length
  length_le : p.bytes.length ≤ p.capacity

/-- The extensions stand one behind another in their block. -/
structure Placed (p : RtpPacket) : Prop extends p.Sound where
  entries : Descends p.extensionsOffset (p.extensionsOffset + p.extensionsSize)
    p.extensionEntries.reverse

/-- Only the buffer and the places of the extensions are other ones. -/
structure SameFields (p q : RtpPacket) : Prop where
  hasPadding : q.hasPadding = p.hasPadding
  marker : q.marker = p.marker
  payloadType : q.payloadType = p.payloadType
  paddingSize : q.paddingSize = p.paddingSize
  sequenceNum : q.sequenceNum = p.sequenceNum
  timestamp : q.timestamp = p.timestamp
  ssrc : q.ssrc = p.ssrc
  payloadSize : q.payloadSize = p.payloadSize
  extensionMap : q.extensionMap = p.extensionMap

theorem SameFields.refl (p : RtpPacket) : SameFields p p :=
  ⟨rfl, rfl, rfl, rfl, rfl, rfl, rfl, rfl, rfl⟩

theorem SameFields.trans {p q r : RtpPacket} (h : SameFields p q) (h' : SameFields q r) :
    SameFields p r where
  hasPadding := h'.hasPadding.trans h.hasPadding
  marker := h'.marker.trans h.marker
  payloadType := h'.payloadType.trans h.payloadType
  paddingSize := h'.paddingSize.trans h.paddingSize
  sequenceNum := h'.sequenceNum.trans h.sequenceNum
  timestamp := h'.timestamp.trans h.timestamp
  ssrc := h'.ssrc.trans h.ssrc
  payloadSize := h'.payloadSize.trans h.payloadSize
  extensionMap := h'.extensionMap.trans h.extensionMap

section Growth

variable {growTo : Nat → Nat → Nat} {p : RtpPacket}

@[simp] theorem bytes_resize (n : Nat) : (p.resize growTo n).bytes = resized n p.bytes := rfl

@[simp] theorem bytes_writeAt (offset : Nat) (data : List UInt8) :
    (p.writeAt offset data).bytes = overwrite p.bytes offset data := rfl

theorem capacity_resize (n : Nat) : (p.resize growTo n).capacity =
    if n ≤ p.capacity then p.capacity else growTo p.capacity n := by
  have hlength := length_resized n p.bytes
  show (if (resized n p.bytes).length ≤ p.capacity then p.capacity
    else growTo p.capacity (resized n p.bytes).length) = _
  rw [hlength]

theorem le_capacity_resize (hgrow : ∀ c n, n ≤ growTo c n) (n : Nat) :
    n ≤ (p.resize growTo n).capacity ∧ p.capacity ≤ (p.resize growTo n).capacity := by
  have hle := hgrow p.capacity n
  rw [capacity_resize]
  split <;> omega

theorem Sound.resize_capacity (h : p.Sound) : (p.resize growTo p.capacity).Sound ∧
    (p.resize growTo p.capacity).bytes.length = (p.resize growTo p.capacity).capacity ∧
    ∀ i, (p.resize growTo p.capacity).bytes.getD i 0 = p.bytes.getD i 0 := by
  have hcapacity : (p.resize growTo p.capacity).capacity = p.capacity := by
    rw [capacity_resize, if_pos (Nat.le_refl _)]
  have hheader := h.headerSize_le
  have hlength := h.length_le
  refine ⟨⟨h.fixed, ?_, ?_⟩, ?_, fun i => ?_⟩
  · rw [bytes_resize, length_resized]
    exact Nat.le_trans hheader hlength
  · rw [bytes_resize, length_resized, hcapacity]
  · rw [bytes_resize, length_resized, hcapacity]
  · rw [bytes_resize, getD_resized]
    split
    · rfl
    · rw [List.getD_eq_default _ _ (by omega)]

/-! ## The end of the extensions -/

/-- The size of extensions with what fills up the last word. -/
def paddedSize (size : Nat) : Nat := 4 * ((size + 3) / 4)

theorem le_paddedSize (size : Nat) : size ≤ paddedSize size := by
  unfold paddedSize
  omega

/-- The extensions are closed: their length is written, the last word filled up, and the packet
gets its size. -/
def closeExtensions (p : RtpPacket) (growTo : Nat → Nat → Nat) (extensionsOffset : Nat) :
    RtpPacket :=
  let r := p.updateExtensionSizeByPaddingZero extensionsOffset
  { r.1 with payloadOffset := extensionsOffset + r.2 }.resize growTo (extensionsOffset + r.2)

theorem closedSize (hsmall : p.extensionsSize + 4 ≤ 2 ^ 16) (offset : Nat) :
    (p.updateExtensionSizeByPaddingZero offset).2 = paddedSize p.extensionsSize := by
  show 4 * ((p.extensionsSize + 3) / 4 % 2 ^ 16) % 2 ^ 16 = 4 * ((p.extensionsSize + 3) / 4)
  omega

theorem closeExtensions_fields (hsmall : p.extensionsSize + 4 ≤ 2 ^ 16) (offset : Nat) :
    (p.closeExtensions growTo offset).payloadOffset = offset + paddedSize p.extensionsSize ∧
      (p.closeExtensions growTo offset).extensionsSize = p.extensionsSize ∧
      (p.closeExtensions growTo offset).extensionEntries = p.extensionEntries ∧
      SameFields p (p.closeExtensions growTo offset) ∧
      (p.closeExtensions growTo offset).bytes.length = offset + paddedSize p.extensionsSize := by
  rw [← closedSize hsmall offset]
  exact ⟨rfl, rfl, rfl, ⟨rfl, rfl, rfl, rfl, rfl, rfl, rfl, rfl, rfl⟩, length_resized _ _⟩

theorem closeExtensions_frame (hsmall : p.extensionsSize + 4 ≤ 2 ^ 16) {offset i : Nat}
    (hoffset : 2 ≤ offset) (h : i + 2 < offset ∨ offset ≤ i ∧ i < offset + p.extensionsSize) :
    (p.closeExtensions growTo offset).bytes.getD i 0 = p.bytes.getD i 0 := by
  have hpadded := le_paddedSize p.extensionsSize
  have hlength := length_writeBigEndian 2 ((p.extensionsSize + 3) / 4 % 2 ^ 16)
  show (resized (offset + (p.updateExtensionSizeByPaddingZero offset).2)
    (overwrite (overwrite p.bytes _ _) _ _)).getD i 0 = _
  rw [closedSize hsmall, getD_resized, if_pos (by omega), getD_overwrite_of_not_mem (by omega),
    getD_overwrite_of_not_mem (by omega)]

theorem paddedSize_le {offset size capacity : Nat} (hoffset : 4 ∣ offset) (hcapacity : 4 ∣ capacity)
    (h : offset + size ≤ capacity) : offset + paddedSize size ≤ capacity := by
  unfold paddedSize
  omega

theorem closeExtensions_aligned (hsmall : p.extensionsSize + 4 ≤ 2 ^ 16) {offset : Nat}
    (hoffset : 4 ∣ offset) (hcapacity : 4 ∣ p.capacity)
    (hroom : offset + p.extensionsSize ≤ p.capacity) :
    (p.closeExtensions growTo offset).capacity = p.capacity := by
  unfold closeExtensions
  dsimp only
  rw [capacity_resize, closedSize hsmall]
  exact if_pos (paddedSize_le hoffset hcapacity hroom)

theorem closeExtensions_capacity (hgrow : ∀ c n, n ≤ growTo c n) (offset : Nat) :
    (p.closeExtensions growTo offset).bytes.length ≤ (p.closeExtensions growTo offset).capacity ∧
      p.capacity ≤ (p.closeExtensions growTo offset).capacity := by
  have hroom := le_capacity_resize (p := { (p.updateExtensionSizeByPaddingZero offset).1 with
    payloadOffset := offset + (p.updateExtensionSizeByPaddingZero offset).2 }) hgrow
    (offset + (p.updateExtensionSizeByPaddingZero offset).2)
  exact ⟨Nat.le_trans (Nat.le_of_eq (length_resized _ _)) hroom.1, hroom.2⟩

/-! ## The number of CSRCs -/

theorem and_or_csrcs (byte : UInt8) : (byte ||| 0x10) &&& 0x0F = byte &&& 0x0F := by
  revert byte
  exact forall_byte (by decide +kernel)

theorem extensionsOffset_congr {q : RtpPacket} (h : q.bytes.getD 0 0 = p.bytes.getD 0 0) :
    q.extensionsOffset = p.extensionsOffset := by
  unfold extensionsOffset numCsrc byteAt
  rw [h]

theorem sixteen_le_extensionsOffset (p : RtpPacket) : 16 ≤ p.extensionsOffset := by
  unfold extensionsOffset kFixedHeaderSize
  omega

theorem extensionsOffset_le (p : RtpPacket) : p.extensionsOffset ≤ 76 := by
  have hcsrcs : ∀ byte : UInt8, (byte &&& 0x0F).toNat ≤ 15 := forall_byte (by decide +kernel)
  have hle : p.numCsrc ≤ 15 := hcsrcs _
  unfold extensionsOffset kFixedHeaderSize
  omega

theorem four_dvd_extensionsOffset (p : RtpPacket) : 4 ∣ p.extensionsOffset := by
  unfold extensionsOffset kFixedHeaderSize
  omega

/-! ## The profile -/

theorem profileId_congr {q : RtpPacket} {offset : Nat}
    (h : ∀ i < 2, q.bytes.getD (offset - 4 + i) 0 = p.bytes.getD (offset - 4 + i) 0) :
    q.profileId offset = p.profileId offset :=
  readBigEndian_drop_congr h

theorem profileId_written {offset profileId : Nat} (hprofile : profileId < 2 ^ 16)
    (h : ∀ i < 2, p.bytes.getD (offset - 4 + i) 0 = (writeBigEndian 2 profileId).getD i 0) :
    p.profileId offset = profileId := by
  have hread : p.profileId offset = readBigEndian 2 (writeBigEndian 2 profileId ++ []) := by
    unfold RtpPacket.profileId readBigEndian
    refine BitField.orFields_congr fun i hi => ?_
    rw [getD_drop, h i hi, List.append_nil]
  rw [hread, readBigEndian_write, Nat.mod_eq_of_lt hprofile]

/-! ## Promotion -/

/-- A packet that kept its extensions, some of them maybe at other places. -/
structure Extended (p q : RtpPacket) : Prop where
  placed : q.Placed
  fields : SameFields p q
  extensionsOffset : q.extensionsOffset = p.extensionsOffset
  capacity : p.capacity ≤ q.capacity
  aligned : 4 ∣ p.capacity → q.capacity = p.capacity

theorem promote_spec (hgrow : ∀ c n, n ≤ growTo c n) (h : p.Placed)
    (hroom : p.extensionsOffset + p.extensionsSize + p.extensionEntries.length ≤ p.capacity)
    (hsmall : p.extensionsOffset + p.extensionsSize + p.extensionEntries.length < 2 ^ 16)
    (hone : p.profileId p.extensionsOffset = kOneByteExtensionProfileId)
    (hpayload : p.payloadSize = 0) :
    Extended p (p.promoteToTwoByteHeaderExtension growTo) ∧
      List.Forall₂ (Carries p.bytes (p.promoteToTwoByteHeaderExtension growTo).bytes)
        p.extensionEntries (p.promoteToTwoByteHeaderExtension growTo).extensionEntries ∧
      (p.promoteToTwoByteHeaderExtension growTo).extensionsSize =
        p.extensionsSize + p.extensionEntries.length ∧
      (p.extensionEntries ≠ [] → (p.promoteToTwoByteHeaderExtension growTo).profileId
        p.extensionsOffset = kTwoByteExtensionProfileId) := by
  by_cases hnone : p.extensionEntries.length = 0
  · have hresult : p.promoteToTwoByteHeaderExtension growTo = p := if_pos hnone
    rw [hresult, hnone, Nat.add_zero]
    rw [List.length_eq_zero_iff] at hnone
    exact ⟨⟨h, .refl p, rfl, Nat.le_refl _, fun _ => rfl⟩, by rw [hnone]; exact .nil, rfl,
      fun hsome => absurd hnone hsome⟩
  · have hsixteen := p.sixteen_le_extensionsOffset
    obtain ⟨-, hfullBytes, hbytes⟩ := @Sound.resize_capacity growTo p h.toSound
    have hcapacity : (p.resize growTo p.capacity).capacity = p.capacity := by
      rw [capacity_resize, if_pos (Nat.le_refl _)]
    have hreverse : p.extensionEntries.reverse.length = p.extensionEntries.length :=
      List.length_reverse
    let r := promoteEntries (p.resize growTo p.capacity).bytes p.extensionEntries.length
      p.extensionEntries.reverse
    have hspec := @promoteEntries_spec _ _ _ h.entries (p.resize growTo p.capacity).bytes
      (by omega) (by omega)
    rw [hreverse] at hspec
    obtain ⟨hlength, hframe, hcarries, hdescends⟩ : r.1.length = _ ∧ (∀ i, _ → r.1.getD i 0 = _) ∧
      List.Forall₂ (Carries _ r.1) _ r.2 ∧ Descends _ _ r.2 := hspec
    have hcount : r.2.reverse.length = p.extensionEntries.length := by
      rw [List.length_reverse, ← hcarries.length_eq, hreverse]
    -- what is closed
    let moved : RtpPacket := { p with
      buffer := ⟨overwrite r.1 (p.extensionsOffset - 4)
        (writeBigEndian 2 kTwoByteExtensionProfileId), (p.resize growTo p.capacity).capacity⟩
      extensionEntries := r.2.reverse
      extensionsSize := p.extensionsSize + r.2.reverse.length }
    have hresult : p.promoteToTwoByteHeaderExtension growTo =
        moved.closeExtensions growTo p.extensionsOffset := by
      unfold promoteToTwoByteHeaderExtension
      rw [if_neg hnone, if_neg (by omega)]
      exact if_neg (not_not.2 hone.symm)
    have hmovedSize : moved.extensionsSize = p.extensionsSize + p.extensionEntries.length :=
      congrArg _ hcount
    have hmovedSmall : moved.extensionsSize + 4 ≤ 2 ^ 16 := by omega
    obtain ⟨hheader, hsize, hentries, hfields, hclosed⟩ :=
      @closeExtensions_fields growTo moved hmovedSmall p.extensionsOffset
    have hprofile := length_writeBigEndian 2 kTwoByteExtensionProfileId
    have hkept : ∀ i, i + 4 < p.extensionsOffset ∨ p.extensionsOffset ≤ i ∧
        i < p.extensionsOffset + moved.extensionsSize →
        (moved.closeExtensions growTo p.extensionsOffset).bytes.getD i 0 = r.1.getD i 0 := by
      intro i hi
      refine (closeExtensions_frame hmovedSmall (by omega) (by omega)).trans ?_
      exact getD_overwrite_of_not_mem (by omega)
    have hfirst : (moved.closeExtensions growTo p.extensionsOffset).extensionsOffset =
        p.extensionsOffset := by
      refine extensionsOffset_congr ?_
      rw [hkept 0 (by omega), hframe 0 (by omega), hbytes]
    have hroomed := @closeExtensions_capacity growTo moved hgrow p.extensionsOffset
    rw [hresult]
    have hsame : SameFields p moved := ⟨rfl, rfl, rfl, rfl, rfl, rfl, rfl, rfl, rfl⟩
    refine ⟨⟨⟨⟨?_, ?_, hroomed.1⟩, ?_⟩, hsame.trans hfields, hfirst, ?_, fun haligned => ?_⟩, ?_,
      hsize.trans hmovedSize, fun _ => ?_⟩
    · rw [hheader]
      unfold kFixedHeaderSize
      omega
    · rw [hheader, hclosed]
    · rw [hfirst, hsize, hentries, hmovedSize, List.reverse_reverse, ← Nat.add_assoc]
      exact hdescends
    · rw [← hcapacity]
      exact hroomed.2
    · have hmovedCapacity : moved.capacity = p.capacity := hcapacity
      rw [closeExtensions_aligned hmovedSmall p.four_dvd_extensionsOffset
        (by rw [hmovedCapacity]; exact haligned) (by rw [hmovedCapacity]; omega), hmovedCapacity]
    · rw [hentries]
      refine List.forall₂_reverse_iff.1 ?_
      rw [List.reverse_reverse]
      refine forall₂_imp_of_mem hcarries fun e _ e' he' hcarry => ⟨hcarry.id, hcarry.size, ?_⟩
      intro j hj
      have hbounds := hdescends.bounds he'
      have hcarriedSize := hcarry.size
      rw [hkept _ (by omega), hcarry.value j hj, hbytes]
    · refine profileId_written (by decide) fun i hi => ?_
      refine (closeExtensions_frame hmovedSmall (by omega) (by omega)).trans ?_
      show (overwrite r.1 _ _).getD _ 0 = _
      rw [getD_overwrite, hprofile, if_pos (by omega), Nat.add_sub_cancel_left]

/-! ## Appending -/

/-- The packet with a new extension at the end. -/
structure Appended (p q : RtpPacket) (id size offset : Nat) : Prop extends Extended p q where
  entries : ∃ entries, q.extensionEntries = entries ++ [⟨id, size, offset⟩] ∧
    List.Forall₂ (Carries p.bytes q.bytes) p.extensionEntries entries
  value : offset + size = q.extensionsOffset + q.extensionsSize
  headerSize : q.payloadOffset = q.extensionsOffset + paddedSize q.extensionsSize
  length : q.bytes.length = q.payloadOffset

/-- The block is opened by its first extension: the extension bit and the profile. -/
def openBlock (p : RtpPacket) (extensionsOffset profileId : Nat) : RtpPacket :=
  if p.extensionsSize = 0 then
    (p.writeAt 0 [p.byteAt 0 ||| 0x10]).writeAt (extensionsOffset - 4) (writeBigEndian 2 profileId)
  else p

theorem openBlock_eq (profileId : Nat) : p.openBlock p.extensionsOffset profileId =
    { p with buffer := (p.openBlock p.extensionsOffset profileId).buffer } ∧
      (p.openBlock p.extensionsOffset profileId).capacity = p.capacity := by
  unfold openBlock
  split <;> exact ⟨rfl, rfl⟩

theorem openBlock_spec (profileId : Nat) :
    (p.openBlock p.extensionsOffset profileId).extensionsOffset = p.extensionsOffset ∧
      ∀ i, p.extensionsOffset ≤ i →
        (p.openBlock p.extensionsOffset profileId).bytes.getD i 0 = p.bytes.getD i 0 := by
  have hsixteen := p.sixteen_le_extensionsOffset
  have hprofile := length_writeBigEndian 2 profileId
  by_cases hempty : p.extensionsSize = 0
  · have hbytes : ∀ i, i < 12 ∨ p.extensionsOffset ≤ i + 2 →
        (p.openBlock p.extensionsOffset profileId).bytes.getD i 0 =
          (overwrite p.bytes 0 [p.byteAt 0 ||| 0x10]).getD i 0 := by
      intro i hi
      unfold openBlock
      rw [if_pos hempty]
      exact getD_overwrite_of_not_mem (by omega)
    refine ⟨?_, fun i hi => ?_⟩
    · have hfirst : (p.openBlock p.extensionsOffset profileId).byteAt 0 &&& 0x0F =
          p.byteAt 0 &&& 0x0F := by
        unfold byteAt
        rw [hbytes 0 (by omega), getD_overwrite]
        split
        · exact and_or_csrcs _
        · rfl
      exact congrArg (fun byte : UInt8 => kFixedHeaderSize + byte.toNat * 4 + 4) hfirst
    · rw [hbytes i (by omega), getD_overwrite_of_not_mem (by rw [List.length_singleton]; omega)]
  · unfold openBlock
    rw [if_neg hempty]
    exact ⟨rfl, fun _ _ => rfl⟩

theorem profileId_openBlock {profileId : Nat} (hprofile : profileId < 2 ^ 16)
    (hopen : p.extensionsSize = 0 → p.extensionsOffset ≤ p.bytes.length)
    (hkeep : 0 < p.extensionsSize → p.profileId p.extensionsOffset = profileId) :
    (p.openBlock p.extensionsOffset profileId).profileId p.extensionsOffset = profileId := by
  by_cases hempty : p.extensionsSize = 0
  · have hsixteen := p.sixteen_le_extensionsOffset
    have hroom := hopen hempty
    refine profileId_written hprofile fun i hi => ?_
    unfold openBlock
    rw [if_pos hempty]
    show (overwrite (overwrite _ _ _) _ _).getD _ 0 = _
    rw [getD_overwrite, length_writeBigEndian, length_overwrite, if_pos (by omega),
      Nat.add_sub_cancel_left]
  · unfold openBlock
    rw [if_neg hempty]
    exact hkeep (Nat.pos_of_ne_zero hempty)

/-- The size of the header of an extension. -/
def headerSizeFor (profileId : Nat) : Nat :=
  if profileId = kOneByteExtensionProfileId then kOneByteExtensionHeaderSize
  else kTwoByteExtensionHeaderSize

theorem headerSizeFor_pos (profileId : Nat) : 1 ≤ headerSizeFor profileId := by
  unfold headerSizeFor
  split <;> decide

theorem append_full {profileId id size : Nat}
    (h : p.capacity < p.extensionsOffset + (p.extensionsSize + headerSizeFor profileId + size)) :
    p.appendExtension growTo p.extensionsOffset profileId id size = (p, none) := if_pos h

theorem append_spec (hgrow : ∀ c n, n ≤ growTo c n) (h : p.Placed) {profileId id size : Nat}
    (hroom : p.extensionsOffset + (p.extensionsSize + headerSizeFor profileId + size) ≤ p.capacity)
    (hsmall : p.extensionsOffset + (p.extensionsSize + headerSizeFor profileId + size) < 2 ^ 16) :
    ∃ offset, (p.appendExtension growTo p.extensionsOffset profileId id size).2 = some offset ∧
      Appended p (p.appendExtension growTo p.extensionsOffset profileId id size).1 id size offset ∧
      (p.appendExtension growTo p.extensionsOffset profileId id size).1.extensionsSize =
        p.extensionsSize + headerSizeFor profileId + size ∧
      (p.appendExtension growTo p.extensionsOffset profileId id size).1.profileId
        p.extensionsOffset = (p.openBlock p.extensionsOffset profileId).profileId
          p.extensionsOffset := by
  have hsixteen := p.sixteen_le_extensionsOffset
  have hheaderSize := headerSizeFor_pos profileId
  let opened := p.openBlock p.extensionsOffset profileId
  let header := if profileId = kOneByteExtensionProfileId then
      [UInt8.ofNat id <<< 4 ||| UInt8.ofNat (size - 1)]
    else [UInt8.ofNat id, UInt8.ofNat size]
  let offset := p.extensionsOffset + opened.extensionsSize + headerSizeFor profileId
  obtain ⟨hsame, hopenedCapacity⟩ : opened = { p with buffer := opened.buffer } ∧
    opened.capacity = p.capacity := openBlock_eq profileId
  obtain ⟨hopenedOffset, hopenedBytes⟩ : opened.extensionsOffset = p.extensionsOffset ∧
    ∀ i, p.extensionsOffset ≤ i → opened.bytes.getD i 0 = p.bytes.getD i 0 :=
    openBlock_spec profileId
  have hopenedSize : opened.extensionsSize = p.extensionsSize := by rw [hsame]
  have hopenedEntries : opened.extensionEntries = p.extensionEntries := by rw [hsame]
  have hoffset : offset % 2 ^ 16 = offset := Nat.mod_eq_of_lt (by omega)
  -- what is closed
  let moved : RtpPacket := { opened.writeAt (p.extensionsOffset + opened.extensionsSize) header with
    extensionEntries := opened.extensionEntries ++ [⟨id, size, offset % 2 ^ 16⟩]
    extensionsSize := p.extensionsSize + headerSizeFor profileId + size }
  have hresult : p.appendExtension growTo p.extensionsOffset profileId id size =
      (moved.closeExtensions growTo p.extensionsOffset, some (offset % 2 ^ 16)) :=
    if_neg (Nat.not_lt.2 hroom)
  have hopened : p.openBlock p.extensionsOffset profileId = opened := rfl
  clear_value opened header
  have hmovedSize : moved.extensionsSize = p.extensionsSize + headerSizeFor profileId + size := rfl
  have hmovedSmall : moved.extensionsSize + 4 ≤ 2 ^ 16 := by omega
  obtain ⟨hheader, hsize, hentries, hfields, hclosed⟩ :=
    @closeExtensions_fields growTo moved hmovedSmall p.extensionsOffset
  have hroomed := @closeExtensions_capacity growTo moved hgrow p.extensionsOffset
  have hfirst : (moved.closeExtensions growTo p.extensionsOffset).extensionsOffset =
      p.extensionsOffset := by
    rw [← hopenedOffset]
    refine extensionsOffset_congr ?_
    refine (closeExtensions_frame hmovedSmall (by omega) (by omega)).trans ?_
    exact getD_overwrite_of_not_mem (by omega)
  have hkept : ∀ i, p.extensionsOffset ≤ i → i < p.extensionsOffset + p.extensionsSize →
      (moved.closeExtensions growTo p.extensionsOffset).bytes.getD i 0 = p.bytes.getD i 0 := by
    intro i hi hi'
    refine (closeExtensions_frame hmovedSmall (by omega) (by omega)).trans ?_
    exact (getD_overwrite_of_not_mem (by omega)).trans (hopenedBytes i hi)
  have hmovedFields : SameFields p moved := by
    have hopenedFields : SameFields p opened := by
      rw [hsame]
      exact ⟨rfl, rfl, rfl, rfl, rfl, rfl, rfl, rfl, rfl⟩
    exact hopenedFields.trans ⟨rfl, rfl, rfl, rfl, rfl, rfl, rfl, rfl, rfl⟩
  rw [hresult, hoffset]
  refine ⟨offset, rfl, ⟨⟨⟨⟨?_, ?_, hroomed.1⟩, ?_⟩, hmovedFields.trans hfields, hfirst, ?_,
    fun haligned => ?_⟩, ⟨p.extensionEntries, ?_, ?_⟩, ?_, ?_, ?_⟩, hsize, ?_⟩
  · rw [hheader]
    unfold kFixedHeaderSize
    omega
  · rw [hheader, hclosed]
  · rw [hfirst, hsize, hentries]
    show Descends _ _ (opened.extensionEntries ++
      [ExtensionInfo.mk id size (offset % 2 ^ 16)]).reverse
    rw [hopenedEntries, hoffset, List.reverse_append, List.reverse_singleton]
    refine ⟨?_, ?_, h.entries.mono ?_⟩
    · dsimp only
      omega
    · dsimp only
      omega
    · dsimp only
      omega
  · rw [← hopenedCapacity]
    exact hroomed.2
  · have hmovedCapacity : moved.capacity = p.capacity := hopenedCapacity
    rw [closeExtensions_aligned hmovedSmall p.four_dvd_extensionsOffset
      (by rw [hmovedCapacity]; exact haligned) (by rw [hmovedCapacity]; omega), hmovedCapacity]
  · rw [hentries, ← hopenedEntries, ← hoffset]
  · refine List.forall₂_same.2 fun e he => Carries.mk rfl rfl fun j hj => ?_
    have hbounds := h.entries.bounds (List.mem_reverse.2 he)
    exact hkept _ (by omega) (by omega)
  · rw [hfirst, hsize]
    omega
  · rw [hheader, hfirst, hsize]
  · rw [hclosed, hheader]
  · rw [hopened]
    refine profileId_congr fun i hi => ?_
    refine (closeExtensions_frame hmovedSmall (by omega) (by omega)).trans ?_
    exact getD_overwrite_of_not_mem (by omega)

/-! ## Allocation -/

/-- The header of the extension has two bytes. -/
def twoByteRequired (id size : Nat) : Bool :=
  decide (RtpExtension.kOneByteHeaderExtensionMaxId < id) ||
    decide (RtpExtension.kOneByteHeaderExtensionMaxValueSize < size) || decide (size = 0)

/-- The size that the extensions have with a new one. -/
def grownSize (p : RtpPacket) (id size : Nat) : Nat :=
  if 0 < p.extensionsSize then
    if p.profileId p.extensionsOffset = kOneByteExtensionProfileId ∧ twoByteRequired id size then
      p.extensionsSize + p.extensionEntries.length + kTwoByteExtensionHeaderSize + size
    else p.extensionsSize + headerSizeFor (p.profileId p.extensionsOffset) + size
  else
    (if twoByteRequired id size then kTwoByteExtensionHeaderSize
      else kOneByteExtensionHeaderSize) + size

/-- The profile that the extensions have with a new one. -/
def grownProfile (p : RtpPacket) (id size : Nat) : Nat :=
  if 0 < p.extensionsSize then
    if p.profileId p.extensionsOffset = kOneByteExtensionProfileId ∧ twoByteRequired id size then
      kTwoByteExtensionProfileId
    else p.profileId p.extensionsOffset
  else if twoByteRequired id size then kTwoByteExtensionProfileId else kOneByteExtensionProfileId

theorem grownProfile_lt (p : RtpPacket) (id size : Nat) : p.grownProfile id size < 2 ^ 16 := by
  unfold grownProfile
  split
  · split
    · decide
    · exact readBigEndian_lt 2 _
  · split <;> decide

/-- A new extension is asked for, and neither payload nor padding is in the way. -/
structure AsksForNew (p : RtpPacket) (id size : Nat) : Prop where
  id_le : ¬ (id < RtpExtension.kMinId ∨ RtpExtension.kMaxId < id)
  size_le : ¬ (size < 1 ∨ RtpExtension.kMaxValueSize < size)
  find : p.findExtensionInfo id = none
  payloadSize : p.payloadSize = 0
  paddingSize : p.paddingSize = 0

/-- There is no way to write it down. -/
def Refuses (p : RtpPacket) (id size : Nat) : Prop :=
  (twoByteRequired id size && !p.extensionMap.extmapAllowMixed) = true ∨
    p.capacity < p.extensionsOffset + p.grownSize id size

theorem Placed.resize_capacity (h : p.Placed) : (p.resize growTo p.capacity).Placed ∧
    (p.resize growTo p.capacity).extensionsOffset = p.extensionsOffset ∧
    (p.resize growTo p.capacity).capacity = p.capacity ∧
    (p.resize growTo p.capacity).profileId p.extensionsOffset = p.profileId p.extensionsOffset ∧
    List.Forall₂ (Carries p.bytes (p.resize growTo p.capacity).bytes) p.extensionEntries
      p.extensionEntries := by
  obtain ⟨hsound, -, hbytes⟩ := @Sound.resize_capacity growTo p h.toSound
  have hfirst : (p.resize growTo p.capacity).extensionsOffset = p.extensionsOffset :=
    extensionsOffset_congr (hbytes 0)
  refine ⟨⟨hsound, ?_⟩, hfirst, ?_, profileId_congr fun i _ => hbytes _, ?_⟩
  · rw [hfirst]
    exact h.entries
  · rw [capacity_resize, if_pos (Nat.le_refl _)]
  · exact List.forall₂_same.2 fun e _ => Carries.mk rfl rfl fun j _ => hbytes _

theorem Extended.trans {q r : RtpPacket} (h : Extended p q) (h' : Extended q r) :
    Extended p r where
  placed := h'.placed
  fields := h.fields.trans h'.fields
  extensionsOffset := h'.extensionsOffset.trans h.extensionsOffset
  capacity := Nat.le_trans h.capacity h'.capacity
  aligned haligned := by
    have hsame := h.aligned haligned
    exact (h'.aligned (by rw [hsame]; exact haligned)).trans hsame

theorem Appended.of_extended {q r : RtpPacket} {id size offset : Nat} (h : Extended p q)
    (hcarries : List.Forall₂ (Carries p.bytes q.bytes) p.extensionEntries q.extensionEntries)
    (h' : Appended q r id size offset) : Appended p r id size offset where
  toExtended := h.trans h'.toExtended
  entries := by
    obtain ⟨entries, hentries, hcarries'⟩ := h'.entries
    exact ⟨entries, hentries, Carries.forall₂_trans hcarries hcarries'⟩
  value := h'.value
  headerSize := h'.headerSize
  length := h'.length

theorem allocateRawExtension_same {id size : Nat} (h : ¬ p.AsksForNew id size) :
    (p.allocateRawExtension growTo id size).1 = p ∧
      ∀ offset, (p.allocateRawExtension growTo id size).2 = some offset →
        ⟨id, size, offset⟩ ∈ p.extensionEntries := by
  have hnone : ∀ offset, (none : Option Nat) = some offset →
      ⟨id, size, offset⟩ ∈ p.extensionEntries :=
    fun _ hoffset => by cases hoffset
  unfold allocateRawExtension
  split
  · exact ⟨rfl, hnone⟩
  · split
    · exact ⟨rfl, hnone⟩
    · rename_i hid hsize
      cases hfind : p.findExtensionInfo id with
      | some entry =>
        dsimp only
        split
        · rename_i heq
          refine ⟨rfl, fun offset hoffset => ?_⟩
          obtain rfl : entry.offset = offset := Option.some.inj hoffset
          have hfound := List.find?_some hfind
          have hentry : entry.id = id := beq_iff_eq.1 hfound
          rw [← hentry, ← heq]
          exact List.mem_of_find?_eq_some hfind
        · exact ⟨rfl, hnone⟩
      | none =>
        dsimp only
        split
        · exact ⟨rfl, hnone⟩
        · split
          · exact ⟨rfl, hnone⟩
          · rename_i hpayload hpadding
            refine absurd ⟨hid, hsize, hfind, by omega, ?_⟩ h
            exact UInt8.le_zero_iff.1 (UInt8.not_lt.1 hpadding)

theorem allocateRawExtension_new {id size : Nat} (h : p.AsksForNew id size) (hplaced : p.Placed) :
    p.allocateRawExtension growTo id size =
      if (twoByteRequired id size && !p.extensionMap.extmapAllowMixed) = true then
        (p.resize growTo p.capacity, none)
      else
        match (p.resize growTo p.capacity).selectProfile growTo p.extensionsOffset
          (twoByteRequired id size) size with
        | none => (p.resize growTo p.capacity, none)
        | some (q, profileId) => q.appendExtension growTo p.extensionsOffset profileId id size := by
  have hfirst := (@Placed.resize_capacity growTo p hplaced).2.1
  unfold allocateRawExtension
  rw [if_neg h.id_le, if_neg h.size_le, h.find]
  dsimp only
  rw [if_neg (by rw [h.payloadSize]; exact Nat.lt_irrefl 0),
    if_neg (by rw [h.paddingSize]; exact UInt8.lt_irrefl 0), ← hfirst]
  rfl

/-- The profile is chosen, the extensions promoted where that is needed, and then the extension is
appended, when it fits. -/
theorem select_append (hgrow : ∀ c n, n ≤ growTo c n) (h : p.Placed) {id size : Nat}
    (hpayload : p.payloadSize = 0) (hroom : p.extensionsOffset + p.grownSize id size ≤ p.capacity)
    (hsmall : p.extensionsOffset + p.grownSize id size < 2 ^ 16) :
    ∃ q, p.selectProfile growTo p.extensionsOffset (twoByteRequired id size) size =
        some (q, p.grownProfile id size) ∧
      Extended p q ∧
      List.Forall₂ (Carries p.bytes q.bytes) p.extensionEntries q.extensionEntries ∧
      q.extensionsSize + headerSizeFor (p.grownProfile id size) + size = p.grownSize id size ∧
      (q.extensionsSize = 0 → q = p) ∧
      ((0 < p.extensionsSize → p.extensionEntries ≠ []) → 0 < q.extensionsSize →
        q.profileId q.extensionsOffset = p.grownProfile id size) := by
  have hsame : List.Forall₂ (Carries p.bytes p.bytes) p.extensionEntries p.extensionEntries :=
    List.forall₂_same.2 fun e _ => Carries.mk rfl rfl fun _ _ => rfl
  have hkept : Extended p p := ⟨h, .refl p, rfl, Nat.le_refl _, fun _ => rfl⟩
  unfold selectProfile grownProfile
  unfold grownSize at hroom hsmall ⊢
  by_cases hsize : 0 < p.extensionsSize
  · rw [if_pos hsize] at hroom hsmall
    rw [if_pos hsize, if_pos hsize, if_pos hsize]
    by_cases hpromote : p.profileId p.extensionsOffset = kOneByteExtensionProfileId ∧
        twoByteRequired id size = true
    · rw [if_pos hpromote] at hroom hsmall
      rw [if_pos hpromote, if_pos hpromote, if_pos hpromote, if_neg (Nat.not_lt.2 hroom)]
      obtain ⟨hextended, hcarries, hpromoted, hprofile⟩ :=
        promote_spec hgrow h (by omega) (by omega) hpromote.1 hpayload
      refine ⟨_, rfl, hextended, hcarries, ?_, fun hzero => ?_, fun hentries _ => ?_⟩
      · rw [hpromoted]
        rfl
      · omega
      · rw [hextended.extensionsOffset]
        exact hprofile (hentries hsize)
    · rw [if_neg hpromote, if_neg hpromote, if_neg hpromote]
      exact ⟨_, rfl, hkept, hsame, rfl, fun _ => rfl, fun _ _ => rfl⟩
  · rw [if_neg hsize, if_neg hsize, if_neg hsize]
    refine ⟨_, rfl, hkept, hsame, ?_, fun _ => rfl, fun _ hpos => absurd hpos hsize⟩
    rw [Nat.eq_zero_of_not_pos hsize, Nat.zero_add]
    cases twoByteRequired id size <;> rfl

theorem allocateRawExtension_refused (h : p.Placed) {id size : Nat} (hasks : p.AsksForNew id size)
    (hrefuses : p.Refuses id size) :
    p.allocateRawExtension growTo id size = (p.resize growTo p.capacity, none) := by
  rw [allocateRawExtension_new hasks h]
  by_cases hmixed : (twoByteRequired id size && !p.extensionMap.extmapAllowMixed) = true
  · rw [if_pos hmixed]
  · rw [if_neg hmixed]
    obtain ⟨-, hfirst, hcapacity, hprofile, -⟩ := @Placed.resize_capacity growTo p h
    have hfull := hrefuses.resolve_left hmixed
    have happend : ∀ profileId,
        p.extensionsSize + headerSizeFor profileId + size = p.grownSize id size →
        (p.resize growTo p.capacity).appendExtension growTo p.extensionsOffset profileId id size =
          (p.resize growTo p.capacity, none) := by
      intro profileId hgrown
      rw [← hfirst]
      refine append_full ?_
      rw [hcapacity, hfirst]
      exact Nat.lt_of_lt_of_eq hfull (congrArg _ hgrown.symm)
    have hsize : (p.resize growTo p.capacity).extensionsSize = p.extensionsSize := rfl
    have hcount : (p.resize growTo p.capacity).extensionEntries.length =
      p.extensionEntries.length := rfl
    unfold selectProfile
    rw [hsize, hprofile, hcount, hcapacity]
    unfold grownSize at hfull happend
    by_cases hpos : 0 < p.extensionsSize
    · rw [if_pos hpos] at hfull
      rw [if_pos hpos]
      by_cases hpromote : p.profileId p.extensionsOffset = kOneByteExtensionProfileId ∧
          twoByteRequired id size = true
      · rw [if_pos hpromote] at hfull
        rw [if_pos hpromote, if_pos hfull]
      · rw [if_neg hpromote]
        exact happend _ (by rw [if_pos hpos, if_neg hpromote])
    · rw [if_neg hpos]
      refine happend _ ?_
      rw [if_neg hpos, Nat.eq_zero_of_not_pos hpos, Nat.zero_add]
      cases twoByteRequired id size <;> rfl

theorem allocateRawExtension_appended (hgrow : ∀ c n, n ≤ growTo c n) (h : p.Placed)
    {id size : Nat} (hasks : p.AsksForNew id size) (hrefuses : ¬ p.Refuses id size)
    (hsmall : p.extensionsOffset + p.grownSize id size < 2 ^ 16) :
    ∃ offset, (p.allocateRawExtension growTo id size).2 = some offset ∧
      Appended p (p.allocateRawExtension growTo id size).1 id size offset ∧
      (p.allocateRawExtension growTo id size).1.extensionsSize = p.grownSize id size ∧
      ((0 < p.extensionsSize → p.extensionEntries ≠ []) →
        (p.allocateRawExtension growTo id size).1.profileId
          (p.allocateRawExtension growTo id size).1.extensionsOffset = p.grownProfile id size) := by
  obtain ⟨hplaced, hfirst, hcapacity, hprofile, hfilled⟩ := @Placed.resize_capacity growTo p h
  obtain ⟨hmixed, hroom⟩ := not_or.1 hrefuses
  rw [Nat.not_lt] at hroom
  rw [allocateRawExtension_new hasks h, if_neg hmixed]
  have hgrown : (p.resize growTo p.capacity).grownSize id size = p.grownSize id size := by
    unfold grownSize
    rw [hfirst, hprofile]
    rfl
  have hgrownProfile : (p.resize growTo p.capacity).grownProfile id size =
      p.grownProfile id size := by
    unfold grownProfile
    rw [hfirst, hprofile]
    rfl
  obtain ⟨q, hselect, hextended, hcarries, hsize, hunchanged, hkeep⟩ :=
    @select_append growTo _ hgrow hplaced id size hasks.payloadSize
      (by rw [hfirst, hgrown, hcapacity]; exact hroom) (by rw [hfirst, hgrown]; exact hsmall)
  rw [hfirst, hgrownProfile] at hselect
  rw [hselect]
  have hkept : Extended p (p.resize growTo p.capacity) :=
    ⟨hplaced, ⟨rfl, rfl, rfl, rfl, rfl, rfl, rfl, rfl, rfl⟩, hfirst, Nat.le_of_eq hcapacity.symm,
      fun _ => hcapacity⟩
  have hoffset : q.extensionsOffset = p.extensionsOffset :=
    hextended.extensionsOffset.trans hfirst
  have hqcapacity := (hkept.trans hextended).capacity
  rw [hgrown, hgrownProfile] at hsize
  rw [hgrownProfile] at hkeep
  obtain ⟨offset, hsome, happended, hend, happendedProfile⟩ :=
    @append_spec growTo q hgrow hextended.placed (p.grownProfile id size) id size (by omega)
      (by omega)
  have hopened : (0 < p.extensionsSize → p.extensionEntries ≠ []) →
      (q.openBlock q.extensionsOffset (p.grownProfile id size)).profileId q.extensionsOffset =
        p.grownProfile id size := by
    refine fun hentries => profileId_openBlock (p.grownProfile_lt id size) (fun hzero => ?_)
      (hkeep hentries)
    rw [hunchanged hzero, hfirst, bytes_resize, length_resized]
    omega
  have hlast := happended.extensionsOffset
  rw [hoffset] at hsome happended hend hopened happendedProfile hlast
  refine ⟨offset, hsome, .of_extended hkept hfilled (.of_extended hextended hcarries happended),
    hend.trans hsize, fun hentries => ?_⟩
  dsimp only
  rw [hlast]
  exact happendedProfile.trans (hopened hentries)

end Growth

end RtpPacket

end NaiveRtc.Rtp
