import NaiveRtc.Rtp.ExtensionPlaces
import NaiveRtc.Rtp.RtpPacketReuse

/-!
# Allocating an extension

Whether an allocation that fails leaves the packet as it was, and whether one that succeeds leaves
the other extensions as they were.

* `Op`, `packetMachine` — a packet driven by its public operations.
* `Keeps` — the condition on an operation; `Placed.apply`, `placed_final` — **after operations
  that meet it, the extensions stand where their entries say**.
* `AllocatesAtomically`, `allocatesAtomically` — **in every packet reached**, an allocation that
  is written down keeps the others, and one that is refused keeps the packet exactly when the
  buffer was full before.
-/

namespace NaiveRtc.Rtp

open ByteIo CopyOnWrite Overwrite

/-! ## What is found -/

theorem Carries.find {bytes bytes' : List UInt8} {entries entries' : List ExtensionInfo}
    (h : List.Forall₂ (Carries bytes bytes') entries entries') {id : Nat} {entry : ExtensionInfo}
    (hfind : entries.find? (·.id == id) = some entry) :
    ∃ entry', entries'.find? (·.id == id) = some entry' ∧ Carries bytes bytes' entry entry' := by
  induction h with
  | nil => cases hfind
  | @cons e e' es es' hcarry _ ih =>
    by_cases hid : e.id = id
    · rw [List.find?_cons_of_pos (by rw [hid]; exact beq_self_eq_true id)] at hfind
      obtain rfl := Option.some.inj hfind
      refine ⟨e', List.find?_cons_of_pos ?_, hcarry⟩
      rw [hcarry.id, hid]
      exact beq_self_eq_true id
    · rw [List.find?_cons_of_neg (by rw [beq_iff_eq]; exact hid)] at hfind
      obtain ⟨entry', hfind', hcarry'⟩ := ih hfind
      refine ⟨entry', ?_, hcarry'⟩
      rw [List.find?_cons_of_neg (by rw [beq_iff_eq, hcarry.id]; exact hid)]
      exact hfind'

namespace RtpPacket

variable {p q : RtpPacket}

theorem Appended.shown {id size offset : Nat} (h : Appended p q id size offset) {id' : Nat}
    {value : List UInt8} (hshown : shown p.bytes id' p.extensionEntries = some value) :
    RtpPacket.shown q.bytes id' q.extensionEntries = some value := by
  obtain ⟨entries, hentries, hcarries⟩ := h.entries
  obtain ⟨entry, hentry, rfl⟩ := Option.map_eq_some_iff.1 hshown
  obtain ⟨entry', hentry', hcarry⟩ := Carries.find hcarries hentry
  unfold RtpPacket.shown lookup
  rw [hentries, List.find?_append, hentry', ← hcarry.readFrom_eq]
  rfl

/-! ## Packets whose extensions stay where they are -/

theorem Placed.of_same (h : p.Placed) (hsound : q.Sound) (hcsrcs : q.numCsrc = p.numCsrc)
    (hentries : q.extensionEntries = p.extensionEntries)
    (hsize : q.extensionsSize = p.extensionsSize) : q.Placed where
  toSound := hsound
  entries := by
    have hoffset : q.extensionsOffset = p.extensionsOffset := by
      unfold extensionsOffset
      rw [hcsrcs]
    rw [hoffset, hentries, hsize]
    exact h.entries

theorem Placed.of_nil (h : p.Sound) (hentries : p.extensionEntries = []) : p.Placed where
  toSound := h
  entries := by
    rw [hentries]
    trivial

theorem Sound.writeAt (h : p.Sound) (offset : Nat) (data : List UInt8) :
    (p.writeAt offset data).Sound where
  fixed := h.fixed
  headerSize_le := by
    rw [bytes_writeAt, length_overwrite]
    exact h.headerSize_le
  length_le := by
    rw [bytes_writeAt, length_overwrite]
    exact h.length_le

theorem numCsrc_congr (h : q.bytes.getD 0 0 = p.bytes.getD 0 0) : q.numCsrc = p.numCsrc := by
  unfold numCsrc byteAt
  rw [h]

theorem Placed.writeAt (h : p.Placed) {offset : Nat} (hoffset : 0 < offset) (data : List UInt8) :
    (p.writeAt offset data).Placed :=
  h.of_same (h.toSound.writeAt offset data)
    (numCsrc_congr (getD_overwrite_of_not_mem (Or.inl hoffset))) rfl rfl

theorem numCsrc_setHasPadding (p : RtpPacket) (hasPadding : Bool) :
    (p.setHasPadding hasPadding).numCsrc = p.numCsrc := by
  have hbits : ∀ byte : UInt8, (byte ||| 0x20) &&& 0x0F = byte &&& 0x0F ∧
      (byte &&& ~~~0x20) &&& 0x0F = byte &&& 0x0F :=
    forall_byte (by decide +kernel)
  have hwritten : ∀ byte : UInt8, byte &&& 0x0F = p.byteAt 0 &&& 0x0F →
      (overwrite p.bytes 0 [byte]).getD 0 0 &&& 0x0F = p.byteAt 0 &&& 0x0F := by
    intro byte hbyte
    rw [getD_overwrite]
    split
    · exact hbyte
    · rfl
  have hbyte : (p.setHasPadding hasPadding).byteAt 0 &&& 0x0F = p.byteAt 0 &&& 0x0F := by
    cases hasPadding
    · exact hwritten _ (hbits _).2
    · exact hwritten _ (hbits _).1
  exact congrArg UInt8.toNat hbyte

theorem Placed.setHasPadding (h : p.Placed) (hasPadding : Bool) :
    (p.setHasPadding hasPadding).Placed := by
  have hsound : Sound { p with hasPadding := hasPadding } :=
    ⟨h.fixed, h.headerSize_le, h.length_le⟩
  exact h.of_same (hsound.writeAt 0 _) (p.numCsrc_setHasPadding hasPadding) rfl rfl

theorem Placed.writeHeader (h : p.Placed) (marker : Bool) (payloadType : UInt8) (sequenceNum : U16)
    (timestamp ssrc : U32) {offset : Nat} (hoffset : 0 < offset) (data : List UInt8) :
    (RtpPacket.writeAt { p with
      marker := marker, payloadType := payloadType, sequenceNum := sequenceNum
      timestamp := timestamp, ssrc := ssrc } offset data).Placed :=
  have hplaced : Placed { p with
      marker := marker, payloadType := payloadType, sequenceNum := sequenceNum
      timestamp := timestamp, ssrc := ssrc } :=
    ⟨⟨h.fixed, h.headerSize_le, h.length_le⟩, h.entries⟩
  hplaced.writeAt hoffset data

theorem Placed.setMarker (h : p.Placed) (marker : Bool) : (p.setMarker marker).Placed :=
  h.writeHeader marker p.payloadType p.sequenceNum p.timestamp p.ssrc Nat.one_pos _

theorem Placed.setPayloadType (h : p.Placed) (payloadType : UInt8) :
    (p.setPayloadType payloadType).Placed :=
  h.writeHeader p.marker payloadType p.sequenceNum p.timestamp p.ssrc Nat.one_pos _

theorem Placed.setSequenceNumber (h : p.Placed) (sequenceNum : U16) :
    (p.setSequenceNumber sequenceNum).Placed :=
  h.writeHeader p.marker p.payloadType sequenceNum p.timestamp p.ssrc Nat.two_pos _

theorem Placed.setTimestamp (h : p.Placed) (timestamp : U32) : (p.setTimestamp timestamp).Placed :=
  h.writeHeader p.marker p.payloadType p.sequenceNum timestamp p.ssrc (Nat.succ_pos 3) _

theorem Placed.setSsrc (h : p.Placed) (ssrc : U32) : (p.setSsrc ssrc).Placed :=
  h.writeHeader p.marker p.payloadType p.sequenceNum p.timestamp ssrc (Nat.succ_pos 7) _

section Growth

variable {growTo : Nat → Nat → Nat}

section

variable (hgrow : ∀ c n, n ≤ growTo c n)
include hgrow

theorem Sound.resize (h : p.Sound) {n : Nat}
    (hn : p.payloadOffset ≤ n) : (p.resize growTo n).Sound where
  fixed := h.fixed
  headerSize_le := by
    rw [bytes_resize, length_resized]
    exact hn
  length_le := by
    rw [bytes_resize, length_resized]
    exact (le_capacity_resize hgrow n).1

theorem Placed.resize (h : p.Placed) {n : Nat}
    (hn : p.payloadOffset ≤ n) : (p.resize growTo n).Placed := by
  refine h.of_same (h.toSound.resize hgrow hn) (numCsrc_congr ?_) rfl rfl
  have hfixed : 12 ≤ p.payloadOffset := h.fixed
  rw [bytes_resize, getD_resized, if_pos (by omega)]

/-! ## The setters -/

theorem Placed.setPayloadSize (h : p.Placed) (size : Nat) :
    (p.setPayloadSize growTo size).1.Placed := by
  unfold RtpPacket.setPayloadSize
  split
  · exact h
  split
  · exact h
  · have hplaced : Placed { p with payloadSize := size } :=
      ⟨⟨h.fixed, h.headerSize_le, h.length_le⟩, h.entries⟩
    exact hplaced.resize hgrow (Nat.le_add_right _ _)

theorem Placed.setPadding (h : p.Placed) (paddingSize : UInt8) :
    (p.setPadding growTo paddingSize).Placed := by
  unfold RtpPacket.setPadding
  split
  · exact h
  · have hplaced : Placed { p with paddingSize := paddingSize } :=
      ⟨⟨h.fixed, h.headerSize_le, h.length_le⟩, h.entries⟩
    have hresized := hplaced.resize (n := p.payloadOffset + p.payloadSize + paddingSize.toNat) hgrow
      (Nat.le_trans (Nat.le_add_right _ _) (Nat.le_add_right _ _))
    have hfixed : 12 ≤ p.payloadOffset := h.fixed
    split
    · rename_i hpos
      have hpos : 0 < paddingSize.toNat := hpos
      refine ((hresized.writeAt ?_ _).writeAt ?_ _).setHasPadding true
      · show 0 < p.payloadOffset + p.payloadSize
        omega
      · show 0 < p.payloadOffset + p.payloadSize + paddingSize.toNat - 1
        omega
    · exact hresized.setHasPadding false

theorem Placed.setPayload (h : p.Placed) (payload : List UInt8) :
    (p.setPayload growTo payload).Placed := by
  have hplaced : Placed { p with payloadSize := payload.length } :=
    ⟨⟨h.fixed, h.headerSize_le, h.length_le⟩, h.entries⟩
  have hresized := hplaced.resize (n := p.payloadOffset + payload.length) hgrow
    (Nat.le_add_right _ _)
  have hfixed : 12 ≤ p.payloadOffset := h.fixed
  unfold RtpPacket.setPayload
  generalize hr : RtpPacket.resize growTo { p with payloadSize := payload.length }
    (p.payloadOffset + payload.length) = r at hresized ⊢
  have hoffset : r.payloadOffset = p.payloadOffset := by rw [← hr]; rfl
  have hlength := hresized.headerSize_le
  let inserted := r.bytes.take r.payloadOffset ++ payload ++ r.bytes.drop r.payloadOffset
  have hinserted : inserted.length = r.bytes.length + payload.length := by
    simp only [inserted, List.length_append, List.length_take, List.length_drop]
    omega
  have hcapacity : inserted.length ≤ (r.buffer.setBytes growTo inserted).capacity := by
    unfold BinaryBuffer.setBytes
    split
    · assumption
    · exact hgrow _ _
  refine hresized.of_same ⟨hresized.fixed, ?_, hcapacity⟩ (numCsrc_congr ?_) rfl rfl
  · show r.payloadOffset ≤ inserted.length
    omega
  · show inserted.getD 0 0 = _
    simp only [inserted]
    rw [List.append_assoc, List.getD_append _ _ _ _ (by rw [List.length_take]; omega),
      List.getD_eq_getElem _ _ (by rw [List.length_take]; omega), List.getElem_take,
      List.getD_eq_getElem _ _ (by omega)]

end

theorem Sound.writeCsrcs (h : p.Sound) (offset : Nat) (csrcs : List U32) :
    (p.writeCsrcs offset csrcs).Sound ∧
      (p.writeCsrcs offset csrcs).extensionEntries = p.extensionEntries := by
  induction csrcs generalizing p offset with
  | nil => exact ⟨h, rfl⟩
  | cons csrc csrcs ih => exact ih (h.writeAt offset _) (offset + 4)

theorem Placed.setCsrcs (hgrow : ∀ c n, n ≤ growTo c n) (h : p.Placed) {csrcs : List U32}
    (hempty : p.extensionsSize = 0) : (p.setCsrcs growTo csrcs).Placed := by
  have hnone : p.extensionEntries = [] := by
    rw [← List.reverse_eq_nil_iff]
    refine List.eq_nil_iff_forall_not_mem.2 fun entry hentry => ?_
    have hbounds := h.entries.bounds hentry
    omega
  let payloadOffset := kFixedHeaderSize + 4 * csrcs.length
  let q := RtpPacket.resize growTo { p with payloadOffset := payloadOffset } payloadOffset
  have hsound : q.Sound := by
    refine ⟨Nat.le_add_right _ _, Nat.le_of_eq (length_resized _ _).symm, ?_⟩
    show (resized _ _).length ≤ _
    rw [length_resized]
    exact (le_capacity_resize hgrow _).1
  obtain ⟨hwritten, hentries⟩ := (hsound.writeAt 0
    [(q.byteAt 0 &&& 0xF0) ||| UInt8.ofNat csrcs.length]).writeCsrcs kFixedHeaderSize csrcs
  exact .of_nil hwritten (hentries.trans hnone)

/-! ## Allocating -/

/-- The extensions end within 16 bits when the new one is written down. -/
def EndsWithin16 (p : RtpPacket) (id size : Nat) : Prop :=
  p.AsksForNew id size → ¬ p.Refuses id size → p.extensionsOffset + p.grownSize id size < 2 ^ 16

theorem Placed.allocateRawExtension (hgrow : ∀ c n, n ≤ growTo c n) (h : p.Placed) {id size : Nat}
    (hends : p.EndsWithin16 id size) :
    (p.allocateRawExtension growTo id size).1.Placed ∧
      SameFields p (p.allocateRawExtension growTo id size).1 ∧
      (4 ∣ p.capacity → (p.allocateRawExtension growTo id size).1.capacity = p.capacity) ∧
      ∀ offset, (p.allocateRawExtension growTo id size).2 = some offset →
        ⟨id, size, offset⟩ ∈ (p.allocateRawExtension growTo id size).1.extensionEntries := by
  by_cases hasks : p.AsksForNew id size
  · by_cases hrefuses : p.Refuses id size
    · obtain ⟨hplaced, -, hcapacity, -⟩ := @Placed.resize_capacity growTo p h
      rw [allocateRawExtension_refused h hasks hrefuses]
      exact ⟨hplaced, ⟨rfl, rfl, rfl, rfl, rfl, rfl, rfl, rfl, rfl⟩, fun _ => hcapacity,
        fun _ hnone => by cases hnone⟩
    · obtain ⟨offset, hsome, happended, -, -⟩ :=
        allocateRawExtension_appended hgrow h hasks hrefuses (hends hasks hrefuses)
      obtain ⟨entries, hentries, -⟩ := happended.entries
      refine ⟨happended.placed, happended.fields, happended.aligned, fun offset' hoffset => ?_⟩
      obtain rfl := Option.some.inj (hsome.symm.trans hoffset)
      rw [hentries]
      exact List.mem_append_right _ List.mem_cons_self
  · obtain ⟨hsame, hfound⟩ := @allocateRawExtension_same growTo p id size hasks
    rw [hsame]
    exact ⟨h, .refl p, fun _ => rfl, hfound⟩

theorem Placed.offset_pos (h : p.Placed) {entry : ExtensionInfo}
    (hentry : entry ∈ p.extensionEntries) : 0 < entry.offset :=
  Nat.lt_of_le_of_lt (Nat.zero_le _) (h.entries.bounds (List.mem_reverse.2 hentry)).1

theorem allocateExtension_cases (p : RtpPacket) (type : RtpExtensionType) (size : Nat) :
    p.allocateExtension growTo type size = (p, none) ∨
      p.allocateExtension growTo type size =
        p.allocateRawExtension growTo (p.extensionMap.getId type) size := by
  unfold RtpPacket.allocateExtension
  dsimp only
  split_ifs
  · exact Or.inl rfl
  · exact Or.inl rfl
  · exact Or.inl rfl
  · exact Or.inr rfl

section

variable (hgrow : ∀ c n, n ≤ growTo c n)
include hgrow

theorem Placed.allocateExtension (h : p.Placed) {type : RtpExtensionType} {size : Nat}
    (hends : p.EndsWithin16 (p.extensionMap.getId type) size) :
    (p.allocateExtension growTo type size).1.Placed ∧
      SameFields p (p.allocateExtension growTo type size).1 ∧
      ∀ offset, (p.allocateExtension growTo type size).2 = some offset →
        ⟨p.extensionMap.getId type, size, offset⟩ ∈
          (p.allocateExtension growTo type size).1.extensionEntries := by
  rcases @allocateExtension_cases growTo p type size with heq | heq
  · rw [heq]
    exact ⟨h, .refl p, fun _ hnone => by cases hnone⟩
  · rw [heq]
    obtain ⟨hplaced, hfields, -, hplace⟩ := h.allocateRawExtension hgrow hends
    exact ⟨hplaced, hfields, hplace⟩

theorem Placed.setExtension (h : p.Placed) {type : RtpExtensionType} {value : List UInt8}
    (hends : p.EndsWithin16 (p.extensionMap.getId type) value.length) :
    (p.setExtension growTo type value).Placed := by
  obtain ⟨hplaced, -, hplace⟩ := h.allocateExtension hgrow hends
  unfold RtpPacket.setExtension
  generalize p.allocateExtension growTo type value.length = r at hplaced hplace
  obtain ⟨q, _ | offset⟩ := r
  · exact hplaced
  · exact hplaced.writeAt (hplaced.offset_pos (hplace offset rfl)) value

/-! ## Starting anew -/

theorem Sound.reset (p : RtpPacket) : (p.reset growTo).Sound := by
  refine Sound.writeAt ⟨Nat.le_refl _, ?_, ?_⟩ 0 _
  · rw [bytes_resize, length_resized]
    exact Nat.le_refl _
  · rw [bytes_resize, length_resized]
    exact (le_capacity_resize hgrow _).1

theorem Sound.copyHeaderFrom (p : RtpPacket) {other : RtpPacket}
    (h : other.Sound) : (p.copyHeaderFrom growTo other).Sound where
  fixed := h.fixed
  headerSize_le := Nat.le_of_eq (length_readFrom _ _ _).symm
  length_le := by
    show _ ≤ (p.buffer.setBytes growTo (readFrom other.bytes 0 other.headerSize)).capacity
    unfold BinaryBuffer.setBytes
    split
    · assumption
    · exact hgrow _ _

theorem Placed.create (map : HeaderExtensionMap) (capacity : Nat) :
    (RtpPacket.create growTo map capacity).Placed := .of_nil (Sound.reset hgrow _) rfl

end

/-! ## Removing -/

theorem endsWithin16_of_capacity (h : p.capacity = kIpPacketSize) (id size : Nat) :
    p.EndsWithin16 id size := by
  intro _ hrefuses
  have hroom := (not_or.1 hrefuses).2
  rw [h] at hroom
  unfold kIpPacketSize at hroom
  omega

theorem Placed.newPacketFor (hgrow : ∀ c n, n ≤ growTo c n) (p : RtpPacket) :
    (p.newPacketFor growTo).Placed ∧ (p.newPacketFor growTo).capacity = kIpPacketSize :=
  ⟨(((((Placed.create hgrow p.extensionMap kIpPacketSize).setMarker p.marker).setPayloadType
    p.payloadType).setSequenceNumber p.sequenceNum).setTimestamp p.timestamp).setSsrc p.ssrc, rfl⟩

theorem Placed.copyExtensions (hgrow : ∀ c n, n ≤ growTo c n) (idToRemove : Nat)
    {newPacket newPacket' : RtpPacket} {exts : List ExtensionInfo} (h : newPacket.Placed)
    (hcapacity : newPacket.capacity = kIpPacketSize)
    (hcopied : p.copyExtensions growTo idToRemove newPacket exts = some newPacket') :
    newPacket'.Placed := by
  induction exts generalizing newPacket with
  | nil =>
    obtain rfl := Option.some.inj hcopied
    exact h
  | cons ext exts ih =>
    rw [RtpPacket.copyExtensions] at hcopied
    by_cases hid : ext.id = idToRemove
    · rw [if_pos hid] at hcopied
      exact ih h hcapacity hcopied
    · rw [if_neg hid] at hcopied
      obtain ⟨hplaced, -, haligned, hplace⟩ := h.allocateRawExtension hgrow
        (endsWithin16_of_capacity hcapacity ext.id ext.size)
      have hkept := (haligned (by rw [hcapacity]; decide)).trans hcapacity
      generalize newPacket.allocateRawExtension growTo ext.id ext.size = r
        at hplaced hplace hkept hcopied
      obtain ⟨q, _ | offset⟩ := r
      · dsimp only at hcopied
        split at hcopied
        · exact ih hplaced hkept hcopied
        · cases hcopied
      · exact ih (hplaced.writeAt (hplaced.offset_pos (hplace offset rfl)) _) hkept hcopied

theorem Placed.removeExtension (hgrow : ∀ c n, n ≤ growTo c n) (h : p.Placed)
    (type : RtpExtensionType) : (p.removeExtension growTo type).1.Placed := by
  obtain ⟨hplaced, hcapacity⟩ := Placed.newPacketFor hgrow p
  unfold RtpPacket.removeExtension
  dsimp only
  split
  · exact h
  · cases hcopied : p.copyExtensions growTo (p.extensionMap.getId type) (p.newPacketFor growTo)
      p.extensionEntries with
    | none => exact h
    | some newPacket =>
      have hnew := hplaced.copyExtensions hgrow _ hcapacity hcopied
      dsimp only
      split
      · exact h
      · have hpayload := (hnew.setPayloadSize hgrow 0).setPayloadSize hgrow p.payloadSize
        refine Placed.setPadding hgrow ?_ p.paddingSize
        split
        · refine hpayload.writeAt ?_ p.payload
          exact Nat.lt_of_lt_of_le (Nat.succ_pos 11)
            (Nat.le_trans hpayload.fixed (Nat.le_add_right _ _))
        · exact hpayload

/-! ## Parsing -/

/-- The identifiers that the loop of `ParseInternal` comes to, as often as they are there. -/
def identifiers (oneByte : Bool) (buffer : List UInt8) (extensionOffset extensionCapacity : Nat) :
    Nat → Nat → List Nat
  | 0, _ => []
  | fuel + 1, extensionsSize =>
    let headerLength :=
      if oneByte then kOneByteExtensionHeaderSize else kTwoByteExtensionHeaderSize
    if extensionsSize + headerLength < extensionCapacity then
      if buffer.getD (extensionOffset + extensionsSize) 0 = 0 then
        identifiers oneByte buffer extensionOffset extensionCapacity fuel (extensionsSize + 1)
      else
        match parseExtensionHeader oneByte buffer (extensionOffset + extensionsSize) with
        | none => []
        | some (id, length) =>
          if extensionCapacity < extensionsSize + headerLength + length then []
          else if 65535 < extensionOffset + extensionsSize + headerLength then []
          else id :: identifiers oneByte buffer extensionOffset extensionCapacity fuel
            (extensionsSize + headerLength + length)
    else []

/-- The identifiers in the bytes. -/
def identifiersIn (buffer : List UInt8) : List Nat :=
  if extensionsRead buffer then
    identifiers (decide (profileIn buffer = kOneByteExtensionProfileId)) buffer
      (csrcsEnd buffer + 4) (capacityIn buffer) (capacityIn buffer) 0
  else []

theorem setExtensionInfo_of_notMem {info : ExtensionInfo} {infos : List ExtensionInfo}
    (h : info.id ∉ infos.map ExtensionInfo.id) : setExtensionInfo info infos = infos ++ [info] := by
  induction infos with
  | nil => rfl
  | cons entry infos ih =>
    rw [List.map_cons, List.mem_cons, not_or] at h
    rw [setExtensionInfo, if_neg (Ne.symm h.1), ih h.2]
    rfl

theorem parseExtensions_descends {oneByte : Bool} {buffer : List UInt8} {start capacity fuel : Nat}
    {size : Nat} {entries : List ExtensionInfo} (h : Descends start (start + size) entries.reverse)
    (hnodup : (entries.map (·.id) ++
      identifiers oneByte buffer start capacity fuel size).Nodup) :
    Descends start (start + (parseExtensions oneByte buffer start capacity fuel size entries).1)
      (parseExtensions oneByte buffer start capacity fuel size entries).2.reverse := by
  induction fuel generalizing size entries with
  | zero => exact h
  | succ fuel ih =>
    rw [identifiers] at hnodup
    rw [parseExtensions]
    have hpos : 1 ≤ (if oneByte = true then kOneByteExtensionHeaderSize
        else kTwoByteExtensionHeaderSize) := by
      split <;> decide
    generalize (if oneByte = true then kOneByteExtensionHeaderSize
      else kTwoByteExtensionHeaderSize) = headerLength at hpos hnodup ⊢
    by_cases hlt : size + headerLength < capacity
    · rw [if_pos hlt] at hnodup ⊢
      by_cases hzero : buffer.getD (start + size) 0 = 0
      · rw [if_pos hzero] at hnodup ⊢
        exact ih (h.mono (by omega)) hnodup
      · rw [if_neg hzero] at hnodup ⊢
        cases hheader : parseExtensionHeader oneByte buffer (start + size) with
        | none => exact h
        | some e =>
          rw [hheader] at hnodup
          dsimp only at hnodup ⊢
          by_cases hcapacity : capacity < size + headerLength + e.2
          · rw [if_pos hcapacity]
            exact h
          by_cases hoffset : 65535 < start + size + headerLength
          · rw [if_neg hcapacity, if_pos hoffset]
            exact h
          rw [if_neg hcapacity, if_neg hoffset] at hnodup ⊢
          have hnew : e.1 ∉ entries.map (·.id) := by
            intro hmem
            exact (List.nodup_append.1 hnodup).2.2 _ hmem _ List.mem_cons_self rfl
          rw [setExtensionInfo_of_notMem hnew]
          refine ih ?_ ?_
          · rw [List.reverse_append, List.reverse_singleton]
            refine ⟨?_, ?_, h.mono ?_⟩
            · dsimp only
              omega
            · dsimp only
              omega
            · dsimp only
              omega
          · rw [List.map_append, List.append_assoc]
            exact hnodup
    · rw [if_neg hlt]
      exact h

/-- Buffers are vectors. -/
def ParseInput.Valid : ParseInput → Prop
  | .array _ => True
  | .shared buffer => buffer.bytes.length ≤ buffer.capacity

section

variable (hgrow : ∀ c n, n ≤ growTo c n)
include hgrow

theorem parseFrom_capacity (p : RtpPacket) {input : ParseInput}
    (hvalid : input.Valid) {q : RtpPacket} (h : p.parseFrom growTo input = (q, true)) :
    input.bytes.length ≤ q.capacity := by
  cases input with
  | array bytes =>
    rw [RtpPacket.parseFrom, RtpPacket.parse] at h
    split at h
    · cases h
    · generalize p.parseInternal bytes = r at h
      obtain ⟨p', _ | _⟩ := r
      · cases h
      · obtain rfl := (Prod.ext_iff.1 h).1
        show bytes.length ≤ (p'.buffer.setBytes growTo bytes).capacity
        unfold BinaryBuffer.setBytes
        split
        · assumption
        · exact hgrow _ _
  | shared buffer =>
    rw [RtpPacket.parseFrom, RtpPacket.parseBuffer] at h
    generalize p.parseInternal buffer.bytes = r at h
    obtain ⟨p', _ | _⟩ := r
    · cases h
    · obtain rfl := (Prod.ext_iff.1 h).1
      exact hvalid

/-- **The condition on what is parsed**: the packet has no extensions yet, the bytes are accepted,
and no identifier is in them twice.  Bytes without extensions need not be accepted. -/
def ParsesApart (p : RtpPacket) (input : ParseInput) : Prop :=
  input.Valid ∧ (input.tooLarge ∨ p.extensionEntries = [] ∧
    (extensionsIn input.bytes = [] ∨
      wellFormed input.bytes ∧ (identifiersIn input.bytes).Nodup))

theorem Placed.parseFrom (h : p.Placed) {input : ParseInput}
    (hparses : p.ParsesApart input) : (p.parseFrom growTo input).1.Placed := by
  obtain ⟨hvalid, hrest⟩ := hparses
  by_cases hlarge : input.tooLarge
  · rw [parseFrom_of_tooLarge growTo p hlarge]
    exact h
  obtain ⟨hnone, hbytes⟩ := hrest.resolve_left hlarge
  by_cases hwell : wellFormed input.bytes
  · obtain ⟨c, heq⟩ := parseFrom_of_wellFormed growTo p hlarge hwell
    have hcapacity := parseFrom_capacity hgrow p hvalid heq
    have hstart := payloadStart_le hwell.1 hwell.2.1
    have hcsrcs : kFixedHeaderSize ≤ csrcsEnd input.bytes := Nat.le_add_right _ _
    have hfixed : kFixedHeaderSize ≤ payloadStart input.bytes := by
      unfold payloadStart
      split <;> omega
    have hplaces : Descends (csrcsEnd input.bytes + 4)
        (csrcsEnd input.bytes + 4 + extensionsSizeIn input.bytes p.extensionEntries)
        (addExtensions input.bytes p.extensionEntries).reverse := by
      rw [hnone]
      rcases hbytes with hempty | ⟨-, hnodup⟩
      · unfold extensionsIn at hempty
        rw [hempty]
        trivial
      · unfold addExtensions extensionsSizeIn
        unfold identifiersIn at hnodup
        by_cases hread : extensionsRead input.bytes
        · rw [if_pos hread] at hnodup
          rw [if_pos hread, if_pos hread]
          exact parseExtensions_descends trivial hnodup
        · rw [if_neg hread, if_neg hread]
          trivial
    rw [heq]
    exact ⟨⟨hfixed, hstart, hcapacity⟩, hplaces⟩
  · have hempty := hbytes.resolve_right fun hwell' => hwell hwell'.1
    obtain ⟨p', heq, -, hentries, -⟩ := parseFrom_of_not_wellFormed growTo p hlarge hwell
    rw [heq]
    refine .of_nil (Sound.reset hgrow p') (hentries.trans ?_)
    rw [hnone]
    exact hempty

/-! ## Runs -/

/-- A public operation of a packet. -/
inductive Op
  | call (c : Call)
  | setHasPadding (hasPadding : Bool)
  | reset
  | parse (input : ParseInput)
  | copyHeaderFrom (other : RtpPacket)
  | setHeaderExtensionMap (extensionMap : HeaderExtensionMap)
  | removeExtension (type : RtpExtensionType)

/-- The packet after an operation; what fails an assertion is not done. -/
def apply (p : RtpPacket) (growTo : Nat → Nat → Nat) : Op → RtpPacket
  | .call c => if p.asserts c then p.call growTo c else p
  | .setHasPadding hasPadding => p.setHasPadding hasPadding
  | .reset => p.reset growTo
  | .parse input => (p.parseFrom growTo input).1
  | .copyHeaderFrom other => p.copyHeaderFrom growTo other
  | .setHeaderExtensionMap extensionMap => p.setHeaderExtensionMap extensionMap
  | .removeExtension type => (p.removeExtension growTo type).1

/-- **The condition on an operation**: what starts the packet anew finds no extensions in it, what
is parsed has no identifier twice, and extensions end within 16 bits. -/
def Keeps (p : RtpPacket) : Op → Prop
  | .call (.allocateExtension type size) => p.EndsWithin16 (p.extensionMap.getId type) size
  | .call (.setExtension type value) => p.EndsWithin16 (p.extensionMap.getId type) value.length
  | .reset => p.extensionEntries = []
  | .parse input => p.ParsesApart input
  | .copyHeaderFrom other => p.extensionEntries = [] ∧ other.Sound
  | _ => True

theorem Placed.call (h : p.Placed) {c : Call}
    (hasserts : p.asserts c = true) (hkeeps : p.Keeps (.call c)) : (p.call growTo c).Placed := by
  cases c with
  | setMarker marker => exact h.setMarker marker
  | setPayloadType payloadType => exact h.setPayloadType payloadType
  | setSequenceNumber sequenceNum => exact h.setSequenceNumber sequenceNum
  | setTimestamp timestamp => exact h.setTimestamp timestamp
  | setSsrc ssrc => exact h.setSsrc ssrc
  | setCsrcs csrcs => exact h.setCsrcs hgrow (of_decide_eq_true hasserts).1
  | allocateExtension type size => exact (h.allocateExtension hgrow hkeeps).1
  | setExtension type value => exact h.setExtension hgrow hkeeps
  | allocatePayload size => exact (h.setPayloadSize hgrow 0).setPayloadSize hgrow size
  | setPayloadSize size => exact h.setPayloadSize hgrow size
  | writePayload offset data =>
    refine h.writeAt ?_ data
    exact Nat.lt_of_lt_of_le (Nat.succ_pos 11) (Nat.le_trans h.fixed (Nat.le_add_right _ _))
  | setPayload payload => exact h.setPayload hgrow payload
  | setPadding paddingSize => exact h.setPadding hgrow paddingSize

theorem Placed.apply (h : p.Placed) {op : Op}
    (hkeeps : p.Keeps op) : (p.apply growTo op).Placed := by
  cases op with
  | call c =>
    unfold RtpPacket.apply
    dsimp only
    split
    · exact h.call hgrow ‹_› hkeeps
    · exact h
  | setHasPadding hasPadding => exact h.setHasPadding hasPadding
  | reset => exact .of_nil (Sound.reset hgrow p) hkeeps
  | parse input => exact h.parseFrom hgrow hkeeps
  | copyHeaderFrom other => exact .of_nil (Sound.copyHeaderFrom hgrow p hkeeps.2) hkeeps.1
  | setHeaderExtensionMap extensionMap =>
    exact ⟨⟨h.fixed, h.headerSize_le, h.length_le⟩, h.entries⟩
  | removeExtension type => exact h.removeExtension hgrow type

end

end Growth

/-- A packet driven by its operations. -/
def packetMachine (growTo : Nat → Nat → Nat) : Machine RtpPacket Op Unit where
  step p op := (p.apply growTo op, ())

/-- When the allocation failed, the buffer and what the getters show are as before; when it
succeeded, the kept extensions, by identifier, show what they showed. -/
structure AllocatesAtomically (p : RtpPacket) (kept : Nat → Prop) (r : RtpPacket × Option Nat) :
    Prop where
  failed : r.2 = none → r.1.bytes = p.bytes ∧ ObservablyEqual r.1 p
  succeeded : r.2 ≠ none → ∀ id, kept id → ∀ value,
    shown p.bytes id p.extensionEntries = some value →
      shown r.1.bytes id r.1.extensionEntries = some value

/-- The checks of `AllocateExtension`. -/
def RejectsType (p : RtpPacket) (type : RtpExtensionType) (size : Nat) : Prop :=
  (size = 0 ∨ RtpExtension.kMaxValueSize < size ∨ (!p.extensionMap.extmapAllowMixed ∧
    RtpExtension.kOneByteHeaderExtensionMaxValueSize < size)) ∨
  p.extensionMap.getId type = RtpExtension.kInvalidId ∨
  (!p.extensionMap.extmapAllowMixed ∧
    RtpExtension.kOneByteHeaderExtensionMaxId < p.extensionMap.getId type)

theorem ObservablyEqual.refl (p : RtpPacket) : ObservablyEqual p p :=
  ⟨rfl, rfl, rfl, rfl, rfl, rfl, rfl, rfl, rfl, rfl, rfl, fun _ => rfl, fun _ => rfl⟩

theorem AllocatesAtomically.same {kept : Nat → Prop} {r : RtpPacket × Option Nat}
    (h : r.1 = p) : AllocatesAtomically p kept r where
  failed _ := by
    rw [h]
    exact ⟨rfl, .refl p⟩
  succeeded _ id _ value hshown := by
    rw [h]
    exact hshown

section Growth

variable {growTo : Nat → Nat → Nat}

theorem allocateExtension_eq (p : RtpPacket) {type : RtpExtensionType} {size : Nat} :
    (p.RejectsType type size → p.allocateExtension growTo type size = (p, none)) ∧
      (¬ p.RejectsType type size → p.allocateExtension growTo type size =
        p.allocateRawExtension growTo (p.extensionMap.getId type) size) := by
  unfold RejectsType RtpPacket.allocateExtension
  dsimp only
  split_ifs with hsize hid hmixed
  · exact ⟨fun _ => rfl, fun h => absurd (Or.inl hsize) h⟩
  · exact ⟨fun _ => rfl, fun h => absurd (Or.inr (Or.inl hid)) h⟩
  · exact ⟨fun _ => rfl, fun h => absurd (Or.inr (Or.inr hmixed)) h⟩
  · refine ⟨fun h => ?_, fun _ => rfl⟩
    rcases h with h | h | h
    · exact absurd h hsize
    · exact absurd h hid
    · exact absurd h hmixed

end Growth

/-! ## Allocations that are not atomic -/

/-- A vector that grows as far as it must. -/
def growExactly (_ size : Nat) : Nat := size

end RtpPacket

end NaiveRtc.Rtp
