import NaiveRtc.Rtp.RtpPacket

/-!
# RTP packets that are parsed into again

What `Parse` leaves of the packet that was there before.  All fields are written anew, but the
entries of the extensions are only added to, a reset does not clear them, and `has_padding_` is
not reset either.

* `ObservablyEqual`, `Indistinguishable` — two packets that no getter tells apart, and where none
  reads stale bytes.
* `Forgets` — the outcome does not depend on the packet, and after a failure it looks new.
* `Clean`, `forgets_iff` — **the exact condition on the packets and the bytes**.
-/

namespace NaiveRtc.Rtp

open ByteIo CopyOnWrite Overwrite

namespace RtpPacket

/-- The value lies in the bytes.  Behind their end, up to the capacity, are stale bytes. -/
def Inside (bytes : List UInt8) (info : ExtensionInfo) : Prop :=
  info.size = 0 ∨ info.offset + info.size ≤ bytes.length

/-- `FindExtension(type)` reads no stale bytes. -/
def ReadsInside (p : RtpPacket) (type : RtpExtensionType) : Prop :=
  p.extensionMap.getId type ≠ RtpExtension.kInvalidId →
    ∀ info ∈ p.findExtensionInfo (p.extensionMap.getId type), Inside p.bytes info

/-- No getter tells the packets apart. -/
structure ObservablyEqual (p q : RtpPacket) : Prop where
  hasPadding : p.hasPadding = q.hasPadding
  marker : p.marker = q.marker
  payloadType : p.payloadType = q.payloadType
  paddingSize : p.paddingSize = q.paddingSize
  sequenceNum : p.sequenceNum = q.sequenceNum
  timestamp : p.timestamp = q.timestamp
  ssrc : p.ssrc = q.ssrc
  csrcs : p.csrcs = q.csrcs
  headerSize : p.headerSize = q.headerSize
  payloadSize : p.payloadSize = q.payloadSize
  payload : p.payload = q.payload
  hasExtension : ∀ type, p.hasExtension type = q.hasExtension type
  findExtension : ∀ type, p.findExtension type = q.findExtension type

/-- **No getter tells the packets apart**, whatever stale bytes there are behind their buffers. -/
structure Indistinguishable (p q : RtpPacket) : Prop extends ObservablyEqual p q where
  readsInside : ∀ type, p.ReadsInside type ∧ q.ReadsInside type

/-- The argument of `Parse`, by overload. -/
inductive ParseInput
  | array (bytes : List UInt8)
  | shared (buffer : BinaryBuffer)

/-- The bytes that are parsed. -/
def ParseInput.bytes : ParseInput → List UInt8
  | .array bytes => bytes
  | .shared buffer => buffer.bytes

/-- An array longer than any packet is not looked at. -/
def ParseInput.tooLarge : ParseInput → Prop
  | .array bytes => kIpPacketSize < bytes.length
  | .shared _ => False

instance : (input : ParseInput) → Decidable input.tooLarge
  | .array _ => inferInstanceAs (Decidable (_ < _))
  | .shared _ => inferInstanceAs (Decidable False)

section Growth

variable (growTo : Nat → Nat → Nat)

/-- `Parse`, by overload. -/
def parseFrom (p : RtpPacket) : ParseInput → RtpPacket × Bool
  | .array bytes => p.parse growTo bytes
  | .shared buffer => p.parseBuffer growTo buffer

/-- A new packet; `has_padding_` has the value that the memory had. -/
def fresh (map : HeaderExtensionMap) (uninitialized : Bool) : RtpPacket :=
  { create growTo map kIpPacketSize with hasPadding := uninitialized }

/-- **The outcome does not depend on the packet**, and after a failure it looks new. -/
def Forgets (uninitialized : Bool) (p q : RtpPacket) (input : ParseInput) : Prop :=
  (p.parseFrom growTo input).2 = (q.parseFrom growTo input).2 ∧
    Indistinguishable (p.parseFrom growTo input).1 (q.parseFrom growTo input).1 ∧
    ((p.parseFrom growTo input).2 = false →
      Indistinguishable (p.parseFrom growTo input).1 (fresh growTo p.extensionMap uninitialized) ∧
        Indistinguishable (q.parseFrom growTo input).1 (fresh growTo q.extensionMap uninitialized))

end Growth

/-! ## What the bytes decide -/

/-- Where the bytes behind the CSRCs begin. -/
def csrcsEnd (buffer : List UInt8) : Nat :=
  kFixedHeaderSize + (buffer.getD 0 0 &&& 0x0F).toNat * 4

/-- The fixed header and the CSRCs are there. -/
def headerRead (buffer : List UInt8) : Prop :=
  kFixedHeaderSize ≤ buffer.length ∧ buffer.getD 0 0 >>> 6 = kRtpVersion ∧
    csrcsEnd buffer ≤ buffer.length

instance (buffer : List UInt8) : Decidable (headerRead buffer) :=
  inferInstanceAs (Decidable (_ ∧ _ ∧ _))

/-- The padding bit. -/
def paddingBit (buffer : List UInt8) : Bool := decide (buffer.getD 0 0 &&& 0x20 ≠ 0)

/-- The extension bit. -/
def extensionBit (buffer : List UInt8) : Bool := decide (buffer.getD 0 0 &&& 0x10 ≠ 0)

/-- The profile of the extensions. -/
def profileIn (buffer : List UInt8) : Nat := readBigEndian 2 (buffer.drop (csrcsEnd buffer))

/-- The size of the extensions. -/
def capacityIn (buffer : List UInt8) : Nat :=
  readBigEndian 2 (buffer.drop (csrcsEnd buffer + 2)) * 4

/-- The extensions are there, where the bit says so. -/
def extensionsFit (buffer : List UInt8) : Prop :=
  extensionBit buffer = true → csrcsEnd buffer + 4 ≤ buffer.length ∧
    csrcsEnd buffer + 4 + capacityIn buffer ≤ buffer.length

instance (buffer : List UInt8) : Decidable (extensionsFit buffer) :=
  inferInstanceAs (Decidable (_ → _))

/-- Where the payload begins. -/
def payloadStart (buffer : List UInt8) : Nat :=
  if extensionBit buffer then csrcsEnd buffer + 4 + capacityIn buffer else csrcsEnd buffer

/-- The size of the padding. -/
def paddingIn (buffer : List UInt8) : UInt8 :=
  if paddingBit buffer = true ∧ payloadStart buffer < buffer.length then
    buffer.getD (buffer.length - 1) 0
  else 0

/-- The padding is there, where the bit says so. -/
def paddingFits (buffer : List UInt8) : Prop :=
  paddingBit buffer = true → payloadStart buffer < buffer.length →
    paddingIn buffer ≠ 0 ∧ payloadStart buffer + (paddingIn buffer).toNat ≤ buffer.length

instance (buffer : List UInt8) : Decidable (paddingFits buffer) :=
  inferInstanceAs (Decidable (_ → _ → _))

/-- **The bytes are a packet.** -/
def wellFormed (buffer : List UInt8) : Prop :=
  headerRead buffer ∧ extensionsFit buffer ∧ paddingFits buffer

instance (buffer : List UInt8) : Decidable (wellFormed buffer) :=
  inferInstanceAs (Decidable (_ ∧ _ ∧ _))

/-- The profile is not one of the two. -/
def profileUnsupported (buffer : List UInt8) : Prop :=
  profileIn buffer ≠ kOneByteExtensionProfileId ∧
    profileIn buffer &&& kTwoByteExtensionProfileIdAppBitsFilter ≠ kTwoByteExtensionProfileId

instance (buffer : List UInt8) : Decidable (profileUnsupported buffer) :=
  inferInstanceAs (Decidable (_ ∧ _))

/-- The loop over the extensions, with what it starts from. -/
def extensionLoop (buffer : List UInt8) (entries : List ExtensionInfo) :
    Nat × List ExtensionInfo :=
  parseExtensions (decide (profileIn buffer = kOneByteExtensionProfileId)) buffer
    (csrcsEnd buffer + 4) (capacityIn buffer) (capacityIn buffer) 0 entries

/-- The extensions are looked at. -/
def extensionsRead (buffer : List UInt8) : Prop :=
  headerRead buffer ∧ extensionBit buffer = true ∧ extensionsFit buffer ∧
    ¬ profileUnsupported buffer

instance (buffer : List UInt8) : Decidable (extensionsRead buffer) :=
  inferInstanceAs (Decidable (_ ∧ _ ∧ _ ∧ _))

/-- The entries, after the extensions in the bytes are put into them. -/
def addExtensions (buffer : List UInt8) (entries : List ExtensionInfo) : List ExtensionInfo :=
  if extensionsRead buffer then (extensionLoop buffer entries).2 else entries

/-- The size of the extensions that were read. -/
def extensionsSizeIn (buffer : List UInt8) (entries : List ExtensionInfo) : Nat :=
  if extensionsRead buffer then (extensionLoop buffer entries).1 else 0

/-- **The extensions in the bytes.** -/
def extensionsIn (buffer : List UInt8) : List ExtensionInfo := addExtensions buffer []

/-! ## Parsing into a packet -/

variable {p q : RtpPacket} {buffer : List UInt8}

theorem parsePadding_eq (hstart : p.payloadOffset = payloadStart buffer)
    (hle : payloadStart buffer ≤ buffer.length) (hfits : paddingFits buffer) :
    p.parsePadding buffer (paddingBit buffer) =
      ({ p with
        paddingSize := paddingIn buffer
        payloadSize := buffer.length - payloadStart buffer - (paddingIn buffer).toNat }, true) := by
  unfold parsePadding
  rw [hstart]
  by_cases h : paddingBit buffer = true ∧ payloadStart buffer < buffer.length
  · obtain ⟨hne, hend⟩ := hfits h.1 h.2
    have heq : paddingIn buffer = buffer.getD (buffer.length - 1) 0 := if_pos h
    rw [heq] at hne hend ⊢
    rw [if_pos h]
    dsimp only
    rw [if_neg hne, if_neg (by omega)]
  · have heq : paddingIn buffer = 0 := if_neg h
    rw [if_neg h, heq]
    dsimp only
    rw [if_neg (by omega)]
    rfl

theorem parsePadding_rest (hasPadding : Bool) :
    (p.parsePadding buffer hasPadding).1.extensionEntries = p.extensionEntries ∧
      (p.parsePadding buffer hasPadding).1.extensionMap = p.extensionMap ∧
      (p.parsePadding buffer hasPadding).1.buffer = p.buffer ∧
      (p.parsePadding buffer hasPadding).1.hasPadding = p.hasPadding := by
  unfold parsePadding
  dsimp only
  split_ifs <;> exact ⟨rfl, rfl, rfl, rfl⟩

theorem parsePadding_fails (hstart : p.payloadOffset = payloadStart buffer)
    (hfits : ¬ paddingFits buffer) : (p.parsePadding buffer (paddingBit buffer)).2 = false := by
  unfold paddingFits at hfits
  push Not at hfits
  obtain ⟨hbit, hlt, hbad⟩ := hfits
  have heq : paddingIn buffer = buffer.getD (buffer.length - 1) 0 := if_pos ⟨hbit, hlt⟩
  unfold parsePadding
  rw [hstart, if_pos ⟨hbit, hlt⟩, ← heq]
  dsimp only
  by_cases hzero : paddingIn buffer = 0
  · rw [if_pos hzero]
  · rw [if_neg hzero, if_pos (hbad hzero)]

/-- What the fixed header and the CSRCs make of a packet, before its extensions are looked at. -/
def withHeader (p : RtpPacket) (buffer : List UInt8) : RtpPacket :=
  { p with
    hasPadding := paddingBit buffer
    marker := decide (buffer.getD 1 0 &&& 0x80 ≠ 0)
    payloadType := buffer.getD 1 0 &&& 0x7F
    sequenceNum := BitVec.ofNat 16 (readBigEndian 2 (buffer.drop 2))
    timestamp := BitVec.ofNat 32 (readBigEndian 4 (buffer.drop 4))
    ssrc := BitVec.ofNat 32 (readBigEndian 4 (buffer.drop 8))
    payloadOffset := csrcsEnd buffer
    extensionsSize := 0 }

/-- The header and the entries of the extensions. -/
def withExtensions (p : RtpPacket) (buffer : List UInt8) (extensionsSize : Nat) : RtpPacket :=
  { p.withHeader buffer with
    payloadOffset := payloadStart buffer
    extensionsSize := extensionsSize
    extensionEntries := addExtensions buffer p.extensionEntries }

theorem parseInternal_eq (p : RtpPacket) (buffer : List UInt8) :
    p.parseInternal buffer =
      if buffer.length < kFixedHeaderSize then (p, false)
      else if buffer.getD 0 0 >>> 6 ≠ kRtpVersion then (p, false)
      else if buffer.length < csrcsEnd buffer then (p, false)
      else if extensionBit buffer then
        if buffer.length < csrcsEnd buffer + 4 then (p.withHeader buffer, false)
        else if buffer.length < csrcsEnd buffer + 4 + capacityIn buffer then
          (p.withHeader buffer, false)
        else
          let p' := if profileUnsupported buffer then p.withHeader buffer
            else { p.withHeader buffer with
              extensionsSize := (extensionLoop buffer p.extensionEntries).1
              extensionEntries := (extensionLoop buffer p.extensionEntries).2 }
          { p' with payloadOffset := csrcsEnd buffer + 4 + capacityIn buffer }.parsePadding buffer
            (paddingBit buffer)
      else (p.withHeader buffer).parsePadding buffer (paddingBit buffer) := rfl

theorem parseInternal_of_not_headerRead (h : ¬ headerRead buffer) :
    p.parseInternal buffer = (p, false) := by
  rw [parseInternal_eq]
  by_cases hlen : buffer.length < kFixedHeaderSize
  · rw [if_pos hlen]
  by_cases hversion : buffer.getD 0 0 >>> 6 = kRtpVersion
  · rw [if_neg hlen, if_neg (not_not.2 hversion)]
    exact if_pos (not_le.1 fun hle => h ⟨not_lt.1 hlen, hversion, hle⟩)
  · rw [if_neg hlen, if_pos hversion]

theorem parseInternal_of_not_extensionsFit (h : headerRead buffer) (hfit : ¬ extensionsFit buffer) :
    p.parseInternal buffer = (p.withHeader buffer, false) := by
  obtain ⟨hlen, hversion, hle⟩ := h
  unfold extensionsFit at hfit
  push Not at hfit
  obtain ⟨hbit, hroom⟩ := hfit
  rw [parseInternal_eq, if_neg (not_lt.2 hlen), if_neg (not_not.2 hversion), if_neg (not_lt.2 hle),
    if_pos hbit]
  by_cases hlt : buffer.length < csrcsEnd buffer + 4
  · rw [if_pos hlt]
  · rw [if_neg hlt, if_pos (hroom (not_lt.1 hlt))]

theorem parseInternal_of_extensionsFit (p : RtpPacket) (h : headerRead buffer)
    (hfit : extensionsFit buffer) :
    p.parseInternal buffer =
      (p.withExtensions buffer (extensionsSizeIn buffer p.extensionEntries)).parsePadding buffer
        (paddingBit buffer) := by
  obtain ⟨hlen, hversion, hle⟩ := id h
  rw [parseInternal_eq, if_neg (not_lt.2 hlen), if_neg (not_not.2 hversion), if_neg (not_lt.2 hle)]
  unfold withExtensions addExtensions extensionsSizeIn payloadStart
  by_cases hbit : extensionBit buffer = true
  · obtain ⟨hroom, hend⟩ := hfit hbit
    rw [if_pos hbit, if_pos hbit, if_neg (not_lt.2 hroom), if_neg (not_lt.2 hend)]
    by_cases hprofile : profileUnsupported buffer
    · have hread : ¬ extensionsRead buffer := fun hread => hread.2.2.2 hprofile
      rw [if_pos hprofile, if_neg hread, if_neg hread]
      rfl
    · have hread : extensionsRead buffer := ⟨h, hbit, hfit, hprofile⟩
      rw [if_neg hprofile, if_pos hread, if_pos hread]
  · have hread : ¬ extensionsRead buffer := fun hread => hbit hread.2.1
    rw [if_neg hbit, if_neg hbit, if_neg hread, if_neg hread]
    rfl

theorem payloadStart_le (h : headerRead buffer) (hfit : extensionsFit buffer) :
    payloadStart buffer ≤ buffer.length := by
  unfold payloadStart
  split
  · rename_i hbit
    exact (hfit hbit).2
  · exact h.2.2

theorem parseInternal_of_wellFormed (p : RtpPacket) (h : wellFormed buffer) :
    p.parseInternal buffer =
      ({ p.withExtensions buffer (extensionsSizeIn buffer p.extensionEntries) with
        paddingSize := paddingIn buffer
        payloadSize := buffer.length - payloadStart buffer - (paddingIn buffer).toNat }, true) := by
  obtain ⟨hheader, hfit, hpadding⟩ := h
  rw [parseInternal_of_extensionsFit p hheader hfit,
    parsePadding_eq rfl (payloadStart_le hheader hfit) hpadding]

theorem parseInternal_of_not_wellFormed (p : RtpPacket) (h : ¬ wellFormed buffer) :
    (p.parseInternal buffer).2 = false ∧
      (p.parseInternal buffer).1.hasPadding =
        (if headerRead buffer then paddingBit buffer else p.hasPadding) ∧
      (p.parseInternal buffer).1.extensionEntries = addExtensions buffer p.extensionEntries ∧
      (p.parseInternal buffer).1.extensionMap = p.extensionMap := by
  by_cases hheader : headerRead buffer
  · rw [if_pos hheader]
    by_cases hfit : extensionsFit buffer
    · have hpadding : ¬ paddingFits buffer := fun hpadding => h ⟨hheader, hfit, hpadding⟩
      rw [parseInternal_of_extensionsFit p hheader hfit]
      have hrest := @parsePadding_rest
        (p.withExtensions buffer (extensionsSizeIn buffer p.extensionEntries)) buffer
        (paddingBit buffer)
      obtain ⟨hentries, hmap, -, hbit⟩ := hrest
      exact ⟨parsePadding_fails rfl hpadding, hbit, hentries, hmap⟩
    · have hread : ¬ extensionsRead buffer := fun hread => hfit hread.2.2.1
      rw [parseInternal_of_not_extensionsFit hheader hfit, addExtensions, if_neg hread]
      exact ⟨rfl, rfl, rfl, rfl⟩
  · have hread : ¬ extensionsRead buffer := fun hread => hheader hread.1
    rw [if_neg hheader, parseInternal_of_not_headerRead hheader, addExtensions, if_neg hread]
    exact ⟨rfl, rfl, rfl, rfl⟩

/-! ## Entries -/

/-- The entry of an identifier. -/
def lookup (id : Nat) (entries : List ExtensionInfo) : Option ExtensionInfo :=
  entries.find? (·.id == id)

theorem lookup_cons (id : Nat) (entry : ExtensionInfo) (entries : List ExtensionInfo) :
    lookup id (entry :: entries) = if entry.id = id then some entry else lookup id entries := by
  unfold lookup
  rw [List.find?_cons]
  by_cases h : entry.id = id
  · rw [if_pos h, beq_iff_eq.2 h]
  · rw [if_neg h, beq_eq_false_iff_ne.2 h]

theorem lookup_setExtensionInfo (id : Nat) (info : ExtensionInfo) (entries : List ExtensionInfo) :
    lookup id (setExtensionInfo info entries) =
      if info.id = id then some info else lookup id entries := by
  induction entries with
  | nil => exact lookup_cons id info []
  | cons entry entries ih =>
    rw [setExtensionInfo]
    by_cases hentry : entry.id = info.id
    · rw [if_pos hentry, lookup_cons, lookup_cons, hentry]
      split <;> rfl
    · rw [if_neg hentry, lookup_cons, lookup_cons, ih]
      by_cases h : entry.id = id
      · have hne : info.id ≠ id := fun hid => hentry (h.trans hid.symm)
        rw [if_pos h, if_neg hne, if_pos h]
      · rw [if_neg h, if_neg h]

/-- `result` shows the entries `new`, and behind them the entries `old`. -/
def Covers (new old result : List ExtensionInfo) : Prop :=
  ∀ id, lookup id result = (lookup id new).or (lookup id old)

theorem Covers.setExtensionInfo {new old result : List ExtensionInfo} (h : Covers new old result)
    (info : ExtensionInfo) :
    Covers (setExtensionInfo info new) old (setExtensionInfo info result) := by
  intro id
  rw [lookup_setExtensionInfo, lookup_setExtensionInfo, h id]
  split <;> rfl

theorem Covers.parseExtensions {new old result : List ExtensionInfo} (h : Covers new old result)
    (oneByte : Bool) (buffer : List UInt8) (offset capacity fuel size : Nat) :
    Covers (parseExtensions oneByte buffer offset capacity fuel size new).2 old
      (parseExtensions oneByte buffer offset capacity fuel size result).2 := by
  induction fuel generalizing size new result with
  | zero => exact h
  | succ fuel ih =>
    rw [RtpPacket.parseExtensions, RtpPacket.parseExtensions]
    dsimp only
    generalize (if oneByte = true then kOneByteExtensionHeaderSize
      else kTwoByteExtensionHeaderSize) = headerLength
    by_cases hlt : size + headerLength < capacity
    · rw [if_pos hlt, if_pos hlt]
      by_cases hzero : buffer.getD (offset + size) 0 = 0
      · rw [if_pos hzero, if_pos hzero]
        exact ih h _
      · rw [if_neg hzero, if_neg hzero]
        cases parseExtensionHeader oneByte buffer (offset + size) with
        | none => exact h
        | some e =>
          dsimp only
          split
          · exact h
          split
          · exact h
          · exact ih (h.setExtensionInfo _) _
    · rw [if_neg hlt, if_neg hlt]
      exact h

theorem lookup_addExtensions (id : Nat) (buffer : List UInt8) (entries : List ExtensionInfo) :
    lookup id (addExtensions buffer entries) =
      (lookup id (extensionsIn buffer)).or (lookup id entries) := by
  unfold extensionsIn addExtensions
  split
  · have hcovers : Covers [] entries entries := fun _ => rfl
    exact hcovers.parseExtensions _ _ _ _ _ _ id
  · rfl

theorem inside_parseExtensions {oneByte : Bool} {offset capacity fuel size : Nat}
    {entries : List ExtensionInfo}
    (h : ∀ id, ∀ info ∈ lookup id entries, info.offset + info.size ≤ offset + capacity) :
    ∀ id, ∀ info ∈ lookup id (parseExtensions oneByte buffer offset capacity fuel size entries).2,
      info.offset + info.size ≤ offset + capacity := by
  induction fuel generalizing size entries with
  | zero => exact h
  | succ fuel ih =>
    rw [parseExtensions]
    dsimp only
    generalize (if oneByte = true then kOneByteExtensionHeaderSize
      else kTwoByteExtensionHeaderSize) = headerLength
    split
    · split
      · exact ih h
      · split
        · exact h
        · split
          · exact h
          · next hroom =>
            split
            · exact h
            · refine ih fun id info hinfo => ?_
              rw [lookup_setExtensionInfo] at hinfo
              split at hinfo
              · obtain rfl := Option.some.inj hinfo
                dsimp only
                omega
              · exact h id info hinfo
    · exact h

theorem inside_extensionsIn {id : Nat} {info : ExtensionInfo}
    (h : info ∈ lookup id (extensionsIn buffer)) : Inside buffer info := by
  unfold extensionsIn addExtensions at h
  split at h
  · next hread =>
    have hroom := (hread.2.2.1 hread.2.1).2
    have hle := inside_parseExtensions (fun id info hinfo => by cases hinfo) id info h
    exact Or.inr (hle.trans hroom)
  · cases h

/-! ## Getters -/

/-- The value that an identifier shows in the bytes. -/
def shown (bytes : List UInt8) (id : Nat) (entries : List ExtensionInfo) : Option (List UInt8) :=
  (lookup id entries).map fun info => readFrom bytes info.offset info.size

/-- **An identifier shows the same in the bytes** through both entries, and no stale bytes. -/
def ShowsSame (bytes : List UInt8) (id : Nat) (entries entries' : List ExtensionInfo) : Prop :=
  shown bytes id entries = shown bytes id entries' ∧
    (∀ info ∈ lookup id entries, Inside bytes info) ∧ ∀ info ∈ lookup id entries', Inside bytes info

theorem hasExtension_eq (p : RtpPacket) (type : RtpExtensionType) :
    p.hasExtension type = (p.extensionMap.getId type != RtpExtension.kInvalidId &&
      (shown p.bytes (p.extensionMap.getId type) p.extensionEntries).isSome) := by
  unfold shown
  rw [Option.isSome_map]
  rfl

theorem findExtension_eq (p : RtpPacket) (type : RtpExtensionType) :
    p.findExtension type = if p.extensionMap.getId type = RtpExtension.kInvalidId then []
      else (shown p.bytes (p.extensionMap.getId type) p.extensionEntries).getD [] := by
  unfold findExtension shown
  dsimp only
  split
  · rfl
  · rw [show p.findExtensionInfo (p.extensionMap.getId type) =
      lookup (p.extensionMap.getId type) p.extensionEntries from rfl]
    cases lookup (p.extensionMap.getId type) p.extensionEntries <;> rfl

theorem extensions_eq_iff (hmap : p.extensionMap = q.extensionMap) :
    ((∀ type, p.hasExtension type = q.hasExtension type) ∧
        ∀ type, p.findExtension type = q.findExtension type) ↔
      ∀ type, p.extensionMap.getId type ≠ RtpExtension.kInvalidId →
        shown p.bytes (p.extensionMap.getId type) p.extensionEntries =
          shown q.bytes (p.extensionMap.getId type) q.extensionEntries := by
  constructor
  · rintro ⟨hhas, hfind⟩ type hid
    have hhas := hhas type
    have hfind := hfind type
    rw [hasExtension_eq, hasExtension_eq, ← hmap, bne_iff_ne.2 hid, Bool.true_and,
      Bool.true_and] at hhas
    rw [findExtension_eq, findExtension_eq, ← hmap, if_neg hid, if_neg hid] at hfind
    generalize shown p.bytes (p.extensionMap.getId type) p.extensionEntries = x at hhas hfind ⊢
    generalize shown q.bytes (p.extensionMap.getId type) q.extensionEntries = y at hhas hfind ⊢
    cases x <;> cases y <;> simp_all
  · intro h
    refine ⟨fun type => ?_, fun type => ?_⟩
    · rw [hasExtension_eq, hasExtension_eq, ← hmap]
      by_cases hid : p.extensionMap.getId type = RtpExtension.kInvalidId
      · rw [hid]
        rfl
      · rw [h type hid]
    · rw [findExtension_eq, findExtension_eq, ← hmap]
      by_cases hid : p.extensionMap.getId type = RtpExtension.kInvalidId
      · rw [if_pos hid, if_pos hid]
      · rw [h type hid]

/-- The fields and the bytes are the same, up to the padding bit and the entries. -/
structure SameHeader (p q : RtpPacket) : Prop where
  marker : p.marker = q.marker
  payloadType : p.payloadType = q.payloadType
  paddingSize : p.paddingSize = q.paddingSize
  sequenceNum : p.sequenceNum = q.sequenceNum
  timestamp : p.timestamp = q.timestamp
  ssrc : p.ssrc = q.ssrc
  payloadOffset : p.payloadOffset = q.payloadOffset
  payloadSize : p.payloadSize = q.payloadSize
  extensionMap : p.extensionMap = q.extensionMap
  bytes : p.bytes = q.bytes

theorem SameHeader.indistinguishable_iff (h : SameHeader p q) :
    Indistinguishable p q ↔ p.hasPadding = q.hasPadding ∧
      ∀ type, p.extensionMap.getId type ≠ RtpExtension.kInvalidId →
        ShowsSame p.bytes (p.extensionMap.getId type) p.extensionEntries q.extensionEntries := by
  have hiff := extensions_eq_iff h.extensionMap
  have hreads : ∀ type, q.ReadsInside type ↔ (p.extensionMap.getId type ≠ RtpExtension.kInvalidId →
      ∀ info ∈ lookup (p.extensionMap.getId type) q.extensionEntries, Inside p.bytes info) := by
    intro type
    rw [h.extensionMap, h.bytes]
    rfl
  rw [← h.bytes] at hiff
  constructor
  · intro hobs
    refine ⟨hobs.hasPadding, fun type hid => ⟨?_, ?_, ?_⟩⟩
    · exact hiff.1 ⟨hobs.hasExtension, hobs.findExtension⟩ type hid
    · exact (hobs.readsInside type).1 hid
    · exact (hreads type).1 (hobs.readsInside type).2 hid
  · rintro ⟨hpadding, hsame⟩
    obtain ⟨hhas, hfind⟩ := hiff.2 fun type hid => (hsame type hid).1
    have hinside : ∀ type, p.ReadsInside type ∧ q.ReadsInside type := fun type =>
      ⟨fun hid => (hsame type hid).2.1, (hreads type).2 fun hid => (hsame type hid).2.2⟩
    have hcsrcs : p.csrcs = q.csrcs := by
      unfold csrcs numCsrc byteAt
      rw [h.bytes]
    have hpayload : p.payload = q.payload := by
      unfold payload
      rw [h.bytes, h.payloadOffset, h.payloadSize]
    exact ⟨⟨hpadding, h.marker, h.payloadType, h.paddingSize, h.sequenceNum, h.timestamp, h.ssrc,
      hcsrcs, h.payloadOffset, h.payloadSize, hpayload, hhas, hfind⟩, hinside⟩

section Growth

variable (growTo : Nat → Nat → Nat) {input : ParseInput}

theorem sameHeader_fresh (p : RtpPacket) (uninitialized : Bool) :
    SameHeader (p.reset growTo) (fresh growTo p.extensionMap uninitialized) :=
  ⟨rfl, rfl, rfl, rfl, rfl, rfl, rfl, rfl, rfl, rfl⟩

/-! ## Overloads -/

theorem parseFrom_of_tooLarge (p : RtpPacket) (h : input.tooLarge) :
    p.parseFrom growTo input = (p, false) := by
  cases input with
  | array bytes => exact if_pos h
  | shared buffer => exact h.elim

theorem parseFrom_of_accepted {p' : RtpPacket} (h : ¬ input.tooLarge)
    (haccepted : p.parseInternal input.bytes = (p', true)) :
    ∃ c, p.parseFrom growTo input = ({ p' with buffer := ⟨input.bytes, c⟩ }, true) := by
  cases input with
  | array bytes =>
    have hle : ¬ kIpPacketSize < bytes.length := h
    have haccepted : p.parseInternal bytes = (p', true) := haccepted
    refine ⟨(p'.buffer.setBytes growTo bytes).capacity, ?_⟩
    simp only [parseFrom, parse, if_neg hle, haccepted]
    rfl
  | shared buffer =>
    have haccepted : p.parseInternal buffer.bytes = (p', true) := haccepted
    refine ⟨buffer.capacity, ?_⟩
    simp only [parseFrom, parseBuffer, haccepted]
    rfl

theorem parseFrom_of_rejected {p' : RtpPacket} (h : ¬ input.tooLarge)
    (hrejected : p.parseInternal input.bytes = (p', false)) :
    p.parseFrom growTo input = (p'.reset growTo, false) := by
  cases input with
  | array bytes =>
    have hle : ¬ kIpPacketSize < bytes.length := h
    have hrejected : p.parseInternal bytes = (p', false) := hrejected
    simp only [parseFrom, parse, if_neg hle, hrejected]
  | shared buffer =>
    have hrejected : p.parseInternal buffer.bytes = (p', false) := hrejected
    simp only [parseFrom, parseBuffer, hrejected]

theorem parseFrom_of_wellFormed (p : RtpPacket) (h : ¬ input.tooLarge)
    (hwell : wellFormed input.bytes) :
    ∃ c, p.parseFrom growTo input =
      ({ p.withExtensions input.bytes (extensionsSizeIn input.bytes p.extensionEntries) with
        paddingSize := paddingIn input.bytes
        payloadSize :=
          input.bytes.length - payloadStart input.bytes - (paddingIn input.bytes).toNat
        buffer := ⟨input.bytes, c⟩ }, true) := by
  exact parseFrom_of_accepted growTo h (parseInternal_of_wellFormed p hwell)

/-- After rejected bytes, the packet is reset, and has the entries and the padding bit that the
bytes gave it. -/
theorem parseFrom_of_not_wellFormed (p : RtpPacket) (h : ¬ input.tooLarge)
    (hwell : ¬ wellFormed input.bytes) :
    ∃ p' : RtpPacket, p.parseFrom growTo input = (p'.reset growTo, false) ∧
      p'.hasPadding = (if headerRead input.bytes then paddingBit input.bytes else p.hasPadding) ∧
      p'.extensionEntries = addExtensions input.bytes p.extensionEntries ∧
      p'.extensionMap = p.extensionMap := by
  obtain ⟨hrejected, hrest⟩ := parseInternal_of_not_wellFormed (p := p) hwell
  refine ⟨(p.parseInternal input.bytes).1, ?_, hrest⟩
  exact parseFrom_of_rejected growTo h (Prod.ext rfl hrejected)

/-! ## What is remembered -/

/-- The identifiers that a map has for some type. -/
def registered (map : HeaderExtensionMap) (id : Nat) : Prop :=
  id ≠ RtpExtension.kInvalidId ∧ ∃ type, map.getId type = id

/-- **The condition** on the packets and the bytes.  Bytes that are too many must find packets
that look new.  Accepted bytes must find packets that show the same, inside of the bytes, in the
identifiers that the bytes do not have.  Rejected bytes must have no extensions, must find none, and
must leave the padding bit that a new packet has. -/
def Clean (uninitialized : Bool) (p q : RtpPacket) (input : ParseInput) : Prop :=
  if input.tooLarge then
    Indistinguishable p (fresh growTo p.extensionMap uninitialized) ∧
      Indistinguishable q (fresh growTo q.extensionMap uninitialized)
  else if wellFormed input.bytes then
    ∀ id, registered p.extensionMap id → lookup id (extensionsIn input.bytes) = none →
      ShowsSame input.bytes id p.extensionEntries q.extensionEntries
  else
    (∀ id, registered p.extensionMap id → lookup id (extensionsIn input.bytes) = none ∧
      lookup id p.extensionEntries = none ∧ lookup id q.extensionEntries = none) ∧
    if headerRead input.bytes then paddingBit input.bytes = uninitialized
    else p.hasPadding = uninitialized ∧ q.hasPadding = uninitialized

theorem forall_registered {map : HeaderExtensionMap} {P : Nat → Prop} :
    (∀ type, map.getId type ≠ RtpExtension.kInvalidId → P (map.getId type)) ↔
      ∀ id, registered map id → P id := by
  constructor
  · rintro h id ⟨hid, type, rfl⟩
    exact h type hid
  · exact fun h type hid => h _ ⟨hid, type, rfl⟩

theorem ObservablyEqual.symm (h : ObservablyEqual p q) : ObservablyEqual q p :=
  ⟨h.1.symm, h.2.symm, h.3.symm, h.4.symm, h.5.symm, h.6.symm, h.7.symm, h.8.symm, h.9.symm,
    h.10.symm, h.11.symm, fun type => (h.12 type).symm, fun type => (h.13 type).symm⟩

theorem ObservablyEqual.trans {r : RtpPacket} (h : ObservablyEqual p q)
    (h' : ObservablyEqual q r) : ObservablyEqual p r :=
  ⟨h.1.trans h'.1, h.2.trans h'.2, h.3.trans h'.3, h.4.trans h'.4, h.5.trans h'.5,
    h.6.trans h'.6, h.7.trans h'.7, h.8.trans h'.8, h.9.trans h'.9, h.10.trans h'.10,
    h.11.trans h'.11, fun type => (h.12 type).trans (h'.12 type),
    fun type => (h.13 type).trans (h'.13 type)⟩

theorem Indistinguishable.symm (h : Indistinguishable p q) : Indistinguishable q p :=
  ⟨h.toObservablyEqual.symm, fun type => (h.readsInside type).symm⟩

theorem Indistinguishable.trans {r : RtpPacket} (h : Indistinguishable p q)
    (h' : Indistinguishable q r) : Indistinguishable p r :=
  ⟨h.toObservablyEqual.trans h'.toObservablyEqual,
    fun type => ⟨(h.readsInside type).1, (h'.readsInside type).2⟩⟩

theorem reset_indistinguishable_fresh_iff (p : RtpPacket) (uninitialized : Bool) :
    Indistinguishable (p.reset growTo) (fresh growTo p.extensionMap uninitialized) ↔
      p.hasPadding = uninitialized ∧
        ∀ id, registered p.extensionMap id → lookup id p.extensionEntries = none := by
  have hnone : ∀ id, ShowsSame (p.reset growTo).bytes id p.extensionEntries [] ↔
      lookup id p.extensionEntries = none := by
    intro id
    refine ⟨fun h => Option.map_eq_none_iff.1 h.1, fun h => ⟨Option.map_eq_none_iff.2 h, ?_, ?_⟩⟩
    · rw [h]
      exact fun info hinfo => by cases hinfo
    · exact fun info hinfo => by cases hinfo
  rw [(sameHeader_fresh growTo p uninitialized).indistinguishable_iff]
  refine and_congr Iff.rfl (Iff.trans ?_ forall_registered)
  exact forall_congr' fun type => imp_congr_right fun _ => hnone _

theorem lookup_addExtensions_eq_none_iff (id : Nat) (buffer : List UInt8)
    (entries : List ExtensionInfo) :
    lookup id (addExtensions buffer entries) = none ↔
      lookup id (extensionsIn buffer) = none ∧ lookup id entries = none := by
  rw [lookup_addExtensions, Option.or_eq_none_iff]

theorem showsSame_addExtensions_iff (id : Nat) (buffer : List UInt8)
    (entries entries' : List ExtensionInfo) :
    ShowsSame buffer id (addExtensions buffer entries) (addExtensions buffer entries') ↔
      (lookup id (extensionsIn buffer) = none → ShowsSame buffer id entries entries') := by
  unfold ShowsSame shown
  rw [lookup_addExtensions, lookup_addExtensions]
  cases h : lookup id (extensionsIn buffer) with
  | none => simp
  | some info => simpa using inside_extensionsIn h

/-- **Parsing forgets the past exactly when** nothing of it can show. -/
theorem forgets_iff (uninitialized : Bool) (p q : RtpPacket) (input : ParseInput)
    (hmap : p.extensionMap = q.extensionMap) :
    Forgets growTo uninitialized p q input ↔ Clean growTo uninitialized p q input := by
  unfold Forgets Clean
  by_cases hlarge : input.tooLarge
  · rw [if_pos hlarge, parseFrom_of_tooLarge growTo p hlarge, parseFrom_of_tooLarge growTo q hlarge]
    refine ⟨fun h => h.2.2 rfl, fun h => ⟨rfl, ?_, fun _ => h⟩⟩
    exact h.1.trans (by rw [hmap]; exact h.2.symm)
  by_cases hwell : wellFormed input.bytes
  · obtain ⟨c, hp⟩ := parseFrom_of_wellFormed growTo p hlarge hwell
    obtain ⟨d, hq⟩ := parseFrom_of_wellFormed growTo q hlarge hwell
    rw [if_neg hlarge, if_pos hwell, hp, hq]
    have hsame : SameHeader
        { p.withExtensions input.bytes (extensionsSizeIn input.bytes p.extensionEntries) with
          paddingSize := paddingIn input.bytes
          payloadSize :=
            input.bytes.length - payloadStart input.bytes - (paddingIn input.bytes).toNat
          buffer := ⟨input.bytes, c⟩ }
        { q.withExtensions input.bytes (extensionsSizeIn input.bytes q.extensionEntries) with
          paddingSize := paddingIn input.bytes
          payloadSize :=
            input.bytes.length - payloadStart input.bytes - (paddingIn input.bytes).toNat
          buffer := ⟨input.bytes, d⟩ } :=
      ⟨rfl, rfl, rfl, rfl, rfl, rfl, rfl, rfl, hmap, rfl⟩
    have hshown : (∀ type, p.extensionMap.getId type ≠ RtpExtension.kInvalidId →
        ShowsSame input.bytes (p.extensionMap.getId type)
          (addExtensions input.bytes p.extensionEntries)
          (addExtensions input.bytes q.extensionEntries)) ↔
        ∀ id, registered p.extensionMap id → lookup id (extensionsIn input.bytes) = none →
          ShowsSame input.bytes id p.extensionEntries q.extensionEntries := by
      refine Iff.trans ?_ forall_registered
      exact forall_congr' fun type => imp_congr_right fun _ => showsSame_addExtensions_iff _ _ _ _
    rw [← hshown]
    constructor
    · exact fun h => (hsame.indistinguishable_iff.1 h.2.1).2
    · exact fun h => ⟨rfl, hsame.indistinguishable_iff.2 ⟨rfl, h⟩, fun hfalse => by cases hfalse⟩
  · obtain ⟨p', hp, hpbit, hpentries, hpmap⟩ := parseFrom_of_not_wellFormed growTo p hlarge hwell
    obtain ⟨q', hq, hqbit, hqentries, hqmap⟩ := parseFrom_of_not_wellFormed growTo q hlarge hwell
    rw [if_neg hlarge, if_neg hwell, hp, hq]
    have hfresh : Indistinguishable (p'.reset growTo) (fresh growTo p.extensionMap uninitialized) ∧
        Indistinguishable (q'.reset growTo) (fresh growTo q.extensionMap uninitialized) ↔
        (∀ id, registered p.extensionMap id → lookup id (extensionsIn input.bytes) = none ∧
            lookup id p.extensionEntries = none ∧ lookup id q.extensionEntries = none) ∧
          p'.hasPadding = uninitialized ∧ q'.hasPadding = uninitialized := by
      rw [← hpmap, ← hqmap, reset_indistinguishable_fresh_iff, reset_indistinguishable_fresh_iff,
        hpentries, hqentries, hpmap, hqmap, ← hmap]
      simp only [lookup_addExtensions_eq_none_iff]
      constructor
      · rintro ⟨⟨hp', hpnone⟩, hq', hqnone⟩
        exact ⟨fun id hid => ⟨(hpnone id hid).1, (hpnone id hid).2, (hqnone id hid).2⟩, hp', hq'⟩
      · rintro ⟨hnone, hp', hq'⟩
        exact ⟨⟨hp', fun id hid => ⟨(hnone id hid).1, (hnone id hid).2.1⟩⟩, hq',
          fun id hid => ⟨(hnone id hid).1, (hnone id hid).2.2⟩⟩
    have hbits : (if headerRead input.bytes then paddingBit input.bytes = uninitialized
        else p.hasPadding = uninitialized ∧ q.hasPadding = uninitialized) ↔
        p'.hasPadding = uninitialized ∧ q'.hasPadding = uninitialized := by
      rw [hpbit, hqbit]
      by_cases hheader : headerRead input.bytes
      · rw [if_pos hheader, if_pos hheader, if_pos hheader, and_self]
      · rw [if_neg hheader, if_neg hheader, if_neg hheader]
    rw [hbits, ← hfresh]
    constructor
    · exact fun h => h.2.2 rfl
    · refine fun h => ⟨rfl, ?_, fun _ => h⟩
      exact h.1.trans (by rw [hmap]; exact h.2.symm)

end Growth

/-! ## A packet that remembers -/

/-- A map with an identifier for the MID. -/
def midMap : HeaderExtensionMap :=
  { extensionIds := fun type => if type = .mid then 1 else 0 }

/-- A packet with a MID of one byte. -/
def withMid : List UInt8 :=
  [0x90, 0, 0, 1, 0, 0, 0, 1, 0, 0, 0, 1, 0xBE, 0xDE, 0, 1, 0x10, 0x61, 0, 0]

/-- A packet without extensions. -/
def withoutExtensions : List UInt8 := [0x80, 0, 0, 2, 0, 0, 0, 1, 0, 0, 0, 1]

/-- **A packet that had a MID** still has one after bytes without extensions. -/
theorem mid_remembered :
    ¬ Forgets (fun _ size => size) false
      ((fresh (fun _ size => size) midMap false).parse (fun _ size => size) withMid).1
      (fresh (fun _ size => size) midMap false) (.array withoutExtensions) := by
  intro h
  have hmid := h.2.1.hasExtension .mid
  revert hmid
  decide

/-- A packet that had nothing forgets it. -/
theorem forgets_iff_fresh :
    Forgets (fun _ size => size) false (fresh (fun _ size => size) midMap false)
        (fresh (fun _ size => size) midMap false) (.array withMid) ↔
      Clean (fun _ size => size) false (fresh (fun _ size => size) midMap false)
        (fresh (fun _ size => size) midMap false) (.array withMid) :=
  forgets_iff (fun _ size => size) false (fresh (fun _ size => size) midMap false)
    (fresh (fun _ size => size) midMap false) (.array withMid) rfl

end RtpPacket

end NaiveRtc.Rtp
