import NaiveRtc.Lib.Keyed
import NaiveRtc.Sdp.FecLines

/-!
# The round trip of a media section

* `Media.WellFormed` — sections as they are put together: an entry for every SSRC, in the list of
  its kind, no SSRC twice, texts without blanks.
* `Media.Reproduces`, `Media.RoundTrips` — what reading the lines back into a new section should
  give.
* `Media.Reproducible` — what the lines can say: no flag `rtcp-rsize`, which is read as a key; no
  FEC, whose SSRC is in no group; no RTX payload type; writable entries.
* `Media.parse_streams` — **the lines of the SSRCs, read one media SSRC after the other.**
* `Media.roundTrips_iff` — **exactly the reproducible sections come back.**
-/

namespace NaiveRtc.Sdp

open Text

/-! ## Media SSRCs with their RTX -/

/-- The entry of a media SSRC, and the one of its RTX SSRC. -/
structure Stream where
  media : SsrcEntry
  rtx : Option SsrcEntry

namespace Stream

/-- The entries of the stream, as they are added. -/
def entries (s : Stream) : List SsrcEntry := s.media :: s.rtx.toList

/-- The lines of a media SSRC without FEC. -/
def sdpLines (s : Stream) : List Text :=
  match s.rtx with
  | none => s.media.sdpLines
  | some rtx =>
    ssrcGroupLine "FID".toList s.media.ssrc rtx.ssrc :: (s.media.sdpLines ++ rtx.sdpLines)

/-- What a stream needs to be read back. -/
structure WellFormed (s : Stream) : Prop where
  media_kind : s.media.kind = .media
  rtx_kind : ∀ rtx ∈ s.rtx, rtx.kind = .rtx
  noBlanks : ∀ e ∈ s.entries, e.NoBlanks

end Stream

/-! ## Reading streams -/

namespace Media

/-- Every SSRC of a list has an entry. -/
def Covered (R : Media) : Prop :=
  ∀ ssrc ∈ R.mediaSsrcs ++ R.rtxSsrcs ++ R.fecSsrcs, ssrc ∈ R.ssrcEntries.map SsrcEntry.ssrc

section Streams

variable {R : Media}

theorem emplace_media {ssrc : U32} (hnew : ssrc ∉ R.ssrcEntries.map SsrcEntry.ssrc)
    (hrtx : ssrc ∉ R.rtxSsrcs) (hfec : ssrc ∉ R.fecSsrcs) :
    R.emplaceSsrc ssrc = { R with
      mediaSsrcs := if ssrc ∈ R.mediaSsrcs then R.mediaSsrcs else R.mediaSsrcs ++ [ssrc]
      ssrcEntries := R.ssrcEntries ++ [{ ssrc := ssrc, kind := .media }] } := by
  rw [emplaceSsrc, if_neg (mt any_ssrc_iff.1 hnew), if_neg hrtx, if_neg hfec]

theorem emplace_rtx {ssrc : U32} (hnew : ssrc ∉ R.ssrcEntries.map SsrcEntry.ssrc)
    (hrtx : ssrc ∈ R.rtxSsrcs) :
    R.emplaceSsrc ssrc = { R with
      ssrcEntries := R.ssrcEntries ++ [{ ssrc := ssrc, kind := .rtx }] } := by
  rw [emplaceSsrc, if_neg (mt any_ssrc_iff.1 hnew), if_pos hrtx]

/-- The section after the lines of a stream. -/
def addStream (R : Media) (s : Stream) : Media :=
  { R with
    mediaSsrcs := R.mediaSsrcs ++ [s.media.ssrc]
    rtxSsrcs := R.rtxSsrcs ++ (s.rtx.map SsrcEntry.ssrc).toList
    ssrcEntries := R.ssrcEntries ++ s.entries.map SsrcEntry.readBack }

theorem parse_stream {s : Stream} (hR : R.Covered) (hs : s.WellFormed)
    (hnodup : ((R.ssrcEntries ++ s.entries).map SsrcEntry.ssrc).Nodup) :
    R.parseSDPLines s.sdpLines = some (R.addStream s) := by
  obtain ⟨media, rtx⟩ := s
  have hkind : media.kind = .media := hs.media_kind
  have hnoblanks : media.NoBlanks := hs.noBlanks media List.mem_cons_self
  rw [List.map_append, List.nodup_append] at hnodup
  obtain ⟨-, hown, hnew⟩ := hnodup
  have hmedia : media.ssrc ∉ R.ssrcEntries.map SsrcEntry.ssrc := fun hmem =>
    hnew _ hmem _ List.mem_cons_self rfl
  have hfec : media.ssrc ∉ R.fecSsrcs := fun hmem =>
    hmedia (hR _ (List.mem_append_right _ hmem))
  have hrtxs : media.ssrc ∉ R.rtxSsrcs := fun hmem =>
    hmedia (hR _ (List.mem_append_left _ (List.mem_append_right _ hmem)))
  cases rtx with
  | none =>
    have hmedias : media.ssrc ∉ R.mediaSsrcs := fun hmem =>
      hmedia (hR _ (List.mem_append_left _ (List.mem_append_left _ hmem)))
    have hemplace := emplace_media hmedia hrtxs hfec
    rw [if_neg hmedias, ← hkind] at hemplace
    refine (@parse_entry R media R.ssrcEntries
      { R with mediaSsrcs := R.mediaSsrcs ++ [media.ssrc] } hnoblanks hemplace hmedia).trans ?_
    rw [addStream, Option.map_none, Option.toList_none, List.append_nil]
    rfl
  | some rtx =>
    have hne : media.ssrc ≠ rtx.ssrc := by
      rintro heq
      exact (List.nodup_cons.1 hown).1 (heq ▸ List.mem_cons_self)
    have hrtxKind : rtx.kind = .rtx := hs.rtx_kind rtx rfl
    have hrtxNoBlanks : rtx.NoBlanks :=
      hs.noBlanks rtx (List.mem_cons_of_mem _ List.mem_cons_self)
    have hrtxNew : rtx.ssrc ∉ R.ssrcEntries.map SsrcEntry.ssrc := fun hmem =>
      hnew _ hmem _ (List.mem_cons_of_mem _ List.mem_cons_self) rfl
    have hgroup := @parse_ssrcGroup R "FID".toList (by decide) media.ssrc rtx.ssrc
    rw [if_pos rfl] at hgroup
    -- the group comes first, so both SSRCs are in their lists
    have hemplace := @emplace_media { R with
      mediaSsrcs := R.mediaSsrcs ++ [media.ssrc], rtxSsrcs := R.rtxSsrcs ++ [rtx.ssrc] } media.ssrc
      hmedia (by simpa [hne] using hrtxs) hfec
    rw [if_pos (List.mem_append_right _ List.mem_cons_self), ← hkind] at hemplace
    have hfirst := @parse_entry _ media R.ssrcEntries { R with
      mediaSsrcs := R.mediaSsrcs ++ [media.ssrc], rtxSsrcs := R.rtxSsrcs ++ [rtx.ssrc] }
      hnoblanks hemplace hmedia
    have hrtxNew' : rtx.ssrc ∉ (R.ssrcEntries ++ [media.readBack]).map SsrcEntry.ssrc := by
      simpa [hne.symm] using hrtxNew
    have hemplace' := @emplace_rtx { R with
      mediaSsrcs := R.mediaSsrcs ++ [media.ssrc], rtxSsrcs := R.rtxSsrcs ++ [rtx.ssrc],
      ssrcEntries := R.ssrcEntries ++ [media.readBack] } rtx.ssrc hrtxNew'
      (List.mem_append_right _ List.mem_cons_self)
    rw [← hrtxKind] at hemplace'
    have hsecond := @parse_entry _ rtx (R.ssrcEntries ++ [media.readBack]) { R with
      mediaSsrcs := R.mediaSsrcs ++ [media.ssrc], rtxSsrcs := R.rtxSsrcs ++ [rtx.ssrc],
      ssrcEntries := R.ssrcEntries ++ [media.readBack] } hrtxNoBlanks hemplace' hrtxNew'
    refine (parseSDPLines_cons hgroup).trans ((parseSDPLines_append hfirst).trans ?_)
    refine hsecond.trans ?_
    rw [List.append_assoc]
    rfl

theorem covered_addStream {s : Stream} (hR : R.Covered) : (R.addStream s).Covered := by
  intro ssrc hmem
  have hback : ∀ e ∈ s.entries, e.ssrc ∈ (R.addStream s).ssrcEntries.map SsrcEntry.ssrc := by
    intro e he
    rw [addStream, List.map_append, List.map_map]
    exact List.mem_append_right _ (List.mem_map.2 ⟨e, he, SsrcEntry.readBack_ssrc e⟩)
  have hold : ssrc ∈ R.ssrcEntries.map SsrcEntry.ssrc →
      ssrc ∈ (R.addStream s).ssrcEntries.map SsrcEntry.ssrc := by
    rw [addStream, List.map_append]
    exact List.mem_append_left _
  rcases List.mem_append.1 hmem with hmem | hfec
  · rcases List.mem_append.1 hmem with hmedia | hrtx
    · rcases List.mem_append.1 hmedia with hmedia | hnew
      · exact hold (hR _ (List.mem_append_left _ (List.mem_append_left _ hmedia)))
      · rw [List.mem_singleton.1 hnew]
        exact hback s.media List.mem_cons_self
    · rcases List.mem_append.1 hrtx with hrtx | hnew
      · exact hold (hR _ (List.mem_append_left _ (List.mem_append_right _ hrtx)))
      · obtain ⟨rtx, hsome, rfl⟩ := Option.map_eq_some_iff.1 (Option.mem_toList.1 hnew)
        exact hback rtx (List.mem_cons_of_mem _ (Option.mem_toList.2 hsome))
  · exact hold (hR _ (List.mem_append_right _ hfec))

theorem parse_streams {streams : List Stream} (hR : R.Covered)
    (hstreams : ∀ s ∈ streams, s.WellFormed)
    (hnodup : ((R.ssrcEntries ++ streams.flatMap Stream.entries).map SsrcEntry.ssrc).Nodup) :
    R.parseSDPLines (streams.flatMap Stream.sdpLines) = some { R with
      mediaSsrcs := R.mediaSsrcs ++ streams.map fun s => s.media.ssrc
      rtxSsrcs := R.rtxSsrcs ++ streams.filterMap fun s => s.rtx.map SsrcEntry.ssrc
      ssrcEntries :=
        R.ssrcEntries ++ (streams.flatMap Stream.entries).map SsrcEntry.readBack } := by
  induction streams generalizing R with
  | nil =>
    simp only [List.map_nil, List.filterMap_nil, List.flatMap_nil, List.append_nil]
    rfl
  | cons s streams ih =>
    have hfirst : ((R.ssrcEntries ++ s.entries).map SsrcEntry.ssrc).Nodup := by
      rw [List.flatMap_cons, ← List.append_assoc, List.map_append] at hnodup
      exact (List.nodup_append.1 hnodup).1
    have hrest : (((R.addStream s).ssrcEntries ++
        streams.flatMap Stream.entries).map SsrcEntry.ssrc).Nodup := by
      have hkeys : (s.entries.map SsrcEntry.readBack).map SsrcEntry.ssrc =
          s.entries.map SsrcEntry.ssrc := by
        rw [List.map_map]
        exact List.map_congr_left fun e _ => SsrcEntry.readBack_ssrc e
      rw [addStream, List.map_append, List.map_append, hkeys]
      rwa [List.flatMap_cons, ← List.append_assoc, List.map_append, List.map_append] at hnodup
    rw [List.flatMap_cons, parseSDPLines_append
      (parse_stream hR (hstreams s List.mem_cons_self) hfirst),
      ih (covered_addStream hR) (fun s' hs' => hstreams s' (List.mem_cons_of_mem _ hs')) hrest]
    obtain ⟨media, rtx⟩ := s
    cases rtx <;> simp [addStream, Stream.entries]

end Streams

/-! ## Well-formed sections -/

/-- The list of the SSRCs of a kind. -/
def ssrcsOf (m : Media) : SsrcKind → List U32
  | .media => m.mediaSsrcs
  | .rtx => m.rtxSsrcs
  | .fec => m.fecSsrcs

/-- A section as it is put together. -/
structure WellFormed (m : Media) : Prop where
  extIds : ∀ map ∈ m.extMaps, 1 ≤ map.id ∧ map.id ≤ 255
  extIds_nodup : (m.extMaps.map ExtMap.id).Nodup
  payloadTypes : ∀ map ∈ m.rtpMaps, IsInt map.payloadType ∧ IsInt map.clockRate
  payloadTypes_nodup : (m.rtpMaps.map RtpMap.payloadType).Nodup
  rtx_length : m.rtxSsrcs.length ≤ m.mediaSsrcs.length
  fec_length : m.fecSsrcs.length ≤ m.mediaSsrcs.length
  ssrcs_nodup : (m.mediaSsrcs ++ m.rtxSsrcs ++ m.fecSsrcs).Nodup
  entries_nodup : (m.ssrcEntries.map SsrcEntry.ssrc).Nodup
  entry_of : ∀ kind, ∀ ssrc ∈ m.ssrcsOf kind, ∃ e ∈ m.ssrcEntries, e.ssrc = ssrc ∧ e.kind = kind
  listed : ∀ e ∈ m.ssrcEntries, e.ssrc ∈ m.ssrcsOf e.kind
  noBlanks : ∀ e ∈ m.ssrcEntries, e.NoBlanks

section Sections

variable {m : Media}

theorem entryLines_of_mem (h : m.WellFormed) {e : SsrcEntry} (he : e ∈ m.ssrcEntries) :
    m.entryLines e.ssrc = some e.sdpLines := by
  have hfind := (Keyed.find?_key_iff h.entries_nodup (k := e.ssrc) (x := e)).2 ⟨he, rfl⟩
  rw [entryLines, hfind, Option.map_some]

/-- A stream that is in the section. -/
structure Contains (m : Media) (s : Stream) : Prop where
  entries : ∀ e ∈ s.entries, e ∈ m.ssrcEntries
  media_kind : s.media.kind = .media
  rtx_kind : ∀ rtx ∈ s.rtx, rtx.kind = .rtx
  rtx_ssrc : s.rtx.map SsrcEntry.ssrc = m.rtxSsrcAssociated s.media.ssrc

theorem exists_stream (h : m.WellFormed) {ssrc : U32} (hssrc : ssrc ∈ m.mediaSsrcs) :
    ∃ s : Stream, s.media.ssrc = ssrc ∧ m.Contains s := by
  obtain ⟨media, hmedia, rfl, hkind⟩ := h.entry_of .media ssrc hssrc
  cases hrtx : m.rtxSsrcAssociated media.ssrc with
  | none =>
    refine ⟨⟨media, none⟩, rfl, ?_, hkind, ?_, hrtx.symm⟩
    · intro e he
      rw [List.mem_singleton.1 he]
      exact hmedia
    · rintro rtx ⟨⟩
  | some other =>
    obtain ⟨rtx, hmem, rfl, hrtxKind⟩ := h.entry_of .rtx other (associated_mem hrtx)
    refine ⟨⟨media, some rtx⟩, rfl, ?_, hkind, ?_, hrtx.symm⟩
    · intro e he
      rcases List.mem_cons.1 he with rfl | he
      · exact hmedia
      · rw [List.mem_singleton.1 he]
        exact hmem
    · rintro _ ⟨⟩
      exact hrtxKind

theorem ssrcLines_of_contains (h : m.WellFormed) (hfec : m.fecSsrcs = []) {s : Stream}
    (hs : m.Contains s) : m.ssrcLines s.media.ssrc = some s.sdpLines := by
  have hnone : m.fecSsrcAssociated s.media.ssrc = none := by
    rw [fecSsrcAssociated, associated, hfec, List.zip_nil_right]
    rfl
  have hmedia := entryLines_of_mem h (hs.entries s.media List.mem_cons_self)
  have hassoc := hs.rtx_ssrc
  have hentries := hs.entries
  obtain ⟨media, rtx⟩ := s
  unfold ssrcLines Stream.sdpLines
  cases rtx with
  | none =>
    rw [← hassoc]
    exact hmedia
  | some rtx =>
    have hrtx := entryLines_of_mem h
      (hentries rtx (List.mem_cons_of_mem _ List.mem_cons_self))
    simp only [← hassoc, hnone, hmedia, hrtx, Option.map_some, Option.isNone_some, Bool.and_self,
      Bool.false_eq_true, if_false, Option.bind_eq_bind, Option.bind_some, Option.pure_def,
      List.append_nil]

theorem exists_streams (h : m.WellFormed) (hfec : m.fecSsrcs = []) {ssrcs : List U32}
    (hssrcs : ∀ ssrc ∈ ssrcs, ssrc ∈ m.mediaSsrcs) :
    ∃ streams : List Stream, (∀ s ∈ streams, m.Contains s) ∧
      (streams.map fun s => s.media.ssrc) = ssrcs ∧
      (streams.filterMap fun s => s.rtx.map SsrcEntry.ssrc) =
        ssrcs.filterMap m.rtxSsrcAssociated ∧
      ssrcs.mapM m.ssrcLines = some (streams.map Stream.sdpLines) := by
  induction ssrcs with
  | nil => exact ⟨[], by rintro s ⟨⟩, rfl, rfl, rfl⟩
  | cons ssrc ssrcs ih =>
    obtain ⟨s, rfl, hs⟩ := exists_stream h (hssrcs ssrc List.mem_cons_self)
    obtain ⟨streams, hall, hmedia, hrtx, hlines⟩ := ih fun other hother =>
      hssrcs other (List.mem_cons_of_mem _ hother)
    refine ⟨s :: streams, ?_, ?_, ?_, ?_⟩
    · intro s' hs'
      rcases List.mem_cons.1 hs' with rfl | hs'
      · exact hs
      · exact hall s' hs'
    · rw [List.map_cons, hmedia]
    · rw [List.filterMap_cons, List.filterMap_cons, hs.rtx_ssrc, hrtx]
    · rw [List.mapM_cons, ssrcLines_of_contains h hfec hs, hlines]
      rfl

theorem perm_entries (streams : List Stream) :
    ((streams.flatMap Stream.entries).map SsrcEntry.ssrc).Perm
      ((streams.map fun s => s.media.ssrc) ++
        streams.filterMap fun s => s.rtx.map SsrcEntry.ssrc) := by
  induction streams with
  | nil => exact List.Perm.nil
  | cons s streams ih =>
    obtain ⟨media, rtx⟩ := s
    rw [List.flatMap_cons, List.map_append, List.map_cons, List.cons_append]
    cases rtx with
    | none => exact ih.cons media.ssrc
    | some rtx =>
      refine List.Perm.cons media.ssrc ?_
      exact (ih.cons rtx.ssrc).trans List.perm_middle.symm

theorem mem_entries_iff (h : m.WellFormed) (hfec : m.fecSsrcs = []) {streams : List Stream}
    (hall : ∀ s ∈ streams, m.Contains s)
    (hmedia : (streams.map fun s => s.media.ssrc) = m.mediaSsrcs)
    (hrtx : (streams.filterMap fun s => s.rtx.map SsrcEntry.ssrc) = m.rtxSsrcs) (e : SsrcEntry) :
    e ∈ streams.flatMap Stream.entries ↔ e ∈ m.ssrcEntries := by
  constructor
  · intro he
    obtain ⟨s, hs, hmem⟩ := List.mem_flatMap.1 he
    exact (hall s hs).entries e hmem
  · intro he
    have hsame : ∀ {s : Stream} {e' : SsrcEntry}, s ∈ streams → e' ∈ s.entries →
        e'.ssrc = e.ssrc → e ∈ streams.flatMap Stream.entries := by
      intro s e' hs he' hkey
      have heq : e' = e := List.inj_on_of_nodup_map h.entries_nodup ((hall s hs).entries e' he') he
        hkey
      exact List.mem_flatMap.2 ⟨s, hs, heq ▸ he'⟩
    have hlisted := h.listed e he
    cases hkind : e.kind with
    | media =>
      rw [hkind, ssrcsOf, ← hmedia] at hlisted
      obtain ⟨s, hs, hkey⟩ := List.mem_map.1 hlisted
      exact hsame hs List.mem_cons_self hkey
    | rtx =>
      rw [hkind, ssrcsOf, ← hrtx] at hlisted
      obtain ⟨s, hs, hkey⟩ := List.mem_filterMap.1 hlisted
      obtain ⟨rtx, hsome, hkey⟩ := Option.map_eq_some_iff.1 hkey
      exact hsame hs (List.mem_cons_of_mem _ (Option.mem_toList.2 hsome)) hkey
    | fec =>
      rw [hkind, ssrcsOf, hfec] at hlisted
      cases hlisted

theorem parse_withoutFec (h : m.WellFormed) (hfec : m.fecSsrcs = []) :
    ∃ (lines : List Text) (entries : List SsrcEntry), m.generateSDPLines = some lines ∧
      ({ mid := m.mid } : Media).parseSDPLines lines = some { m.headRead with
        mediaSsrcs := m.mediaSsrcs
        rtxSsrcs := m.rtxSsrcs
        ssrcEntries := entries.map SsrcEntry.readBack } ∧
      (entries.map SsrcEntry.ssrc).Nodup ∧ ∀ e, e ∈ entries ↔ e ∈ m.ssrcEntries := by
  obtain ⟨streams, hall, hmedia, hrtx, hlines⟩ := exists_streams h hfec fun _ hssrc => hssrc
  have hnodup := (List.nodup_append.1 h.ssrcs_nodup).1
  have hrtx : (streams.filterMap fun s => s.rtx.map SsrcEntry.ssrc) = m.rtxSsrcs :=
    hrtx.trans (Keyed.zip_find? (List.nodup_append.1 hnodup).1 h.rtx_length)
  have hkeys : ((streams.flatMap Stream.entries).map SsrcEntry.ssrc).Nodup := by
    rw [(perm_entries streams).nodup_iff, hmedia, hrtx]
    exact hnodup
  have hhead : ({ mid := m.mid } : Media).parseSDPLines m.headLines = some m.headRead := by
    refine parse_headLines (fun map hmap => ?_) h.extIds_nodup h.payloadTypes h.payloadTypes_nodup
    have hid := h.extIds map hmap
    unfold IsInt
    omega
  have hcovered : m.headRead.Covered := by
    rintro ssrc ⟨⟩
  have hwell : ∀ s ∈ streams, s.WellFormed := fun s hs =>
    ⟨(hall s hs).media_kind, (hall s hs).rtx_kind, fun e he =>
      h.noBlanks e ((hall s hs).entries e he)⟩
  refine ⟨m.headLines ++ streams.flatMap Stream.sdpLines, streams.flatMap Stream.entries, ?_, ?_,
    hkeys, mem_entries_iff h hfec hall hmedia hrtx⟩
  · rw [generateSDPLines, hlines, List.flatMap_def]
    rfl
  · rw [parseSDPLines_append hhead, parse_streams hcovered hwell hkeys, hmedia, hrtx]
    rfl

end Sections

/-! ## The round trip -/

/-- The section that was read is the one that was written: what stands under a key is the same. -/
structure Reproduces (parsed m : Media) : Prop where
  direction : parsed.direction = m.direction
  rtcpMux : parsed.rtcpMuxEnabled = m.rtcpMuxEnabled
  rtcpRsize : parsed.rtcpRsizeEnabled = m.rtcpRsizeEnabled
  extMaps : ∀ id, parsed.extMaps.find? (·.id = id) = m.extMaps.find? (·.id = id)
  rtpMaps : ∀ payloadType, parsed.rtpMaps.find? (·.payloadType = payloadType) =
    m.rtpMaps.find? (·.payloadType = payloadType)
  mediaSsrcs : parsed.mediaSsrcs = m.mediaSsrcs
  rtxSsrcs : parsed.rtxSsrcs = m.rtxSsrcs
  fecSsrcs : parsed.fecSsrcs = m.fecSsrcs
  rtxAssociated : ∀ ssrc, parsed.rtxSsrcAssociated ssrc = m.rtxSsrcAssociated ssrc
  fecAssociated : ∀ ssrc, parsed.fecSsrcAssociated ssrc = m.fecSsrcAssociated ssrc
  ssrcEntries : ∀ ssrc, parsed.ssrcEntries.find? (·.ssrc = ssrc) =
    m.ssrcEntries.find? (·.ssrc = ssrc)

/-- The lines are written and read back, and give the section. -/
def RoundTrips (m : Media) : Prop :=
  ∃ lines parsed, m.generateSDPLines = some lines ∧
    ({ mid := m.mid } : Media).parseSDPLines lines = some parsed ∧ parsed.Reproduces m

/-- What the lines can say. -/
structure Reproducible (m : Media) : Prop where
  rtcpRsize : m.rtcpRsizeEnabled = false
  fec : m.fecSsrcs = []
  mid : m.mid = "rtcp-mux".toList → m.rtcpMuxEnabled = true
  rtxPayloadType : ∀ map ∈ m.rtpMaps, map.rtxPayloadType = none
  entries : ∀ e ∈ m.ssrcEntries, e.Writable

theorem reproduces_iff {m : Media} (h : m.WellFormed) (hfec : m.fecSsrcs = [])
    {entries : List SsrcEntry} (hkeys : (entries.map SsrcEntry.ssrc).Nodup)
    (hmem : ∀ e, e ∈ entries ↔ e ∈ m.ssrcEntries) :
    Reproduces { m.headRead with
      mediaSsrcs := m.mediaSsrcs
      rtxSsrcs := m.rtxSsrcs
      ssrcEntries := entries.map SsrcEntry.readBack } m ↔ m.Reproducible := by
  have hentries : (∀ ssrc, (entries.map SsrcEntry.readBack).find? (·.ssrc = ssrc) =
      m.ssrcEntries.find? (·.ssrc = ssrc)) ↔ ∀ e ∈ m.ssrcEntries, e.Writable := by
    have hsame := (Keyed.find?_key_congr hkeys h.entries_nodup).2 hmem
    have hback := Keyed.find?_key_map SsrcEntry.readBack_ssrc hkeys
    constructor
    · intro heq e he
      refine (SsrcEntry.readBack_eq_iff (h.noBlanks e he)).1 ?_
      exact hback.1 (fun k => (heq k).trans (hsame k).symm) e ((hmem e).2 he)
    · intro hall ssrc
      refine (hback.2 (fun e he => ?_) ssrc).trans (hsame ssrc)
      exact (SsrcEntry.readBack_eq_iff (h.noBlanks e ((hmem e).1 he))).2 (hall e ((hmem e).1 he))
  have hmaps : (∀ payloadType, (m.rtpMaps.map RtpMap.written).find?
      (·.payloadType = payloadType) = m.rtpMaps.find? (·.payloadType = payloadType)) ↔
      ∀ map ∈ m.rtpMaps, map.rtxPayloadType = none := by
    have hkept : ∀ map : RtpMap, map.written.payloadType = map.payloadType := fun _ => rfl
    refine (Keyed.find?_key_map hkept h.payloadTypes_nodup).trans (forall₂_congr fun map _ => ?_)
    constructor
    · exact fun heq => (congrArg RtpMap.rtxPayloadType heq).symm
    · intro hnone
      rw [RtpMap.written, ← hnone]
  constructor
  · intro hrep
    refine ⟨hrep.rtcpRsize.symm, hfec, fun hmid => ?_, hmaps.1 hrep.rtpMaps,
      hentries.1 hrep.ssrcEntries⟩
    have hmux : (decide (m.mid = "rtcp-mux".toList) || m.rtcpMuxEnabled) = m.rtcpMuxEnabled :=
      hrep.rtcpMux
    rw [decide_eq_true hmid, Bool.true_or] at hmux
    exact hmux.symm
  · intro hrep
    refine ⟨rfl, ?_, hrep.rtcpRsize.symm, fun _ => rfl, hmaps.2 hrep.rtxPayloadType, rfl, rfl,
      hfec.symm, fun _ => rfl, fun _ => ?_, hentries.2 hrep.entries⟩
    · show (decide (m.mid = "rtcp-mux".toList) || m.rtcpMuxEnabled) = m.rtcpMuxEnabled
      by_cases hmid : m.mid = "rtcp-mux".toList
      · rw [hrep.mid hmid, Bool.or_true]
      · rw [decide_eq_false hmid, Bool.false_or]
    · show m.associated [] _ = m.associated m.fecSsrcs _
      rw [hfec]

/-- **Exactly the reproducible sections come back from their lines.** -/
theorem roundTrips_iff {m : Media} (h : m.WellFormed) : m.RoundTrips ↔ m.Reproducible := by
  constructor
  · rintro ⟨lines, parsed, hlines, hparse, hrep⟩
    have hfec : m.fecSsrcs = [] := by
      have hsubset := fecSsrcs_subset_of_parse hlines hparse
      rw [hrep.fecSsrcs] at hsubset
      refine List.eq_nil_iff_forall_not_mem.2 fun ssrc hmem => ?_
      exact (List.nodup_append.1 h.ssrcs_nodup).2.2 ssrc
        (List.mem_append_right _ (hsubset hmem)) ssrc hmem rfl
    obtain ⟨lines', entries, hlines', hparse', hkeys, hmem⟩ := parse_withoutFec h hfec
    obtain rfl := Option.some.inj (hlines'.symm.trans hlines)
    obtain rfl := Option.some.inj (hparse'.symm.trans hparse)
    exact (reproduces_iff h hfec hkeys hmem).1 hrep
  · intro hrep
    obtain ⟨lines, entries, hlines, hparse, hkeys, hmem⟩ := parse_withoutFec h hrep.fec
    exact ⟨lines, _, hlines, hparse, (reproduces_iff h hrep.fec hkeys hmem).2 hrep⟩

/-- A video section with RTX. -/
def sampleMedia : Media where
  mid := "1".toList
  direction := .sendRecv
  rtcpMuxEnabled := true
  extMaps := [⟨3, "urn:ietf:params:rtp-hdrext:toffset".toList⟩]
  rtpMaps := [
    { payloadType := 102, codec := .h264, clockRate := 90000, rtcpFeedbacks := [.nack, .googRemb],
      fmtProfiles := ["profile-level-id=42e01f".toList] },
    { payloadType := 111, codec := .opus, clockRate := 48000, codecParams := some "2".toList }]
  mediaSsrcs := [1, 2]
  rtxSsrcs := [11]
  ssrcEntries := [
    { ssrc := 1, kind := .media, cname := some "video".toList, msid := some "stream".toList,
      trackId := some "track".toList },
    { ssrc := 2, kind := .media },
    { ssrc := 11, kind := .rtx, cname := some "video".toList }]

theorem sampleMedia_wellFormed : sampleMedia.WellFormed where
  extIds := by decide
  extIds_nodup := by decide
  payloadTypes := by
    unfold IsInt
    decide
  payloadTypes_nodup := by decide
  rtx_length := by decide
  fec_length := by decide
  ssrcs_nodup := by decide
  entries_nodup := by decide
  entry_of := by
    rintro (_ | _ | _) <;> simp [ssrcsOf, sampleMedia]
  listed := by decide
  noBlanks := by
    intro e he
    refine ⟨?_, ?_, ?_⟩ <;> revert e <;> simp [sampleMedia]

theorem sampleMedia_roundTrips : sampleMedia.RoundTrips := by
  refine (roundTrips_iff sampleMedia_wellFormed).2 ⟨rfl, rfl, by decide, by decide, ?_⟩
  intro e he
  simp only [sampleMedia, List.mem_cons, List.not_mem_nil, or_false] at he
  rcases he with rfl | rfl | rfl
  · exact ⟨by decide, _, rfl, by decide⟩
  · exact ⟨rfl, by decide⟩
  · exact ⟨rfl, by decide⟩

/-- The section with FEC for its first SSRC. -/
def sampleFecMedia : Media :=
  { sampleMedia with
    fecSsrcs := [21]
    ssrcEntries := sampleMedia.ssrcEntries ++ [{ ssrc := 21, kind := .fec }] }

/-- **The SSRC of the FEC is lost**: the group names the RTX instead. -/
theorem sampleFecMedia_not_roundTrips :
    sampleFecMedia.WellFormed ∧ ¬sampleFecMedia.RoundTrips := by
  constructor
  · have h := sampleMedia_wellFormed
    refine ⟨h.extIds, h.extIds_nodup, h.payloadTypes, h.payloadTypes_nodup, by decide, by decide,
      by decide, by decide, ?_, by decide, ?_⟩
    · rintro (_ | _ | _) <;> simp [ssrcsOf, sampleFecMedia, sampleMedia]
    · intro e he
      rcases List.mem_append.1 he with he | he
      · exact h.noBlanks e he
      · rw [List.mem_singleton.1 he]
        exact ⟨by rintro c ⟨⟩, by rintro c ⟨⟩, by rintro c ⟨⟩⟩
  · rintro ⟨lines, parsed, hlines, hparse, hrep⟩
    have hsubset := fecSsrcs_subset_of_parse hlines hparse
    rw [hrep.fecSsrcs] at hsubset
    exact absurd (hsubset List.mem_cons_self) (by decide)

end Media

end NaiveRtc.Sdp
