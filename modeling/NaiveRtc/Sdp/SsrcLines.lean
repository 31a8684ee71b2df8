import NaiveRtc.Sdp.MediaLines

/-!
# What the lines of an SSRC say

* `SsrcEntry.readBack` — the entry that is made from the lines of an entry.
* `SsrcEntry.Writable` — the entries whose lines say all that they are: the `msid` goes with a
  track, the track with an `msid`, and no text is taken for the beginning of another.
* `readBack_eq_iff` — **exactly the writable entries come back.**
* `parse_entry`, `parse_ssrcGroup` — the lines of an entry and of a group.
-/

namespace NaiveRtc.Sdp

open Text

/-! ## The values of an entry -/

namespace SsrcEntry

/-- The entry that its lines say: what is found behind `cname:` and `msid:`, wherever they are. -/
def readBack (e : SsrcEntry) : SsrcEntry :=
  match e.msid with
  | none => { e with msid := e.cname.bind (afterText "msid:".toList), trackId := none }
  | some msid =>
    { e with
      cname := (afterText "cname:".toList (msid ++ ' ' :: e.trackId.getD msid)).or e.cname
      trackId := some (e.trackId.getD msid) }

/-- The texts of an entry have no blanks in them. -/
structure NoBlanks (e : SsrcEntry) : Prop where
  cname : ∀ c ∈ e.cname, ' ' ∉ c
  msid : ∀ c ∈ e.msid, ' ' ∉ c
  trackId : ∀ c ∈ e.trackId, ' ' ∉ c

/-- The lines of the entry say what it is. -/
def Writable (e : SsrcEntry) : Prop :=
  match e.msid with
  | none => e.trackId = none ∧ ∀ cname ∈ e.cname, afterText "msid:".toList cname = none
  | some msid =>
    afterText "cname:".toList msid = none ∧
      ∃ trackId, e.trackId = some trackId ∧
        ∀ cname ∈ afterText "cname:".toList trackId, e.cname = some cname

@[simp] theorem readBack_ssrc (e : SsrcEntry) : e.readBack.ssrc = e.ssrc := by
  unfold readBack
  split <;> rfl

theorem readBack_eq_iff {e : SsrcEntry} (h : e.NoBlanks) : e.readBack = e ↔ e.Writable := by
  obtain ⟨ssrc, kind, cname, msid, trackId⟩ := e
  cases msid with
  | none =>
    unfold readBack Writable
    simp only [mk.injEq, true_and]
    constructor
    · rintro ⟨hmsid, htrack⟩
      refine ⟨htrack.symm, fun c hc => ?_⟩
      rw [Option.mem_def.1 hc] at hmsid
      exact hmsid
    · rintro ⟨htrack, hcname⟩
      refine ⟨?_, htrack.symm⟩
      cases cname with
      | none => rfl
      | some c => exact hcname c rfl
  | some msid =>
    unfold readBack Writable
    simp only [mk.injEq, true_and]
    have hsep : afterText "cname:".toList (msid ++ ' ' :: trackId.getD msid) =
        ((afterText "cname:".toList msid).map (· ++ ' ' :: trackId.getD msid)).or
          (afterText "cname:".toList (trackId.getD msid)) :=
      afterText_sep (by decide)
    rw [hsep]
    constructor
    · rintro ⟨hcname, htrack⟩
      cases hmsid : afterText "cname:".toList msid with
      | some r =>
        -- the name would have the blank in front of the track
        rw [hmsid] at hcname
        exact absurd (List.mem_append_right _ List.mem_cons_self) (h.cname _ hcname.symm)
      | none =>
        refine ⟨rfl, trackId.getD msid, htrack.symm, fun c hc => ?_⟩
        rw [hmsid] at hcname
        rw [← hcname]
        exact congrArg (fun o => Option.or o cname) (Option.mem_def.1 hc)
    · rintro ⟨hmsid, track, rfl, hcname⟩
      refine ⟨?_, rfl⟩
      rw [hmsid]
      show (afterText "cname:".toList track).or cname = cname
      cases htrack : afterText "cname:".toList track with
      | none => rfl
      | some c => exact (hcname c htrack).symm

end SsrcEntry

/-! ## Patterns behind an SSRC -/

section Values

variable {ssrc : U32}

theorem not_mem_ssrcText {c : Char} (hc : c.isDigit = false) (hminus : c ≠ '-') :
    c ∉ ssrcText ssrc :=
  not_mem_decimal hc hminus

theorem afterText_ssrcText {p : Char} {pattern rest : Text} (hp : p.isDigit = false)
    (hminus : p ≠ '-') (hblank : p ≠ ' ') :
    afterText (p :: pattern) (ssrcText ssrc ++ ' ' :: rest) = afterText (p :: pattern) rest := by
  have hstart : p ∉ ssrcText ssrc ++ [' '] := by
    rw [List.mem_append, List.mem_singleton]
    exact fun hmem => hmem.elim (not_mem_ssrcText hp hminus) hblank
  have hsplit : ssrcText ssrc ++ ' ' :: rest = (ssrcText ssrc ++ [' ']) ++ rest := by
    rw [List.append_assoc, List.singleton_append]
  rw [hsplit, afterText_append hstart]

theorem afterText_ssrcText_nil {p : Char} {pattern : Text} (hp : p.isDigit = false)
    (hminus : p ≠ '-') : afterText (p :: pattern) (ssrcText ssrc) = none := by
  have hstart : p ∉ ssrcText ssrc := not_mem_ssrcText hp hminus
  have hnone := @afterText_append p pattern [] _ hstart
  rwa [List.append_nil] at hnone

theorem afterText_msid_cname (cname : Text) :
    afterText "msid:".toList ("cname:".toList ++ cname) = afterText "msid:".toList cname := by
  simp [afterText, List.cons_prefix_cons]

theorem afterText_cname_msid (msid : Text) :
    afterText "cname:".toList ("msid:".toList ++ msid) = afterText "cname:".toList msid :=
  afterText_append (by decide)

end Values

/-! ## The lines of an entry -/

section Entries

open Media (readSsrcValue)

variable {R : Media} {e : SsrcEntry} {entries : List SsrcEntry}

variable {ssrc : U32}

theorem any_ssrc_iff :
    entries.any (fun other => decide (other.ssrc = ssrc)) = true ↔
      ssrc ∈ entries.map SsrcEntry.ssrc := by
  simp only [List.any_eq_true, decide_eq_true_eq, List.mem_map]

theorem update_last (f : SsrcEntry → SsrcEntry) (hnew : e.ssrc ∉ entries.map SsrcEntry.ssrc) :
    (entries ++ [e]).map (fun other => if other.ssrc = e.ssrc then f other else other) =
      entries ++ [f e] := by
  have hother : ∀ other ∈ entries,
      (if other.ssrc = e.ssrc then f other else other) = other := by
    intro other hmem
    refine if_neg fun heq => hnew ?_
    exact heq ▸ List.mem_map_of_mem hmem
  simp only [List.map_append, List.map_congr_left hother, List.map_id', List.map_cons, List.map_nil,
    if_true]

variable {R' : Media}

theorem parse_ssrcValue {value rest : Text}
    (hvalue : value = ssrcText e.ssrc ++ rest) (hrest : ∀ c ∈ rest.head?, c = ' ')
    (hdir : directionFromText value = none)
    (hemplace : R.emplaceSsrc e.ssrc = { R' with ssrcEntries := entries ++ [e] })
    (hnew : e.ssrc ∉ entries.map SsrcEntry.ssrc) :
    R.parseSDPLine (attributeLine "ssrc".toList value) =
      some (true, { R' with ssrcEntries := entries ++ [readSsrcValue value e] }) := by
  have hread : toUInt32 value = some e.ssrc := by
    rw [hvalue]
    refine toUInt32_ssrcText _ fun c hc => ?_
    rw [hrest c hc]
    decide
  rw [parseSDPLine_attributeLine (by decide), parseField_ssrc hdir, Media.parseSsrc, hread]
  simp only [Option.bind_eq_bind, Option.bind_some, hemplace]
  rw [update_last _ hnew]
  rfl

theorem readSsrcValue_cname {cname : Text} (hblank : ' ' ∉ cname) :
    readSsrcValue (ssrcText ssrc ++ ' ' :: ("cname:".toList ++ cname)) e =
      { e with
        cname := some cname
        msid := (afterText "msid:".toList cname).or e.msid } := by
  have hcname : afterText "cname:".toList (ssrcText ssrc ++ ' ' :: ("cname:".toList ++ cname)) =
      some cname :=
    (afterText_ssrcText (by decide) (by decide) (by decide)).trans afterText_self
  have hmsid : afterText "msid:".toList (ssrcText ssrc ++ ' ' :: ("cname:".toList ++ cname)) =
      afterText "msid:".toList cname :=
    (afterText_ssrcText (by decide) (by decide) (by decide)).trans (afterText_msid_cname cname)
  rw [readSsrcValue, hcname, hmsid]
  cases hfound : afterText "msid:".toList cname with
  | none => rfl
  | some msid =>
    have hno : ' ' ∉ msid := fun hmem => hblank (afterText_mem hfound hmem)
    exact if_neg hno

theorem readSsrcValue_msid {msid track : Text} (hblank : ' ' ∉ msid) :
    readSsrcValue (ssrcText ssrc ++ ' ' :: ("msid:".toList ++ (msid ++ ' ' :: track))) e =
      { e with
        cname := (afterText "cname:".toList (msid ++ ' ' :: track)).or e.cname
        msid := some msid
        trackId := some track } := by
  have hcname : afterText "cname:".toList
      (ssrcText ssrc ++ ' ' :: ("msid:".toList ++ (msid ++ ' ' :: track))) =
      afterText "cname:".toList (msid ++ ' ' :: track) :=
    (afterText_ssrcText (by decide) (by decide) (by decide)).trans (afterText_cname_msid _)
  have hmsid : afterText "msid:".toList
      (ssrcText ssrc ++ ' ' :: ("msid:".toList ++ (msid ++ ' ' :: track))) =
      some (msid ++ ' ' :: track) :=
    (afterText_ssrcText (by decide) (by decide) (by decide)).trans afterText_self
  rw [readSsrcValue, hcname, hmsid]
  cases afterText "cname:".toList (msid ++ ' ' :: track) <;>
    simp only [List.mem_append, List.mem_cons, true_or, or_true, if_true, before_append hblank,
      after_append hblank, Option.none_or, Option.some_or]

/-- The entry after its first line. -/
def firstRead (e : SsrcEntry) : SsrcEntry where
  ssrc := e.ssrc
  kind := e.kind
  cname := e.cname
  msid := e.cname.bind (afterText "msid:".toList)

theorem parse_cnameLine (hblanks : e.NoBlanks)
    (hemplace : R.emplaceSsrc e.ssrc =
      { R' with ssrcEntries := entries ++ [{ ssrc := e.ssrc, kind := e.kind }] })
    (hnew : e.ssrc ∉ entries.map SsrcEntry.ssrc) :
    R.parseSDPLine e.cnameLine =
      some (true, { R' with ssrcEntries := entries ++ [firstRead e] }) := by
  unfold SsrcEntry.cnameLine firstRead
  cases hcname : e.cname with
  | none =>
    have hread : readSsrcValue (ssrcText e.ssrc) { ssrc := e.ssrc, kind := e.kind } =
        { ssrc := e.ssrc, kind := e.kind } := by
      have hno : afterText "cname:".toList (ssrcText e.ssrc) = none :=
        afterText_ssrcText_nil (by decide) (by decide)
      have hno' : afterText "msid:".toList (ssrcText e.ssrc) = none :=
        afterText_ssrcText_nil (by decide) (by decide)
      rw [readSsrcValue, hno, hno']
    have hdir : directionFromText (ssrcText e.ssrc) = none :=
      directionFromText_eq_none (not_mem_ssrcText (by decide) (by decide))
    refine (@parse_ssrcValue R { ssrc := e.ssrc, kind := e.kind } entries R' _ []
      (List.append_nil _).symm (by simp) hdir hemplace hnew).trans ?_
    rw [hread]
    rfl
  | some cname =>
    refine (@parse_ssrcValue R { ssrc := e.ssrc, kind := e.kind } entries R' _ _ rfl (by simp)
      (directionFromText_of_blank (by simp)) hemplace hnew).trans ?_
    rw [readSsrcValue_cname (hblanks.cname cname hcname), Option.or_none]
    rfl

theorem parse_entry (hblanks : e.NoBlanks)
    (hemplace : R.emplaceSsrc e.ssrc =
      { R' with ssrcEntries := entries ++ [{ ssrc := e.ssrc, kind := e.kind }] })
    (hnew : e.ssrc ∉ entries.map SsrcEntry.ssrc) :
    R.parseSDPLines e.sdpLines = some { R' with ssrcEntries := entries ++ [e.readBack] } := by
  have hfirst := parse_cnameLine hblanks hemplace hnew
  rw [SsrcEntry.sdpLines, Media.parseSDPLines_cons hfirst]
  cases hmsid : e.msid with
  | none =>
    have hback : firstRead e = e.readBack := by
      unfold firstRead SsrcEntry.readBack
      rw [hmsid]
    rw [hback]
    rfl
  | some msid =>
    have hthere : ({ R' with ssrcEntries := entries ++ [firstRead e] } : Media).emplaceSsrc e.ssrc =
        { R' with ssrcEntries := entries ++ [firstRead e] } := by
      rw [Media.emplaceSsrc, if_pos]
      rw [any_ssrc_iff, List.map_append]
      exact List.mem_append_right _ List.mem_cons_self
    have hsecond := @parse_ssrcValue _ (firstRead e) entries R'
      (ssrcText e.ssrc ++ ' ' :: ("msid:".toList ++ (msid ++ ' ' :: e.trackId.getD msid))) _ rfl
      (by simp) (directionFromText_of_blank (by simp)) hthere hnew
    rw [Option.map_some, Option.toList_some]
    refine (Media.parseSDPLines_cons hsecond).trans ?_
    rw [readSsrcValue_msid (hblanks.msid msid hmsid)]
    unfold firstRead SsrcEntry.readBack
    rw [hmsid]
    rfl

end Entries

/-! ## Groups -/

theorem parse_ssrcGroup {R : Media} {semantics : Text} (hsem : ' ' ∉ semantics)
    (ssrc associated : U32) :
    R.parseSDPLine (ssrcGroupLine semantics ssrc associated) =
      if semantics = "FID".toList then
        some (true, { R with
          mediaSsrcs := R.mediaSsrcs ++ [ssrc], rtxSsrcs := R.rtxSsrcs ++ [associated] })
      else if semantics = "FEC".toList then
        some (true, { R with
          mediaSsrcs := R.mediaSsrcs ++ [ssrc], fecSsrcs := R.fecSsrcs ++ [associated] })
      else some (true, { R with mediaSsrcs := R.mediaSsrcs ++ [ssrc] ++ [ssrc] }) := by
  have hblank : ' ' ∉ ssrcText ssrc := blank_not_mem_decimal _
  have hfirst : toUInt32 (ssrcText ssrc) = some ssrc := by
    rw [← List.append_nil (ssrcText ssrc)]
    exact toUInt32_ssrcText ssrc (by simp)
  have hsecond : toUInt32 (ssrcText associated) = some associated := by
    rw [← List.append_nil (ssrcText associated)]
    exact toUInt32_ssrcText associated (by simp)
  rw [ssrcGroupLine, parseSDPLine_attributeLine (by decide),
    parseField_ssrcGroup (directionFromText_of_blank (by simp)), Media.parseSsrcGroup,
    before_append hsem, after_append hsem, before_append hblank, after_append hblank, hfirst,
    hsecond]
  rfl

end NaiveRtc.Sdp
