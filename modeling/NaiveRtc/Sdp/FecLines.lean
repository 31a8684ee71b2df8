import NaiveRtc.Sdp.SsrcLines

/-!
# The FEC SSRCs that are read

* `Media.KeepsFec` — an attribute that is no group adds none.
* `Media.AddsOnly` — lines that add none but those of a list: `addsOnly_headLines`,
  `addsOnly_ssrcLines` say it of all that `GenerateSDPLines` writes.
* `Media.fecSsrcs_subset_of_parse` — **what is read as an FEC SSRC is an RTX SSRC**, since that is
  what the group of the FEC is written with.
-/

namespace NaiveRtc.Sdp

open Text

namespace Media

/-! ## Attributes -/

/-- The FEC SSRCs stay what they are. -/
def KeepsFec (R : Media) (result : Option (Bool × Media)) : Prop :=
  ∀ p ∈ result, p.2.fecSsrcs = R.fecSsrcs

section Fec

variable {R : Media} {key value : Text}

theorem keepsFec_none : KeepsFec R none := by
  rintro p ⟨⟩

theorem keepsFec_some {result : Bool} {R' : Media} (h : R'.fecSsrcs = R.fecSsrcs) :
    KeepsFec R (some (result, R')) := by
  rintro p ⟨⟩
  exact h

theorem keepsFec_bind {α : Type} {o : Option α} {f : α → Option (Bool × Media)}
    (h : ∀ a, KeepsFec R (f a)) : KeepsFec R (o >>= f) := by
  cases o with
  | none => exact keepsFec_none
  | some a => exact h a

theorem keepsFec_ite {P : Prop} [Decidable P] {a b : Option (Bool × Media)}
    (ha : KeepsFec R a) (hb : KeepsFec R b) : KeepsFec R (if P then a else b) := by
  by_cases hP : P
  · rwa [if_pos hP]
  · rwa [if_neg hP]

theorem keepsFec_map {α : Type} {o : Option α} {f : α → Bool × Media}
    (h : ∀ a, (f a).2.fecSsrcs = R.fecSsrcs) : KeepsFec R (o.map f) := by
  cases o with
  | none => exact keepsFec_none
  | some a => exact keepsFec_some (h a)

theorem keepsFec_parseRtpMap : KeepsFec R (R.parseRtpMap value) := by
  refine keepsFec_bind fun rtpMap => ?_
  cases rtpMap with
  | none => exact keepsFec_some rfl
  | some rtpMap =>
    cases hfound : R.rtpMaps.find? (·.payloadType = rtpMap.payloadType) with
    | none =>
      simp only [hfound]
      exact keepsFec_some rfl
    | some found =>
      simp only [hfound]
      exact keepsFec_ite keepsFec_none (keepsFec_some rfl)

theorem keepsFec_parseRtcpFb : KeepsFec R (R.parseRtcpFb value) := by
  refine keepsFec_bind fun payloadType => keepsFec_ite ?_ (keepsFec_some rfl)
  cases rtcpFeedbackFromText (after ' ' value) <;> exact keepsFec_some rfl

theorem emplaceSsrc_fecSsrcs (ssrc : U32) : (R.emplaceSsrc ssrc).fecSsrcs = R.fecSsrcs := by
  unfold emplaceSsrc
  split
  · rfl
  · split
    · rfl
    · split <;> rfl

theorem keepsFec_parseEntryField : KeepsFec R (R.parseEntryField key value) :=
  keepsFec_ite (keepsFec_some rfl) (keepsFec_ite (keepsFec_some rfl) (keepsFec_map fun _ => rfl))

theorem keepsFec_parseSDPAttributeField (hkey : key ≠ "ssrc-group".toList) :
    KeepsFec R (R.parseSDPAttributeField key value) := by
  unfold parseSDPAttributeField
  cases directionFromText value with
  | some d => exact keepsFec_some rfl
  | none =>
    refine keepsFec_ite ?_ (keepsFec_ite keepsFec_parseRtpMap (keepsFec_ite keepsFec_parseRtcpFb
      (keepsFec_ite ?_ ?_)))
    · exact keepsFec_bind fun _ => keepsFec_ite (keepsFec_some rfl) (keepsFec_some rfl)
    · exact keepsFec_bind fun _ => keepsFec_ite (keepsFec_some rfl) (keepsFec_some rfl)
    · rw [if_neg hkey]
      refine keepsFec_ite (keepsFec_bind fun ssrc => keepsFec_some (emplaceSsrc_fecSsrcs ssrc)) ?_
      exact keepsFec_ite (keepsFec_some rfl) (keepsFec_ite (keepsFec_some rfl)
        keepsFec_parseEntryField)

/-! ## Lines -/

/-- The lines add no FEC SSRCs but these. -/
def AddsOnly (ssrcs : List U32) (lines : List Text) : Prop :=
  ∀ line ∈ lines, ∀ R : Media, ∀ p ∈ R.parseSDPLine line, p.2.fecSsrcs ⊆ R.fecSsrcs ++ ssrcs

variable {ssrcs : List U32} {lines lines' : List Text}

theorem addsOnly_append (h : AddsOnly ssrcs lines) (h' : AddsOnly ssrcs lines') :
    AddsOnly ssrcs (lines ++ lines') := fun line hline =>
  (List.mem_append.1 hline).elim (h line) (h' line)

theorem addsOnly_cons {line : Text} (h : AddsOnly ssrcs [line]) (h' : AddsOnly ssrcs lines) :
    AddsOnly ssrcs (line :: lines) :=
  addsOnly_append h h'

theorem addsOnly_nil : AddsOnly ssrcs [] := by
  rintro line ⟨⟩

theorem addsOnly_attribute (hcolon : ':' ∉ key) (hkey : key ≠ "ssrc-group".toList) :
    AddsOnly ssrcs [attributeLine key value] := by
  intro line hline R p hp
  rw [List.mem_singleton.1 hline, parseSDPLine_attributeLine hcolon] at hp
  rw [keepsFec_parseSDPAttributeField hkey p hp]
  exact List.subset_append_left _ _

theorem addsOnly_flag (hcolon : ':' ∉ value) : AddsOnly ssrcs [flagLine value] := by
  intro line hline R p hp
  rw [List.mem_singleton.1 hline, parseSDPLine_flagLine hcolon] at hp
  rw [keepsFec_parseSDPAttributeField (by decide) p hp]
  exact List.subset_append_left _ _

theorem addsOnly_group {semantics : Text} (hsem : ' ' ∉ semantics) {ssrc associated : U32}
    (h : associated ∈ ssrcs) : AddsOnly ssrcs [ssrcGroupLine semantics ssrc associated] := by
  intro line hline R p hp
  rw [List.mem_singleton.1 hline, parse_ssrcGroup hsem] at hp
  have hold : R.fecSsrcs ⊆ R.fecSsrcs ++ ssrcs := List.subset_append_left _ _
  by_cases hfid : semantics = "FID".toList
  · rw [if_pos hfid] at hp
    cases hp
    exact hold
  · rw [if_neg hfid] at hp
    by_cases hfec : semantics = "FEC".toList
    · rw [if_pos hfec] at hp
      cases hp
      exact List.append_subset.2 ⟨hold, fun other hother =>
        List.mem_append_right _ (List.mem_singleton.1 hother ▸ h)⟩
    · rw [if_neg hfec] at hp
      cases hp
      exact hold

theorem addsOnly_map {α : Type} {l : List α} {f : α → Text} (h : ∀ a, AddsOnly ssrcs [f a]) :
    AddsOnly ssrcs (l.map f) := by
  induction l with
  | nil => exact addsOnly_nil
  | cons a l ih => exact addsOnly_cons (h a) ih

theorem addsOnly_flatten {parts : List (List Text)} (h : ∀ part ∈ parts, AddsOnly ssrcs part) :
    AddsOnly ssrcs parts.flatten := by
  intro line hline
  obtain ⟨part, hpart, hmem⟩ := List.mem_flatten.1 hline
  exact h part hpart line hmem

theorem addsOnly_entry (e : SsrcEntry) : AddsOnly ssrcs e.sdpLines := by
  refine addsOnly_cons (addsOnly_attribute (by decide) (by decide)) ?_
  cases e.msid with
  | none => exact addsOnly_nil
  | some msid => exact addsOnly_attribute (by decide) (by decide)

theorem addsOnly_headLines (m : Media) : AddsOnly ssrcs m.headLines := by
  have hflag : ∀ (flag : Bool) (value : Text), ':' ∉ value →
      AddsOnly ssrcs (if flag then [flagLine value] else []) := by
    intro flag value hvalue
    cases flag
    · exact addsOnly_nil
    · exact addsOnly_flag hvalue
  have hrtpMap : ∀ map : RtpMap, AddsOnly ssrcs map.sdpLines := fun map =>
    addsOnly_append (addsOnly_cons (addsOnly_attribute (by decide) (by decide))
      (addsOnly_map fun _ => addsOnly_attribute (by decide) (by decide)))
      (addsOnly_map fun _ => addsOnly_attribute (by decide) (by decide))
  refine addsOnly_append (addsOnly_append (addsOnly_append (addsOnly_append ?_
    (hflag _ _ (by decide))) (hflag _ _ (by decide))) ?_) ?_
  · refine addsOnly_cons (addsOnly_flag (by decide)) (addsOnly_cons ?_ (addsOnly_flag ?_))
    · exact addsOnly_attribute (by decide) (by decide)
    · cases m.direction <;> decide
  · exact addsOnly_map fun _ => addsOnly_attribute (by decide) (by decide)
  · intro line hline
    obtain ⟨map, -, hmem⟩ := List.mem_flatMap.1 hline
    exact hrtpMap map line hmem

variable {m : Media}

theorem entryLines_eq_some {ssrc : U32} (h : m.entryLines ssrc = some lines) :
    ∃ e : SsrcEntry, lines = e.sdpLines := by
  obtain ⟨e, -, rfl⟩ := Option.map_eq_some_iff.1 h
  exact ⟨e, rfl⟩

theorem associated_mem {ssrc other : U32} (h : m.associated ssrcs ssrc = some other) :
    other ∈ ssrcs := by
  obtain ⟨p, hp, rfl⟩ := Option.map_eq_some_iff.1 h
  exact (List.of_mem_zip (List.mem_of_find?_eq_some hp)).2

theorem addsOnly_ssrcLines {ssrc : U32} (h : m.ssrcLines ssrc = some lines) :
    AddsOnly m.rtxSsrcs lines := by
  have hentry : ∀ {ssrc : U32} {lines : List Text}, m.entryLines ssrc = some lines →
      AddsOnly m.rtxSsrcs lines := by
    intro ssrc lines h
    obtain ⟨e, rfl⟩ := entryLines_eq_some h
    exact addsOnly_entry e
  unfold ssrcLines at h
  cases hrtx : m.rtxSsrcAssociated ssrc with
  | none =>
    rw [hrtx] at h
    exact hentry h
  | some rtx =>
    have hmem : rtx ∈ m.rtxSsrcs := associated_mem hrtx
    rw [hrtx] at h
    simp only [Option.isNone_some, Bool.and_self, Bool.false_eq_true, if_false,
      Option.bind_eq_bind, Option.bind_some, Option.bind_eq_some_iff, Option.pure_def] at h
    obtain ⟨mediaLines, hmedia, rtxLines, hrtxLines, h⟩ := h
    have hfid : AddsOnly m.rtxSsrcs
        (ssrcGroupLine "FID".toList ssrc rtx :: (mediaLines ++ rtxLines)) :=
      addsOnly_cons (addsOnly_group (by decide) hmem)
        (addsOnly_append (hentry hmedia) (hentry hrtxLines))
    cases hfec : m.fecSsrcAssociated ssrc with
    | none =>
      rw [hfec] at h
      obtain rfl := Option.some.inj h
      exact addsOnly_append hfid addsOnly_nil
    | some fec =>
      simp only [hfec, Option.bind_eq_some_iff, Option.some.injEq] at h
      obtain ⟨mediaLines', hmedia', fecLines, hfecLines, rfl⟩ := h
      exact addsOnly_append hfid (addsOnly_cons (addsOnly_group (by decide) hmem)
        (addsOnly_append (hentry hmedia') (hentry hfecLines)))

theorem fecSsrcs_subset_of_run {R' : Media} (h : AddsOnly ssrcs lines)
    (hrun : R.parseSDPLines lines = some R') : R'.fecSsrcs ⊆ R.fecSsrcs ++ ssrcs := by
  induction lines generalizing R with
  | nil =>
    cases hrun
    exact List.subset_append_left _ _
  | cons line lines ih =>
    cases hline : R.parseSDPLine line with
    | none =>
      rw [parseSDPLines, List.foldlM_cons, hline] at hrun
      cases hrun
    | some p =>
      rw [@parseSDPLines_cons R p.2 line lines p.1 hline] at hrun
      have hstep := h line List.mem_cons_self R p hline
      have hrest := ih (fun line hmem => h line (List.mem_cons_of_mem _ hmem)) hrun
      exact List.Subset.trans hrest
        (List.append_subset.2 ⟨hstep, List.subset_append_right _ _⟩)

theorem exists_of_mapM {α β : Type} {f : α → Option β} {l : List α} {parts : List β}
    (h : l.mapM f = some parts) {part : β} (hpart : part ∈ parts) : ∃ a, f a = some part := by
  induction l generalizing parts with
  | nil =>
    cases h
    cases hpart
  | cons a l ih =>
    simp only [List.mapM_cons, Option.bind_eq_bind, Option.bind_eq_some_iff, Option.pure_def,
      Option.some.injEq] at h
    obtain ⟨b, hb, rest, hrest, rfl⟩ := h
    rcases List.mem_cons.1 hpart with rfl | hmem
    · exact ⟨a, hb⟩
    · exact ih hrest hmem

theorem fecSsrcs_subset_of_parse {m parsed : Media} (hlines : m.generateSDPLines = some lines)
    (hrun : ({ mid := m.mid } : Media).parseSDPLines lines = some parsed) :
    parsed.fecSsrcs ⊆ m.rtxSsrcs := by
  unfold generateSDPLines at hlines
  simp only [Option.bind_eq_bind, Option.bind_eq_some_iff, Option.pure_def,
    Option.some.injEq] at hlines
  obtain ⟨parts, hparts, rfl⟩ := hlines
  refine fecSsrcs_subset_of_run (addsOnly_append (addsOnly_headLines m)
    (addsOnly_flatten fun part hpart => ?_)) hrun
  obtain ⟨ssrc, hssrc⟩ := exists_of_mapM hparts hpart
  exact addsOnly_ssrcLines hssrc

end Fec

end Media

end NaiveRtc.Sdp
