import NaiveRtc.Lib.Partners
import NaiveRtc.Sdp.Media

/-!
# Removing the SSRC of a medium

`AddSsrc` and `RemoveSsrc` of `rtc/sdp/sdp_media_entry_media.cpp`.  The SSRCs of RTX and FEC belong
to those of the media by their places in three lists.

* `addSsrc`, `removeSsrc` and the queries `isMediaSsrc`, `isRtxSsrc`, `isFecSsrc`, `ssrc`
* `Distinct` — no SSRC stands twice in the lists; `addSsrcs` keeps it for distinct SSRCs.
* `Removable` — the SSRC stands last, or nothing stands beside the places behind it.
* `removal_iff` — **removing an SSRC keeps the associations of the others exactly for those**.
-/

namespace NaiveRtc.Sdp

namespace Media

/-! ## The operations -/

/-- `AddSsrc(entry)`. -/
def addSsrc (m : Media) (entry : SsrcEntry) : Media :=
  let m := match entry.kind with
    | .rtx => { m with rtxSsrcs := m.rtxSsrcs ++ [entry.ssrc] }
    | .fec => { m with fecSsrcs := m.fecSsrcs ++ [entry.ssrc] }
    | .media => { m with mediaSsrcs := m.mediaSsrcs ++ [entry.ssrc] }
  { m with ssrcEntries :=
      if m.ssrcEntries.any (·.ssrc = entry.ssrc) then m.ssrcEntries else m.ssrcEntries ++ [entry] }

/-- Calls of `AddSsrc`. -/
def addSsrcs (m : Media) (entries : List SsrcEntry) : Media := entries.foldl addSsrc m

/-- `ClearSsrcs()`. -/
def clearSsrcs (m : Media) : Media :=
  { m with mediaSsrcs := [], rtxSsrcs := [], fecSsrcs := [], ssrcEntries := [] }

/-- `RemoveSsrc(ssrc)`. -/
def removeSsrc (m : Media) (ssrc : U32) : Media :=
  let m := { m with ssrcEntries := m.ssrcEntries.filter fun e => e.ssrc ≠ ssrc }
  if ssrc ∈ m.mediaSsrcs then { m with mediaSsrcs := m.mediaSsrcs.erase ssrc }
  else if ssrc ∈ m.rtxSsrcs then { m with rtxSsrcs := m.rtxSsrcs.erase ssrc }
  else if ssrc ∈ m.fecSsrcs then { m with fecSsrcs := m.fecSsrcs.erase ssrc }
  else m

/-- `IsMediaSsrc(ssrc)`. -/
def isMediaSsrc (m : Media) (ssrc : U32) : Bool := ssrc ∈ m.mediaSsrcs

/-- `IsRtxSsrc(ssrc)`. -/
def isRtxSsrc (m : Media) (ssrc : U32) : Bool := ssrc ∈ m.rtxSsrcs

/-- `IsFecSsrc(ssrc)`. -/
def isFecSsrc (m : Media) (ssrc : U32) : Bool := ssrc ∈ m.fecSsrcs

/-- `ssrc(ssrc)`. -/
def ssrc (m : Media) (ssrc : U32) : Option SsrcEntry := m.ssrcEntries.find? (·.ssrc = ssrc)

theorem rtxSsrcAssociated_eq (m : Media) (ssrc : U32) :
    m.rtxSsrcAssociated ssrc = Partners.partner m.mediaSsrcs m.rtxSsrcs ssrc := rfl

theorem fecSsrcAssociated_eq (m : Media) (ssrc : U32) :
    m.fecSsrcAssociated ssrc = Partners.partner m.mediaSsrcs m.fecSsrcs ssrc := rfl

/-! ## Distinct SSRCs -/

/-- The SSRCs of the three lists, one after the other. -/
def ssrcs (m : Media) : List U32 := m.mediaSsrcs ++ m.rtxSsrcs ++ m.fecSsrcs

/-- No SSRC stands twice in the lists. -/
def Distinct (m : Media) : Prop := m.ssrcs.Nodup

theorem ssrcs_addSsrc (m : Media) (entry : SsrcEntry) :
    (m.addSsrc entry).ssrcs.Perm (m.ssrcs ++ [entry.ssrc]) := by
  unfold addSsrc ssrcs
  cases entry.kind with
  | media =>
    show ((m.mediaSsrcs ++ [entry.ssrc] ++ m.rtxSsrcs) ++ m.fecSsrcs).Perm _
    simp only [List.append_assoc]
    refine List.Perm.append_left _ ?_
    rw [← List.append_assoc m.rtxSsrcs]
    exact List.perm_append_comm
  | rtx =>
    show ((m.mediaSsrcs ++ (m.rtxSsrcs ++ [entry.ssrc])) ++ m.fecSsrcs).Perm _
    simp only [List.append_assoc]
    exact List.Perm.append_left _ (List.Perm.append_left _ List.perm_append_comm)
  | fec =>
    show ((m.mediaSsrcs ++ m.rtxSsrcs) ++ (m.fecSsrcs ++ [entry.ssrc])).Perm _
    rw [← List.append_assoc]

theorem ssrcEntries_addSsrc {m : Media} {entry : SsrcEntry}
    (hnew : entry.ssrc ∉ m.ssrcEntries.map SsrcEntry.ssrc) :
    (m.addSsrc entry).ssrcEntries = m.ssrcEntries ++ [entry] := by
  have hnone : m.ssrcEntries.any (·.ssrc = entry.ssrc) = false := by
    rw [List.any_eq_false]
    intro e he heq
    exact hnew (of_decide_eq_true heq ▸ List.mem_map_of_mem he)
  unfold addSsrc
  cases entry.kind <;> simp [hnone]

variable {entries : List SsrcEntry}

theorem addSsrcs_spec (m : Media)
    (hdistinct : (entries.map SsrcEntry.ssrc).Nodup) :
    (m.clearSsrcs.addSsrcs entries).ssrcs.Perm (entries.map SsrcEntry.ssrc) ∧
      (m.clearSsrcs.addSsrcs entries).ssrcEntries = entries := by
  induction entries using List.reverseRecOn with
  | nil => exact ⟨List.Perm.refl _, rfl⟩
  | append_singleton entries entry ih =>
    rw [List.map_append] at hdistinct
    obtain ⟨hbefore, -, hnew⟩ := List.nodup_append.1 hdistinct
    obtain ⟨hperm, hentries⟩ := ih hbefore
    have hlast : m.clearSsrcs.addSsrcs (entries ++ [entry]) =
        (m.clearSsrcs.addSsrcs entries).addSsrc entry := by
      rw [addSsrcs, List.foldl_append]
      rfl
    rw [hlast]
    constructor
    · rw [List.map_append]
      exact (ssrcs_addSsrc _ _).trans (hperm.append_right _)
    · rw [ssrcEntries_addSsrc, hentries]
      rw [hentries]
      exact fun hmem => hnew _ hmem _ (by simp) rfl

theorem distinct_addSsrcs (m : Media)
    (hdistinct : (entries.map SsrcEntry.ssrc).Nodup) : Distinct (m.clearSsrcs.addSsrcs entries) :=
  (addSsrcs_spec m hdistinct).1.nodup_iff.2 hdistinct

/-! ## Removing -/

section Removal

variable {m : Media} {s : U32}

theorem Distinct.lists (h : Distinct m) :
    (m.mediaSsrcs.Nodup ∧ m.rtxSsrcs.Nodup ∧ m.fecSsrcs.Nodup) ∧
      (s ∈ m.mediaSsrcs → s ∉ m.rtxSsrcs ∧ s ∉ m.fecSsrcs) ∧
      (s ∈ m.rtxSsrcs → s ∉ m.fecSsrcs) := by
  obtain ⟨hfirst, hfec, hother⟩ := List.nodup_append.1 h
  obtain ⟨hmedia, hrtx, hdisjoint⟩ := List.nodup_append.1 hfirst
  refine ⟨⟨hmedia, hrtx, hfec⟩, fun hs => ⟨fun hs' => hdisjoint s hs s hs' rfl, fun hs' => ?_⟩,
    fun hs hs' => ?_⟩
  · exact hother s (List.mem_append_left _ hs) s hs' rfl
  · exact hother s (List.mem_append_right _ hs) s hs' rfl

theorem removeSsrc_lists (h : Distinct m) (s : U32) :
    (m.removeSsrc s).mediaSsrcs = m.mediaSsrcs.erase s ∧
      (m.removeSsrc s).rtxSsrcs = m.rtxSsrcs.erase s ∧
      (m.removeSsrc s).fecSsrcs = m.fecSsrcs.erase s ∧
      (m.removeSsrc s).ssrcEntries = m.ssrcEntries.filter fun e => e.ssrc ≠ s := by
  obtain ⟨-, hmedia, hrtx⟩ := h.lists (s := s)
  unfold removeSsrc
  by_cases hs : s ∈ m.mediaSsrcs
  · obtain ⟨hnot, hnot'⟩ := hmedia hs
    rw [List.erase_of_not_mem hnot, List.erase_of_not_mem hnot']
    simp [hs]
  · rw [List.erase_of_not_mem hs]
    by_cases hs' : s ∈ m.rtxSsrcs
    · rw [List.erase_of_not_mem (hrtx hs')]
      simp [hs, hs']
    · rw [List.erase_of_not_mem hs']
      by_cases hs'' : s ∈ m.fecSsrcs
      · simp [hs, hs', hs'']
      · rw [List.erase_of_not_mem hs'']
        simp [hs, hs', hs'']

/-- What is left when an SSRC is removed: the other SSRCs with the associations they had. -/
structure Removed (m : Media) (entries : List SsrcEntry) (s : U32) : Prop where
  mem_mediaSsrcs : ∀ x, x ∈ (m.removeSsrc s).mediaSsrcs ↔ x ∈ m.mediaSsrcs ∧ x ≠ s
  rtxSsrcAssociated : ∀ x ∈ (m.removeSsrc s).mediaSsrcs,
    (m.removeSsrc s).rtxSsrcAssociated x = (m.rtxSsrcAssociated x).filter (· ≠ s)
  fecSsrcAssociated : ∀ x ∈ (m.removeSsrc s).mediaSsrcs,
    (m.removeSsrc s).fecSsrcAssociated x = (m.fecSsrcAssociated x).filter (· ≠ s)
  not_associated : ∀ x, (m.removeSsrc s).rtxSsrcAssociated x ≠ some s ∧
    (m.removeSsrc s).fecSsrcAssociated x ≠ some s
  not_listed : (m.removeSsrc s).isMediaSsrc s = false ∧ (m.removeSsrc s).isRtxSsrc s = false ∧
    (m.removeSsrc s).isFecSsrc s = false
  no_entry : (m.removeSsrc s).ssrc s = none
  mem_ssrcEntries : ∀ e, e ∈ (m.removeSsrc s).ssrcEntries ↔ e ∈ entries ∧ e.ssrc ≠ s

/-- No list loses a place that something stands beside of. -/
def Removable (m : Media) (s : U32) : Prop :=
  Partners.Erasable m.mediaSsrcs m.rtxSsrcs s ∧ Partners.Erasable m.mediaSsrcs m.fecSsrcs s

theorem associations_iff (h : Distinct m) (s : U32) :
    ((∀ x ∈ (m.removeSsrc s).mediaSsrcs,
        (m.removeSsrc s).rtxSsrcAssociated x = (m.rtxSsrcAssociated x).filter (· ≠ s)) ∧
      ∀ x ∈ (m.removeSsrc s).mediaSsrcs,
        (m.removeSsrc s).fecSsrcAssociated x = (m.fecSsrcAssociated x).filter (· ≠ s)) ↔
      Removable m s := by
  obtain ⟨⟨hmedia, hrtx, hfec⟩, hdisjoint, -⟩ := h.lists (s := s)
  obtain ⟨hmedia', hrtx', hfec', -⟩ := removeSsrc_lists h s
  simp only [rtxSsrcAssociated_eq, fecSsrcAssociated_eq, hmedia', hrtx', hfec']
  exact and_congr (Partners.partner_erase_iff hmedia hrtx fun hs => (hdisjoint hs).1)
    (Partners.partner_erase_iff hmedia hfec fun hs => (hdisjoint hs).2)

theorem removed_of_associations (h : Distinct m)
    (hassociations : (∀ x ∈ (m.removeSsrc s).mediaSsrcs,
        (m.removeSsrc s).rtxSsrcAssociated x = (m.rtxSsrcAssociated x).filter (· ≠ s)) ∧
      ∀ x ∈ (m.removeSsrc s).mediaSsrcs,
        (m.removeSsrc s).fecSsrcAssociated x = (m.fecSsrcAssociated x).filter (· ≠ s)) :
    Removed m m.ssrcEntries s := by
  obtain ⟨⟨hmedia, hrtx, hfec⟩, -, -⟩ := h.lists (s := s)
  obtain ⟨hmedia', hrtx', hfec', hentries'⟩ := removeSsrc_lists h s
  have hnotRtx : s ∉ (m.removeSsrc s).rtxSsrcs := hrtx' ▸ hrtx.not_mem_erase
  have hnotFec : s ∉ (m.removeSsrc s).fecSsrcs := hfec' ▸ hfec.not_mem_erase
  have hnotMedia : s ∉ (m.removeSsrc s).mediaSsrcs := hmedia' ▸ hmedia.not_mem_erase
  refine ⟨fun x => ?_, hassociations.1, hassociations.2, fun x => ⟨fun heq => ?_, fun heq => ?_⟩,
    ⟨decide_eq_false hnotMedia, decide_eq_false hnotRtx, decide_eq_false hnotFec⟩, ?_, fun e => ?_⟩
  · rw [hmedia', hmedia.mem_erase_iff, and_comm]
  · exact hnotRtx (Partners.mem_of_partner heq)
  · exact hnotFec (Partners.mem_of_partner heq)
  · unfold ssrc
    rw [hentries', List.find?_eq_none]
    intro e he
    simpa using (List.mem_filter.1 he).2
  · rw [hentries', List.mem_filter]
    simp

/-- **Removing an SSRC** of distinct ones leaves the others with their associations exactly if
none of them moves to another partner. -/
theorem removal_iff (m : Media)
    (hdistinct : (entries.map SsrcEntry.ssrc).Nodup) (s : U32) :
    Removed (m.clearSsrcs.addSsrcs entries) entries s ↔
      Removable (m.clearSsrcs.addSsrcs entries) s := by
  have h := distinct_addSsrcs m hdistinct
  have hentries := (addSsrcs_spec m hdistinct).2
  rw [← associations_iff h s]
  constructor
  · exact fun hremoved => ⟨hremoved.rtxSsrcAssociated, hremoved.fecSsrcAssociated⟩
  · intro hassociations
    have hremoved := removed_of_associations h hassociations
    rwa [hentries] at hremoved

/-- Two SSRCs with RTX. -/
def twoStreams : List SsrcEntry :=
  [⟨1, .media, none, none, none⟩, ⟨11, .rtx, none, none, none⟩, ⟨2, .media, none, none, none⟩,
    ⟨12, .rtx, none, none, none⟩]

/-- The last one is removed. -/
theorem removal_iff_last :
    Removed (({ mid := [] } : Media).clearSsrcs.addSsrcs twoStreams) twoStreams 2 ↔
      Removable (({ mid := [] } : Media).clearSsrcs.addSsrcs twoStreams) 2 :=
  removal_iff _ (by decide) 2

/-- The first one is removed, and the second one is associated with its RTX. -/
theorem association_moves :
    ¬Removed (({ mid := [] } : Media).clearSsrcs.addSsrcs twoStreams) twoStreams 1 := by
  intro h
  have hsecond := h.rtxSsrcAssociated 2 (by decide)
  exact absurd hsecond (by decide)

end Removal

end Media

end NaiveRtc.Sdp
