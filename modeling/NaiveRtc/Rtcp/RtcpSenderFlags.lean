import NaiveRtc.Rtcp.RtcpSender

/-!
# The flags of the RTCP sender

What the flags of an `RtcpSender` ask for, along every run: which flags a call leaves behind,
and how the packets of a call follow each other.

* `buildAll_spec`, `plan` — which packets the loop over the flags appends.
* `Respects` — the protocol of one call: no volatile flag left, not both reports, a report
  first and a BYE last.
* `Proper` — the calls that keep to it: before any media, a sending compound sender is asked
  for reports only, with nothing else pending.
* `flag_protocol_iff` — a run keeps to the protocol exactly if its calls are proper.
-/

namespace NaiveRtc.Rtcp

/-! ## The set of flags -/

theorem RtcpPacketType.value_inj {a b : RtcpPacketType} (h : a.value = b.value) : a = b := by
  cases a <;> cases b <;> first | rfl | exact absurd h (by decide)

namespace ReportFlags

variable {s : ReportFlags} {f g : ReportFlag}

theorem eq_of_type_eq (hf : f ∈ s.flags) (hg : g ∈ s.flags) (htype : f.type = g.type) : f = g := by
  obtain ⟨i, hi, rfl⟩ := List.getElem_of_mem hf
  obtain ⟨j, hj, rfl⟩ := List.getElem_of_mem hg
  have hpair := List.pairwise_iff_getElem.mp s.sorted
  rcases Nat.lt_trichotomy i j with hij | rfl | hij
  · have hlt : s.flags[i].type.value < s.flags[j].type.value := hpair i j hi hj hij
    rw [htype] at hlt
    exact absurd hlt (Nat.lt_irrefl _)
  · rfl
  · have hlt : s.flags[j].type.value < s.flags[i].type.value := hpair j i hj hi hij
    rw [htype] at hlt
    exact absurd hlt (Nat.lt_irrefl _)

theorem mem_insert :
    f ∈ (s.insert g).flags ↔ f ∈ s.flags ∨ (f = g ∧ ∀ h ∈ s.flags, h.type ≠ g.type) := by
  have htype (h : ReportFlag) : h.type.value ≠ g.type.value ↔ h.type ≠ g.type :=
    not_congr ⟨RtcpPacketType.value_inj, fun heq => by rw [heq]⟩
  simp only [insert, Ordered.mem_insertBy_iff typeBefore_iff s.sorted, htype]

theorem mem_erase {type : RtcpPacketType} :
    f ∈ (s.erase type).flags ↔ f ∈ s.flags ∧ f.type ≠ type := by
  simp [erase]

theorem mem_eraseVolatile : f ∈ s.eraseVolatile.flags ↔ f ∈ s.flags ∧ f.isVolatile = false := by
  simp [eraseVolatile]

end ReportFlags

namespace RtcpSender

variable {s : RtcpSender} {f : ReportFlag} {type : RtcpPacketType}

/-- The types of the flags, in order. -/
def types (s : RtcpSender) : List RtcpPacketType := s.reportFlags.flags.map ReportFlag.type

theorem mem_types : type ∈ s.types ↔ ∃ f ∈ s.reportFlags.flags, f.type = type := by
  simp [types]

theorem isFlagPresent_iff : s.isFlagPresent type = true ↔ type ∈ s.types := by
  simp [isFlagPresent, ReportFlags.find, List.find?_isSome, mem_types]

theorem allVolatileFlagsConsumed_iff :
    s.allVolatileFlagsConsumed = true ↔ ∀ f ∈ s.reportFlags.flags, f.isVolatile = false := by
  simp [allVolatileFlagsConsumed]

theorem mem_setFlag {isVolatile : Bool} :
    f ∈ (s.setFlag type isVolatile).reportFlags.flags ↔
      f ∈ s.reportFlags.flags ∨ (f = ⟨type, isVolatile⟩ ∧ type ∉ s.types) := by
  rw [setFlag, ReportFlags.mem_insert, mem_types]
  simp

theorem mem_types_setFlag {other : RtcpPacketType} {isVolatile : Bool} :
    other ∈ (s.setFlag type isVolatile).types ↔ other = type ∨ other ∈ s.types := by
  rw [mem_types]
  constructor
  · rintro ⟨f, hf, rfl⟩
    rcases mem_setFlag.mp hf with hf | ⟨rfl, -⟩
    · exact .inr (mem_types.mpr ⟨f, hf, rfl⟩)
    · exact .inl rfl
  · rintro (rfl | hother)
    · by_cases hpresent : other ∈ s.types
      · obtain ⟨f, hf, htype⟩ := mem_types.mp hpresent
        exact ⟨f, mem_setFlag.mpr (.inl hf), htype⟩
      · exact ⟨⟨other, isVolatile⟩, mem_setFlag.mpr (.inr ⟨rfl, hpresent⟩), rfl⟩
    · obtain ⟨f, hf, htype⟩ := mem_types.mp hother
      exact ⟨f, mem_setFlag.mpr (.inl hf), htype⟩

/-- Nothing has changed that the choice of packets depends on, the flags apart. -/
structure SameMode (s s' : RtcpSender) : Prop where
  rtcpMode : s'.rtcpMode = s.rtcpMode
  sending : s'.sending = s.sending
  media : s'.lastFrameCaptureTimeMs = s.lastFrameCaptureTimeMs

theorem SameMode.refl (s : RtcpSender) : SameMode s s := ⟨rfl, rfl, rfl⟩

theorem SameMode.trans {s₁ s₂ s₃ : RtcpSender} (h : SameMode s₁ s₂) (h' : SameMode s₂ s₃) :
    SameMode s₁ s₃ :=
  ⟨h'.rtcpMode.trans h.rtcpMode, h'.sending.trans h.sending, h'.media.trans h.media⟩

theorem sameMode_setFlag (s : RtcpSender) (type : RtcpPacketType) (isVolatile : Bool) :
    SameMode s (s.setFlag type isVolatile) := ⟨rfl, rfl, rfl⟩

theorem consumeFlag_spec (s : RtcpSender) (type : RtcpPacketType) (forced : Bool) :
    ((s.consumeFlag type forced).2 = true ↔ type ∈ s.types) ∧
    (∀ f, f ∈ (s.consumeFlag type forced).1.reportFlags.flags ↔
      f ∈ s.reportFlags.flags ∧
        (f.type = type → f.isVolatile = false ∧ forced = false)) ∧
    SameMode s (s.consumeFlag type forced).1 := by
  unfold consumeFlag
  cases hfind : s.reportFlags.find type with
  | none =>
    have habsent : type ∉ s.types := by
      rw [← isFlagPresent_iff, isFlagPresent, hfind]
      simp
    refine ⟨by simp [habsent], fun f => ⟨fun hf => ⟨hf, fun htype => ?_⟩, And.left⟩,
      .refl s⟩
    exact absurd (mem_types.mpr ⟨f, hf, htype⟩) habsent
  | some flag =>
    have hmem : flag ∈ s.reportFlags.flags := List.mem_of_find?_eq_some hfind
    have htype : flag.type = type := by
      have := List.find?_some hfind
      simpa using this
    have hpresent : type ∈ s.types := mem_types.mpr ⟨flag, hmem, htype⟩
    by_cases hgone : (flag.isVolatile || forced) = true
    · simp only [if_pos hgone]
      refine ⟨by simp [hpresent], fun f => ?_, ⟨rfl, rfl, rfl⟩⟩
      rw [ReportFlags.mem_erase]
      refine and_congr_right fun hf => ⟨fun hne heq => absurd heq hne, fun hkeep heq => ?_⟩
      obtain rfl := s.reportFlags.eq_of_type_eq hf hmem (heq.trans htype.symm)
      obtain ⟨hvolatile, hforced⟩ := hkeep heq
      rw [hvolatile, hforced] at hgone
      exact absurd hgone (by decide)
    · simp only [if_neg hgone]
      refine ⟨by simp [hpresent], fun f => ⟨fun hf => ⟨hf, fun heq => ?_⟩, And.left⟩, .refl s⟩
      obtain rfl := s.reportFlags.eq_of_type_eq hf hmem (heq.trans htype.symm)
      simpa using hgone

/-! ## The packets of a call -/

end RtcpSender

/-- The flag a packet is built for; an XR packet goes by its first block. -/
def SimplePacket.flag : SimplePacket → RtcpPacketType
  | senderReport _ => .sr
  | receiverReport _ => .rr
  | sdes _ => .sdes
  | bye _ => .bye
  | pli _ => .pli
  | fir _ => .fir
  | lossNotification _ => .lossNotification
  | remb _ => .remb
  | tmmbr _ => .tmmbr
  | tmmbn _ => .tmmbn
  | nack _ => .nack
  | transportFeedback _ => .transportFeedback
  | extendedReports _ => .xrReceiverReferenceTime

/-- The kinds of the packets. -/
def kinds (packets : List SimplePacket) : List RtcpPacketType := packets.map SimplePacket.flag

namespace RtcpSender

variable {s : RtcpSender} {f : ReportFlag} {type : RtcpPacketType}

/-- Whether the builder of a type appends a packet. -/
def appends (s : RtcpSender) : RtcpPacketType → Bool
  | .sr => s.lastFrameCaptureTimeMs.isSome
  | .rr | .sdes | .pli | .fir | .remb | .lossNotification | .nack => true
  | _ => false

theorem SameMode.appends_eq {s s' : RtcpSender} (h : SameMode s s') : s'.appends = s.appends := by
  funext type
  cases type <;> simp [appends, h.media]

theorem build_spec (s : RtcpSender) (ctx : RtcpContext) (type : RtcpPacketType) :
    SameMode s (s.build ctx type).1 ∧ (s.build ctx type).1.reportFlags = s.reportFlags ∧
      kinds (s.build ctx type).2 = if s.appends type then [type] else [] := by
  cases type with
  | sr =>
    cases hmedia : s.lastFrameCaptureTimeMs with
    | none => simp [build, buildSR, hmedia, appends, kinds, SameMode.refl]
    | some captureTimeMs =>
      simp [build, buildSR, hmedia, appends, kinds, SimplePacket.flag, SameMode.refl]
  | remb =>
    by_cases hle : s.rembSsrcs.length ≤ 0xff <;>
      simp [build, buildREMB, hle, appends, kinds, SimplePacket.flag, SameMode.refl]
  | _ => exact ⟨⟨rfl, rfl, rfl⟩, rfl, rfl⟩

theorem buildAll_spec (ctx : RtcpContext) (types : List RtcpPacketType) (s : RtcpSender) :
    SameMode s (buildAll ctx s types).1 ∧ (buildAll ctx s types).1.reportFlags = s.reportFlags ∧
      kinds (buildAll ctx s types).2 = types.filter s.appends := by
  induction types generalizing s with
  | nil => exact ⟨.refl s, rfl, rfl⟩
  | cons type types ih =>
    obtain ⟨hmode, hflags, hkinds⟩ := build_spec s ctx type
    obtain ⟨hmode', hflags', hkinds'⟩ := ih (s.build ctx type).1
    refine ⟨hmode.trans hmode', hflags'.trans hflags, ?_⟩
    have happend : kinds (buildAll ctx s (type :: types)).2
        = kinds (s.build ctx type).2 ++ kinds (buildAll ctx (s.build ctx type).1 types).2 :=
      List.map_append
    rw [happend, hkinds, hkinds', hmode.appends_eq, List.filter_cons]
    split <;> simp

/-- The kinds of the packets that the flags ask for. -/
def plan (s : RtcpSender) : List RtcpPacketType :=
  s.types.filter s.appends ++
    (if s.types.any isXr then [.xrReceiverReferenceTime] else []) ++
    (if .bye ∈ s.types then [.bye] else [])

theorem buildFlags_spec (s : RtcpSender) (ctx : RtcpContext) :
    SameMode s (s.buildFlags ctx).1 ∧
      (s.buildFlags ctx).1.reportFlags = s.reportFlags.eraseVolatile ∧
      kinds (s.buildFlags ctx).2 = s.plan := by
  obtain ⟨hmode, hflags, hkinds⟩ := buildAll_spec ctx s.types
    { s with reportFlags := s.reportFlags.eraseVolatile }
  refine ⟨⟨hmode.rtcpMode, hmode.sending, hmode.media⟩, hflags, ?_⟩
  have hall : kinds (s.buildFlags ctx).2
      = kinds (buildAll ctx { s with reportFlags := s.reportFlags.eraseVolatile } s.types).2 ++
        kinds (if s.types.any isXr then buildExtendedReports
          (buildAll ctx { s with reportFlags := s.reportFlags.eraseVolatile } s.types).1 ctx
          else []) ++
        kinds (if .bye ∈ s.types then buildBYE
          (buildAll ctx { s with reportFlags := s.reportFlags.eraseVolatile } s.types).1
          else []) := by
    simp only [kinds, ← List.map_append]
    rfl
  have happends : ({ s with reportFlags := s.reportFlags.eraseVolatile } : RtcpSender).appends
      = s.appends := SameMode.appends_eq ⟨rfl, rfl, rfl⟩
  rw [hall, hkinds, happends, plan]
  congr 1
  · congr 1
    split <;> rfl
  · split <;> rfl

end RtcpSender

/-! ## The protocol of one call -/

/-- What is asked of the kinds of the packets of a call: not both reports, in compound mode a
report first, and a BYE at the end only. -/
structure WellOrdered (mode : RtcpMode) (packets : List RtcpPacketType) : Prop where
  oneReport : ¬ (.sr ∈ packets ∧ .rr ∈ packets)
  leads : mode = .compound → packets ≠ [] →
    packets.head? = some .sr ∨ packets.head? = some .rr
  byeLast : .bye ∉ packets.dropLast

theorem wellOrdered_nil (mode : RtcpMode) : WellOrdered mode [] :=
  ⟨by simp, by simp, by simp⟩

namespace RtcpSender

variable {s : RtcpSender} {f : ReportFlag} {type : RtcpPacketType}

theorem pairwise_types (s : RtcpSender) : s.types.Pairwise fun a b => a.value < b.value :=
  List.pairwise_map.mpr s.reportFlags.sorted

theorem mem_types_of_mem_plan (h : type ∈ s.plan) (hxr : type ≠ .xrReceiverReferenceTime) :
    type ∈ s.types := by
  simp only [plan, List.mem_append, List.mem_filter] at h
  rcases h with (h | h) | h
  · exact h.1
  · split at h
    · exact absurd (List.mem_singleton.mp h) hxr
    · simp at h
  · by_cases hbye : .bye ∈ s.types
    · rw [if_pos hbye, List.mem_singleton] at h
      rwa [h]
    · rw [if_neg hbye] at h
      simp at h

/-- The packets of the loop begin with a report, if one is asked for and can be built: the
reports come first in the order of the flags, and the generic flag before them has no
builder. -/
theorem head?_filter_appends (h : ∃ report ∈ s.types, (report = .sr ∨ report = .rr) ∧
    s.appends report = true) :
    ∃ rest, s.types.filter s.appends = .sr :: rest ∨ s.types.filter s.appends = .rr :: rest := by
  obtain ⟨report, hmem, hreport, happends⟩ := h
  have hsorted := s.pairwise_types.filter (s.appends ·)
  have hin : report ∈ s.types.filter s.appends := List.mem_filter.mpr ⟨hmem, happends⟩
  cases hlist : s.types.filter s.appends with
  | nil => rw [hlist] at hin; simp at hin
  | cons first rest =>
    have hfirst : s.appends first = true :=
      (List.mem_filter.mp (by rw [hlist]; simp : first ∈ s.types.filter s.appends)).2
    rw [hlist] at hin hsorted
    have hle : first.value ≤ report.value := by
      rcases List.mem_cons.mp hin with rfl | hrest
      · exact Nat.le_refl _
      · exact Nat.le_of_lt ((List.pairwise_cons.mp hsorted).1 report hrest)
    have hfour : first.value ≤ 4 := by
      rcases hreport with rfl | rfl
      · exact Nat.le_trans hle (by decide)
      · exact hle
    refine ⟨rest, ?_⟩
    cases first with
    | sr => exact .inl rfl
    | rr => exact .inr rfl
    | rtcpReport => exact absurd hfirst (by simp [appends])
    | _ => exact absurd hfour (by decide)

theorem bye_not_mem_filter (s : RtcpSender) : .bye ∉ s.types.filter s.appends := by
  simp [appends]

theorem wellOrdered_plan (hone : ¬ (.sr ∈ s.types ∧ .rr ∈ s.types))
    (hreport : s.rtcpMode = .compound →
      ∃ report ∈ s.types, (report = .sr ∨ report = .rr) ∧ s.appends report = true) :
    WellOrdered s.rtcpMode s.plan := by
  refine ⟨fun h => hone ⟨mem_types_of_mem_plan h.1 (by decide),
    mem_types_of_mem_plan h.2 (by decide)⟩, fun hmode _ => ?_, ?_⟩
  · obtain ⟨rest, hrest⟩ := head?_filter_appends (hreport hmode)
    rcases hrest with hrest | hrest <;> simp [plan, hrest]
  · have hnone : .bye ∉ s.types.filter s.appends ++
        (if s.types.any isXr then [.xrReceiverReferenceTime] else []) := by
      rw [List.mem_append]
      rintro (h | h)
      · exact s.bye_not_mem_filter h
      · split at h <;> simp at h
    unfold plan
    by_cases hbye : .bye ∈ s.types
    · rw [if_pos hbye, List.dropLast_concat]
      exact hnone
    · rw [if_neg hbye, List.append_nil]
      exact fun h => hnone (List.dropLast_subset _ h)

/-! ## Preparing a report -/

/-- Only volatile flags are added, and none of them for a report. -/
structure Adds (s s' : RtcpSender) : Prop extends SameMode s s' where
  keeps : ∀ type ∈ s.types, type ∈ s'.types
  added : ∀ f ∈ s'.reportFlags.flags, f ∈ s.reportFlags.flags ∨
    (f.isVolatile = true ∧ f.type ≠ .sr ∧ f.type ≠ .rr)

theorem Adds.refl (s : RtcpSender) : Adds s s :=
  ⟨.refl s, fun _ h => h, fun _ h => .inl h⟩

theorem Adds.trans {s₁ s₂ s₃ : RtcpSender} (h : Adds s₁ s₂) (h' : Adds s₂ s₃) : Adds s₁ s₃ := by
  refine ⟨h.toSameMode.trans h'.toSameMode, fun t ht => h'.keeps t (h.keeps t ht), fun f hf => ?_⟩
  rcases h'.added f hf with hf | hf
  · exact h.added f hf
  · exact .inr hf

theorem adds_setFlag (hsr : type ≠ .sr) (hrr : type ≠ .rr) : Adds s (s.setFlag type true) := by
  refine ⟨sameMode_setFlag s type true, fun t ht => mem_types_setFlag.mpr (.inr ht), ?_⟩
  intro f hf
  rcases mem_setFlag.mp hf with hf | ⟨rfl, -⟩
  · exact .inl hf
  · exact .inr ⟨rfl, hsr, hrr⟩

variable {s' : RtcpSender}

theorem Adds.mem_types (h : Adds s s') (ht : type ∈ s'.types)
    (hreport : type = .sr ∨ type = .rr) : type ∈ s.types := by
  obtain ⟨f, hf, rfl⟩ := RtcpSender.mem_types.mp ht
  rcases h.added f hf with hf | ⟨-, hsr, hrr⟩
  · exact RtcpSender.mem_types.mpr ⟨f, hf, rfl⟩
  · rcases hreport with h | h
    · exact absurd h hsr
    · exact absurd h hrr

theorem adds_accompanyReport (s : RtcpSender) (ctx : RtcpContext) (generateReport : Bool) :
    Adds s (s.accompanyReport ctx generateReport) := by
  unfold accompanyReport
  have hsdes : Adds s (if !s.isFlagPresent .sdes &&
      (s.isFlagPresent .sr || (s.isFlagPresent .rr && !s.cname.isEmpty)) then
      s.setFlag .sdes true else s) := by
    split
    · exact adds_setFlag (by decide) (by decide)
    · exact .refl s
  refine hsdes.trans ?_
  generalize (if !s.isFlagPresent .sdes &&
      (s.isFlagPresent .sr || (s.isFlagPresent .rr && !s.cname.isEmpty)) then
      s.setFlag .sdes true else s) = s₁
  cases generateReport with
  | false => exact .refl s₁
  | true =>
    have hrrtr : Adds s₁ (if s₁.sending then s₁ else s₁.setFlag .xrReceiverReferenceTime true) := by
      split
      · exact .refl s₁
      · exact adds_setFlag (by decide) (by decide)
    refine hrrtr.trans ?_
    dsimp only
    rw [if_pos rfl]
    by_cases hempty : ctx.lastXrRtis.isEmpty = true
    · rw [if_pos hempty]
      exact .refl _
    · rw [if_neg hempty]
      exact adds_setFlag (by decide) (by decide)

/-- The flags before a report is prepared: at most one type was asked for besides what is
pending, and a sender report only after media. -/
structure Ready (s : RtcpSender) (type : RtcpPacketType) : Prop where
  asked : ∀ f ∈ s.reportFlags.flags,
    f = ⟨.lossNotification, true⟩ ∨ f = ⟨.remb, false⟩ ∨ f = ⟨type, true⟩
  media : s.lastFrameCaptureTimeMs = none →
    .sr ∉ s.types ∧ ¬ (s.sending = true ∧ s.rtcpMode = .compound)

theorem Ready.eq_type (h : Ready s type) {t : RtcpPacketType} (ht : t ∈ s.types)
    (hln : t ≠ .lossNotification) (hremb : t ≠ .remb) : t = type := by
  obtain ⟨f, hf, rfl⟩ := mem_types.mp ht
  rcases h.asked f hf with rfl | rfl | rfl
  · exact absurd rfl hln
  · exact absurd rfl hremb
  · rfl

/-- What a report needs: one kind of it, in compound mode one that can be built. -/
structure Reporting (s : RtcpSender) : Prop where
  one : ¬ (.sr ∈ s.types ∧ .rr ∈ s.types)
  report : s.rtcpMode = .compound →
    ∃ report ∈ s.types, (report = .sr ∨ report = .rr) ∧ s.appends report = true

theorem Adds.reporting (h : Adds s s') (hs : Reporting s) : Reporting s' := by
  refine ⟨fun hboth => hs.one ⟨h.mem_types hboth.1 (.inl rfl), h.mem_types hboth.2 (.inr rfl)⟩, ?_⟩
  intro hmode
  obtain ⟨report, hmem, hreport, happends⟩ := hs.report (h.rtcpMode ▸ hmode)
  exact ⟨report, h.keeps report hmem, hreport, by rw [h.toSameMode.appends_eq]; exact happends⟩

theorem chooseReport_spec (h : Ready s type) :
    SameMode s s.chooseReport.1 ∧ Reporting s.chooseReport.1 ∧
      ∀ f ∈ s.chooseReport.1.reportFlags.flags, f ∈ s.reportFlags.flags ∨ f.isVolatile = true := by
  unfold chooseReport
  by_cases hexplicit : (s.isFlagPresent .sr || s.isFlagPresent .rr) = true
  · rw [if_pos hexplicit]
    refine ⟨.refl s, ⟨fun hboth => ?_, fun _ => ?_⟩, fun f hf => .inl hf⟩
    · have hsr := h.eq_type hboth.1 (by decide) (by decide)
      have hrr := h.eq_type hboth.2 (by decide) (by decide)
      exact absurd (hsr.trans hrr.symm) (by decide)
    · simp only [Bool.or_eq_true, isFlagPresent_iff] at hexplicit
      rcases hexplicit with hsr | hrr
      · refine ⟨.sr, hsr, .inl rfl, ?_⟩
        cases hmedia : s.lastFrameCaptureTimeMs with
        | none => exact absurd hsr (h.media hmedia).1
        | some _ => simp [appends, hmedia]
      · exact ⟨.rr, hrr, .inr rfl, rfl⟩
  · rw [if_neg hexplicit]
    have habsent : .sr ∉ s.types ∧ .rr ∉ s.types := by
      simp only [Bool.or_eq_true, isFlagPresent_iff] at hexplicit
      exact not_or.mp hexplicit
    obtain ⟨-, hflags, hmode⟩ := s.consumeFlag_spec .rtcpReport false
    generalize hconsume : s.consumeFlag .rtcpReport false = consumed at hflags hmode
    obtain ⟨s₁, found⟩ := consumed
    have hsub : ∀ t ∈ s₁.types, t ∈ s.types := by
      intro t ht
      obtain ⟨f, hf, rfl⟩ := mem_types.mp ht
      exact mem_types.mpr ⟨f, ((hflags f).mp hf).1, rfl⟩
    dsimp only at hflags hmode ⊢
    by_cases hset : ((found && s₁.rtcpMode == .reducedSize) || s₁.rtcpMode == .compound) = true
    · rw [if_pos hset]
      refine ⟨hmode.trans (sameMode_setFlag ..), ⟨fun hboth => ?_, fun hcompound => ?_⟩, ?_⟩
      · -- the flag set is the only one of a report
        have hcase {t : RtcpPacketType} (ht : t ∈ (s₁.setFlag (if s₁.sending = true then .sr
            else .rr) true).types) (habs : t ∉ s.types) :
            t = if s₁.sending = true then .sr else .rr := by
          rcases mem_types_setFlag.mp ht with heq | ht
          · exact heq
          · exact absurd (hsub t ht) habs
        have hsr := hcase hboth.1 habsent.1
        have hrr := hcase hboth.2 habsent.2
        exact absurd (hsr.trans hrr.symm) (by decide)
      · refine ⟨if s₁.sending = true then .sr else .rr, mem_types_setFlag.mpr (.inl rfl), ?_, ?_⟩
        · split <;> simp
        · rw [(sameMode_setFlag ..).appends_eq, hmode.appends_eq]
          split
          · rename_i hsending
            cases hmedia : s.lastFrameCaptureTimeMs with
            | none =>
              have hcompound' : s₁.rtcpMode = .compound := hcompound
              exact absurd ⟨hmode.sending ▸ hsending, hmode.rtcpMode ▸ hcompound'⟩
                (h.media hmedia).2
            | some _ => simp [appends, hmedia]
          · rfl
      · intro f hf
        rcases mem_setFlag.mp hf with hf | ⟨rfl, -⟩
        · exact .inl ((hflags f).mp hf).1
        · exact .inr rfl
    · rw [if_neg hset]
      refine ⟨hmode, ⟨fun hboth => habsent.1 (hsub _ hboth.1), fun hcompound => ?_⟩,
        fun f hf => .inl ((hflags f).mp hf).1⟩
      rw [hcompound] at hset
      simp at hset

theorem prepareReport_spec (asserts : Bool) (ctx : RtcpContext) (h : Ready s type) :
    ∃ s', s.prepareReport asserts ctx = some s' ∧ SameMode s s' ∧ Reporting s' ∧
      ∀ f ∈ s'.reportFlags.flags, f ∈ s.reportFlags.flags ∨ f.isVolatile = true := by
  obtain ⟨hmode, hreporting, hflags⟩ := chooseReport_spec h
  have hadds := adds_accompanyReport s.chooseReport.1 ctx s.chooseReport.2
  have hreporting' := hadds.reporting hreporting
  have hfirst : ¬ (asserts && (s.isFlagPresent .sr || s.isFlagPresent .rr) &&
      s.isFlagPresent .rtcpReport) = true := by
    simp only [Bool.and_eq_true, Bool.or_eq_true, isFlagPresent_iff]
    rintro ⟨⟨-, hexplicit⟩, hreport⟩
    have heq := h.eq_type hreport (by decide) (by decide)
    rcases hexplicit with hsr | hrr
    · exact absurd ((h.eq_type hsr (by decide) (by decide)).trans heq.symm) (by decide)
    · exact absurd ((h.eq_type hrr (by decide) (by decide)).trans heq.symm) (by decide)
  have hflags' : ∀ f ∈ (s.chooseReport.1.accompanyReport ctx s.chooseReport.2).reportFlags.flags,
      f ∈ s.reportFlags.flags ∨ f.isVolatile = true := by
    intro f hf
    rcases hadds.added f hf with hf | hf
    · exact hflags f hf
    · exact .inr hf.1
  unfold prepareReport
  rw [if_neg hfirst]
  dsimp only
  by_cases hzero : (s.chooseReport.1.accompanyReport ctx s.chooseReport.2).delayToNextMs ctx = 0
  · rw [if_pos hzero]
    exact ⟨_, rfl, hmode.trans hadds.toSameMode, hreporting', hflags'⟩
  · rw [if_neg hzero, if_neg]
    · refine ⟨_, rfl, hmode.trans (hadds.toSameMode.trans ⟨rfl, rfl, rfl⟩), ?_, hflags'⟩
      exact ⟨hreporting'.one, hreporting'.report⟩
    · simp only [Bool.and_eq_true, isFlagPresent_iff]
      exact fun hboth => hreporting'.one ⟨hboth.1.2, hboth.2⟩

/-! ## Calls -/

/-- A sending sender in compound mode that has sent no media, and may not send RTCP. -/
def BeforeMedia (s : RtcpSender) : Prop :=
  s.rtcpMode = .compound ∧ s.sending = true ∧ s.lastFrameCaptureTimeMs = none

/-- Between calls, a loss notification may be pending, and a REMB is sent with every packet. -/
def Settled (s : RtcpSender) : Prop :=
  ∀ f ∈ s.reportFlags.flags, f = ⟨.lossNotification, true⟩ ∨ f = ⟨.remb, false⟩

theorem withholdReport_spec (s : RtcpSender) :
    SameMode s s.withholdReport.1 ∧
    (∀ f, f ∈ s.withholdReport.1.reportFlags.flags ↔ f ∈ s.reportFlags.flags ∧
      (f.type = .sr → f.isVolatile = false) ∧
      (s.sending = true → f.type = .rtcpReport → f.isVolatile = false)) ∧
    (s.withholdReport.2 = true → s.withholdReport.1.allVolatileFlagsConsumed = true ∨
      (s.sending = true ∧ s.rtcpMode = .compound)) ∧
    (s.sending = true ∧ s.rtcpMode = .compound → s.withholdReport.2 = true) := by
  obtain ⟨-, hsr, hmode⟩ := s.consumeFlag_spec .sr false
  unfold withholdReport
  generalize s.consumeFlag .sr false = first at hsr hmode ⊢
  obtain ⟨s₁, consumedSr⟩ := first
  dsimp only at hsr hmode ⊢
  -- the second flag is consumed by a sending sender only
  have hsecond : ∃ s₂ consumedReport, (if s₁.sending = true then s₁.consumeFlag .rtcpReport false
        else (s₁, false)) = (s₂, consumedReport) ∧ SameMode s₁ s₂ ∧
      ∀ f, f ∈ s₂.reportFlags.flags ↔ f ∈ s₁.reportFlags.flags ∧
        (s.sending = true → f.type = .rtcpReport → f.isVolatile = false) := by
    rw [hmode.sending]
    by_cases hsending : s.sending = true
    · obtain ⟨-, hreport, hmode'⟩ := s₁.consumeFlag_spec .rtcpReport false
      rw [if_pos hsending]
      refine ⟨(s₁.consumeFlag .rtcpReport false).1, (s₁.consumeFlag .rtcpReport false).2, rfl,
        hmode', fun f => ?_⟩
      simpa [hsending] using hreport f
    · rw [if_neg hsending]
      exact ⟨s₁, false, rfl, .refl s₁, fun f => by simp [hsending]⟩
  obtain ⟨s₂, consumedReport, heq, hmode', hreport⟩ := hsecond
  rw [heq]
  dsimp only
  have hsame := hmode.trans hmode'
  have hflags : ∀ f, f ∈ s₂.reportFlags.flags ↔ f ∈ s.reportFlags.flags ∧
      (f.type = .sr → f.isVolatile = false) ∧
      (s.sending = true → f.type = .rtcpReport → f.isVolatile = false) := by
    intro f
    rw [hreport, hsr, and_assoc]
    simp
  by_cases hfirst : ((consumedReport || consumedSr) && s₂.allVolatileFlagsConsumed) = true
  · rw [if_pos hfirst]
    simp only [Bool.and_eq_true] at hfirst
    exact ⟨hsame, hflags, fun _ => .inl hfirst.2, fun _ => rfl⟩
  rw [if_neg hfirst, hsame.sending, hsame.rtcpMode]
  by_cases hexit : (s.sending && s.rtcpMode == .compound) = true
  · rw [if_pos hexit]
    simp only [Bool.and_eq_true, beq_iff_eq] at hexit
    exact ⟨hsame, hflags, fun _ => .inr hexit, fun _ => rfl⟩
  · rw [if_neg hexit]
    simp only [Bool.and_eq_true, beq_iff_eq] at hexit
    exact ⟨hsame, hflags, fun h => absurd h (by simp), fun h => absurd h hexit⟩

theorem buildCompoundRtcpPacket_beforeMedia (asserts : Bool) (h : BeforeMedia s)
    (nackList : List U16) (providers : Providers) :
    ∃ s', s.buildCompoundRtcpPacket asserts type nackList providers = some (s', false, []) ∧
      s'.rtcpMode = s.rtcpMode ∧
      ∀ f, f ∈ s'.reportFlags.flags ↔
        f ∈ (s.setFlag type true).reportFlags.flags ∧ (f.type = .sr → f.isVolatile = false) ∧
          (f.type = .rtcpReport → f.isVolatile = false) := by
  obtain ⟨hmode, hsending, hmedia⟩ := h
  obtain ⟨hsame, hflags, -, hreturn⟩ := (s.setFlag type true).withholdReport_spec
  refine ⟨(s.setFlag type true).withholdReport.1, ?_, hsame.rtcpMode, fun f => ?_⟩
  · unfold buildCompoundRtcpPacket
    have hoff : s.rtcpMode ≠ .off := by rw [hmode]; decide
    have hnone : (s.setFlag type true).lastFrameCaptureTimeMs = none := hmedia
    rw [if_neg hoff]
    dsimp only
    rw [hnone]
    simp only [Option.isSome_none, Bool.false_eq_true, if_false]
    rw [if_pos (hreturn ⟨hsending, hmode⟩)]
  · rw [hflags]
    exact and_congr_right fun _ => and_congr_right fun _ => by
      simp [show (s.setFlag type true).sending = true from hsending]

theorem ready_of_settled {s₁ : RtcpSender} (hs : Settled s) (hsame : SameMode s s₁)
    (hsub : ∀ f ∈ s₁.reportFlags.flags, f ∈ (s.setFlag type true).reportFlags.flags)
    (hmedia : s.lastFrameCaptureTimeMs = none →
      (∀ f ∈ s₁.reportFlags.flags, f.type = .sr → f.isVolatile = false) ∧
        ¬ (s.sending = true ∧ s.rtcpMode = .compound)) : Ready s₁ type := by
  have hasked : ∀ f ∈ s₁.reportFlags.flags,
      f = ⟨.lossNotification, true⟩ ∨ f = ⟨.remb, false⟩ ∨ f = ⟨type, true⟩ := by
    intro f hf
    rcases mem_setFlag.mp (hsub f hf) with hf | ⟨rfl, -⟩
    · rcases hs f hf with h | h
      · exact .inl h
      · exact .inr (.inl h)
    · exact .inr (.inr rfl)
  refine ⟨hasked, fun hnone => ?_⟩
  obtain ⟨hsr, hexit⟩ := hmedia (hsame.media ▸ hnone)
  refine ⟨fun hmem => ?_, by rw [hsame.sending, hsame.rtcpMode]; exact hexit⟩
  obtain ⟨f, hf, htype⟩ := mem_types.mp hmem
  have hvolatile := hsr f hf htype
  rcases hasked f hf with rfl | rfl | rfl
  · exact absurd htype (by decide)
  · exact absurd htype (by decide)
  · exact Bool.noConfusion hvolatile

theorem buildFlags_ready (asserts : Bool) (ctx : RtcpContext) (h : Ready s type) :
    ∃ s' packets, (match s.prepareReport asserts ctx with
        | none => none
        | some s =>
          let (s, packets) := s.buildFlags ctx
          if asserts && !s.allVolatileFlagsConsumed then none
          else some (s, true, packets)) = some (s', true, packets) ∧
      s'.rtcpMode = s.rtcpMode ∧
      (∀ f ∈ s'.reportFlags.flags, f ∈ s.reportFlags.flags ∧ f.isVolatile = false) ∧
      WellOrdered s.rtcpMode (kinds packets) := by
  obtain ⟨s₁, hprepare, hsame, hreporting, hflags⟩ := prepareReport_spec asserts ctx h
  obtain ⟨hsame', herase, hkinds⟩ := s₁.buildFlags_spec ctx
  have hleft : ∀ f ∈ (s₁.buildFlags ctx).1.reportFlags.flags,
      f ∈ s.reportFlags.flags ∧ f.isVolatile = false := by
    intro f hf
    rw [herase, ReportFlags.mem_eraseVolatile] at hf
    rcases hflags f hf.1 with h | h
    · exact ⟨h, hf.2⟩
    · rw [hf.2] at h
      exact absurd h (by decide)
  refine ⟨(s₁.buildFlags ctx).1, (s₁.buildFlags ctx).2, ?_,
    hsame'.rtcpMode.trans hsame.rtcpMode, hleft, ?_⟩
  · have hconsumed : (s₁.buildFlags ctx).1.allVolatileFlagsConsumed = true :=
      allVolatileFlagsConsumed_iff.mpr fun f hf => (hleft f hf).2
    rw [hprepare]
    simp [hconsumed]
  · rw [hkinds, ← hsame.rtcpMode]
    exact wellOrdered_plan hreporting.one hreporting.report

/-- **One compound packet**, of a settled sender that may send: no failed assertion, no
volatile flag left, and the packets are in order. -/
theorem buildCompoundRtcpPacket_spec (asserts : Bool) (hoff : s.rtcpMode ≠ .off) (hs : Settled s)
    (hmay : ¬ BeforeMedia s) (nackList : List U16) (providers : Providers) :
    ∃ s' result packets,
      s.buildCompoundRtcpPacket asserts type nackList providers = some (s', result, packets) ∧
      s'.rtcpMode = s.rtcpMode ∧
      (∀ f ∈ s'.reportFlags.flags, f ∈ s.reportFlags.flags ∧ f.isVolatile = false) ∧
      WellOrdered s.rtcpMode (kinds packets) := by
  have hback {f : ReportFlag} (hf : f ∈ (s.setFlag type true).reportFlags.flags)
      (hvolatile : f.isVolatile = false) : f ∈ s.reportFlags.flags := by
    rcases mem_setFlag.mp hf with hf | ⟨rfl, -⟩
    · exact hf
    · exact Bool.noConfusion hvolatile
  unfold buildCompoundRtcpPacket
  rw [if_neg hoff]
  dsimp only
  cases hmedia : s.lastFrameCaptureTimeMs with
  | some captureTimeMs =>
    have hsome : (s.setFlag type true).lastFrameCaptureTimeMs.isSome = true := by
      rw [show (s.setFlag type true).lastFrameCaptureTimeMs = s.lastFrameCaptureTimeMs from rfl,
        hmedia]
      rfl
    have hready : Ready (s.setFlag type true) type :=
      ready_of_settled hs (sameMode_setFlag ..) (fun _ hf => hf)
        fun hnone => by rw [hmedia] at hnone; exact absurd hnone (by simp)
    obtain ⟨s', packets, heq, hmode, hleft, hordered⟩ := buildFlags_ready asserts
      { providers with nackList := nackList } hready
    refine ⟨s', true, packets, ?_, hmode, fun f hf => ?_, hordered⟩
    · rw [if_pos hsome]
      exact heq
    · exact ⟨hback (hleft f hf).1 (hleft f hf).2, (hleft f hf).2⟩
  | none =>
    have hnone : (s.setFlag type true).lastFrameCaptureTimeMs.isSome = false := by
      rw [show (s.setFlag type true).lastFrameCaptureTimeMs = s.lastFrameCaptureTimeMs from rfl,
        hmedia]
      rfl
    obtain ⟨hsame, hflags, hreturn, -⟩ := (s.setFlag type true).withholdReport_spec
    have hexit : ¬ (s.sending = true ∧ s.rtcpMode = .compound) :=
      fun h => hmay ⟨h.2, h.1, hmedia⟩
    rw [hnone]
    simp only [Bool.false_eq_true, if_false]
    by_cases hreturned : (s.setFlag type true).withholdReport.2 = true
    · rw [if_pos hreturned]
      have hconsumed := (hreturn hreturned).resolve_right hexit
      rw [allVolatileFlagsConsumed_iff] at hconsumed
      exact ⟨_, false, [], rfl, hsame.rtcpMode,
        fun f hf => ⟨hback ((hflags f).mp hf).1 (hconsumed f hf), hconsumed f hf⟩,
        wellOrdered_nil _⟩
    · rw [if_neg hreturned]
      have hready : Ready (s.setFlag type true).withholdReport.1 type :=
        ready_of_settled hs ((sameMode_setFlag ..).trans hsame)
          (fun f hf => ((hflags f).mp hf).1)
          fun _ => ⟨fun f hf => ((hflags f).mp hf).2.1, hexit⟩
      obtain ⟨s', packets, heq, hmode, hleft, hordered⟩ := buildFlags_ready asserts
        { providers with nackList := nackList } hready
      refine ⟨s', true, packets, heq, hmode.trans hsame.rtcpMode, fun f hf => ?_, ?_⟩
      · exact ⟨hback ((hflags f).mp (hleft f hf).1).1 (hleft f hf).2, (hleft f hf).2⟩
      · rw [hsame.rtcpMode] at hordered
        exact hordered

/-! ## Runs -/

/-- Whether a call is one of `SendRtcp` or an unbuffered `SendLossNotification`, or leads to
one. -/
def sends (s : RtcpSender) : Call → Bool
  | .sendRtcp .. => true
  | .sendLossNotification _ _ _ bufferingAllowed _ => !bufferingAllowed
  | .setSending enable _ => s.rtcpMode != .off && !enable && s.sending
  | _ => false

/-- The protocol of one call: after a call that sends, unless RTCP is off, no volatile flag
is left; and the packets are in order. -/
def Respects (s : RtcpSender) (c : Call) (outcome : Outcome) : Prop :=
  (s.sends c = true → outcome.1.rtcpMode ≠ .off → outcome.1.allVolatileFlagsConsumed = true) ∧
    WellOrdered outcome.1.rtcpMode (kinds outcome.2.2)

/-- A step of a run that has not failed an assertion, fails none and keeps to the protocol. -/
def RespectsAt (asserts : Bool) (s : Option RtcpSender) (c : Call) : Prop :=
  ∃ sender outcome, s = some sender ∧ sender.call asserts c = some outcome ∧
    sender.Respects c outcome

/-- A call that the early returns do not break off with a flag pending.  Before media, only a
report may be asked for (or a REMB that is sent anyway), with no loss notification pending;
and no unbuffered loss notification may be refused while another one is pending. -/
def Proper (s : RtcpSender) : Call → Prop
  | .sendRtcp type _ _ => BeforeMedia s →
    s.allVolatileFlagsConsumed = true ∧ (type = .sr ∨ type = .rtcpReport ∨ type ∈ s.types)
  | .sendLossNotification lastDecoded lastReceived _ bufferingAllowed _ =>
    bufferingAllowed = false →
      if 0x7fff < (lastReceived - lastDecoded).toNat then
        s.rtcpMode ≠ .off → s.allVolatileFlagsConsumed = true
      else ¬ BeforeMedia s
  | _ => True

/-- A proper call of a sender. -/
def ProperAt (s : Option RtcpSender) (c : Call) : Prop :=
  ∀ sender, s = some sender → sender.Proper c

theorem Settled.mono (hs : Settled s)
    (hsub : ∀ f ∈ s'.reportFlags.flags, f ∈ s.reportFlags.flags) : Settled s' :=
  fun f hf => hs f (hsub f hf)

/-- `SendRtcp` by a settled sender: it stays settled, and the call keeps to the protocol
exactly if it is proper. -/
theorem sendRtcp_spec (asserts : Bool) (hs : Settled s) (nackList : List U16)
    (providers : Providers) :
    ∃ s' result packets, s.sendRtcp asserts type nackList providers = some (s', result, packets) ∧
      s'.rtcpMode = s.rtcpMode ∧ WellOrdered s.rtcpMode (kinds packets) ∧
      ((s.rtcpMode ≠ .off → s'.allVolatileFlagsConsumed = true) ↔
        (BeforeMedia s → s.allVolatileFlagsConsumed = true ∧
          (type = .sr ∨ type = .rtcpReport ∨ type ∈ s.types))) ∧
      ((s.rtcpMode ≠ .off → s'.allVolatileFlagsConsumed = true) → Settled s') := by
  by_cases hoff : s.rtcpMode = .off
  · refine ⟨s, false, [], if_pos hoff, rfl, wellOrdered_nil _, ?_, fun _ => hs⟩
    refine ⟨fun _ hbefore => ?_, fun _ hne => absurd hoff hne⟩
    rw [hbefore.1] at hoff
    exact absurd hoff (by decide)
  by_cases hbefore : BeforeMedia s
  · obtain ⟨s', heq, hmode, hflags⟩ :=
      @buildCompoundRtcpPacket_beforeMedia s type asserts hbefore nackList providers
    have hmine {f : ReportFlag} (hf : f ∈ s.reportFlags.flags) : f ∈ s'.reportFlags.flags := by
      rw [hflags]
      refine ⟨mem_setFlag.mpr (.inl hf), ?_, ?_⟩ <;> intro htype <;>
        rcases hs f hf with rfl | rfl <;> exact absurd htype (by decide)
    refine ⟨s', false, [], heq, hmode, wellOrdered_nil _, ?_, ?_⟩
    · rw [allVolatileFlagsConsumed_iff, allVolatileFlagsConsumed_iff]
      constructor
      · intro hquiet _
        refine ⟨fun f hf => hquiet hoff f (hmine hf), ?_⟩
        by_contra hother
        simp only [not_or] at hother
        obtain ⟨hsr, hreport, habsent⟩ := hother
        have hleft : (⟨type, true⟩ : ReportFlag) ∈ s'.reportFlags.flags := by
          rw [hflags]
          exact ⟨mem_setFlag.mpr (.inr ⟨rfl, habsent⟩), fun h => absurd h hsr,
            fun h => absurd h hreport⟩
        exact Bool.noConfusion (hquiet hoff _ hleft)
      · intro hproper _ f hf
        obtain ⟨hquiet, hasked⟩ := hproper hbefore
        obtain ⟨hset, hsr, hreport⟩ := (hflags f).mp hf
        rcases mem_setFlag.mp hset with hmem | ⟨rfl, habsent⟩
        · exact hquiet f hmem
        · rcases hasked with rfl | rfl | hmem
          · exact hsr rfl
          · exact hreport rfl
          · exact absurd hmem habsent
    · intro hquiet f hf
      have hfquiet := allVolatileFlagsConsumed_iff.mp (hquiet hoff) f hf
      rcases mem_setFlag.mp ((hflags f).mp hf).1 with hmem | ⟨rfl, -⟩
      · exact hs f hmem
      · exact Bool.noConfusion hfquiet
  · obtain ⟨s', result, packets, heq, hmode, hleft, hordered⟩ :=
      @buildCompoundRtcpPacket_spec s type asserts hoff hs hbefore nackList providers
    have hquiet : s'.allVolatileFlagsConsumed = true :=
      allVolatileFlagsConsumed_iff.mpr fun f hf => (hleft f hf).2
    exact ⟨s', result, packets, heq, hmode, hordered,
      ⟨fun _ h => absurd h hbefore, fun _ _ => hquiet⟩,
      fun _ => hs.mono fun f hf => (hleft f hf).1⟩

theorem settled_setFlag_lossNotification (hs : Settled s) :
    Settled (s.setFlag .lossNotification true) := by
  intro f hf
  rcases mem_setFlag.mp hf with hf | ⟨rfl, -⟩
  · exact hs f hf
  · exact .inl rfl

theorem pending_setFlag_lossNotification (hs : Settled s) :
    (⟨.lossNotification, true⟩ : ReportFlag) ∈
      (s.setFlag .lossNotification true).reportFlags.flags := by
  rw [mem_setFlag]
  by_cases hpresent : .lossNotification ∈ s.types
  · obtain ⟨f, hf, htype⟩ := mem_types.mp hpresent
    rcases hs f hf with rfl | rfl
    · exact .inl hf
    · exact absurd htype (by decide)
  · exact .inr ⟨rfl, hpresent⟩

theorem respects_silent {c : Call} (hsends : s.sends c = false) (s' : RtcpSender) (result : Bool) :
    s.Respects c (s', result, []) := by
  refine ⟨fun h => ?_, wellOrdered_nil _⟩
  rw [hsends] at h
  exact absurd h (by decide)

theorem sendLossNotification_spec (asserts : Bool) (hs : Settled s) (lastDecoded lastReceived : U16)
    (decodabilityFlag bufferingAllowed : Bool) (providers : Providers) :
    ∃ outcome, s.sendLossNotification asserts lastDecoded lastReceived decodabilityFlag
        bufferingAllowed providers = some outcome ∧
      (s.Respects (.sendLossNotification lastDecoded lastReceived decodabilityFlag
          bufferingAllowed providers) outcome ↔
        s.Proper (.sendLossNotification lastDecoded lastReceived decodabilityFlag
          bufferingAllowed providers)) ∧
      (s.Respects (.sendLossNotification lastDecoded lastReceived decodabilityFlag
          bufferingAllowed providers) outcome → Settled outcome.1) := by
  unfold sendLossNotification setLossNotification
  by_cases hrefused : 0x7fff < (lastReceived - lastDecoded).toNat
  · rw [if_pos hrefused]
    refine ⟨(s, false, []), rfl, ?_, fun _ => hs⟩
    cases bufferingAllowed with
    | true =>
      exact ⟨fun _ h => absurd h (by decide), fun _ => respects_silent rfl s false⟩
    | false =>
      simp only [Proper, if_pos hrefused]
      exact ⟨fun h _ => h.1 rfl, fun h => ⟨fun _ => h trivial, wellOrdered_nil _⟩⟩
  · rw [if_neg hrefused]
    dsimp only
    generalize hset : ({ s with lossNotification := { s.lossNotification with
      lastDecoded := lastDecoded, lastReceived := lastReceived
      decodabilityFlag := decodabilityFlag } } : RtcpSender) = s₁
    have hs₁ : Settled s₁ := by
      subst hset
      exact hs
    have hbefore : BeforeMedia (s₁.setFlag .lossNotification true) ↔ BeforeMedia s := by
      subst hset
      exact Iff.rfl
    have hmode₁ : (s₁.setFlag .lossNotification true).rtcpMode = s.rtcpMode := by
      subst hset
      rfl
    cases bufferingAllowed with
    | true =>
      refine ⟨(s₁.setFlag .lossNotification true, true, []), rfl, ?_, ?_⟩
      · exact ⟨fun _ h => absurd h (by decide), fun _ => respects_silent rfl _ true⟩
      · exact fun _ => settled_setFlag_lossNotification hs₁
    | false =>
      obtain ⟨s', result, packets, heq, hmode, hordered, hquiet, hsettled⟩ :=
        @sendRtcp_spec (s₁.setFlag .lossNotification true) .lossNotification asserts
          (settled_setFlag_lossNotification hs₁) [] providers
      refine ⟨(s', result, packets), heq, ?_, ?_⟩
      · have hpending : ¬ (s₁.setFlag .lossNotification true).allVolatileFlagsConsumed = true := by
          rw [allVolatileFlagsConsumed_iff]
          exact fun h => Bool.noConfusion (h _ (pending_setFlag_lossNotification hs₁))
        have hiff : ((s₁.setFlag .lossNotification true).rtcpMode ≠ .off →
            s'.allVolatileFlagsConsumed = true) ↔ ¬ BeforeMedia s := by
          rw [hquiet, hbefore]
          exact ⟨fun h hb => hpending (h hb).1, fun h hb => absurd hb h⟩
        simp only [Proper, if_neg hrefused]
        constructor
        · intro h _
          exact hiff.mp fun hoff => h.1 rfl (by rw [hmode]; exact hoff)
        · intro h
          refine ⟨fun _ hoff => hiff.mpr (h trivial) (by rw [← hmode]; exact hoff), ?_⟩
          rw [hmode]
          exact hordered
      · intro h
        exact hsettled fun hoff => h.1 rfl (by rw [hmode]; exact hoff)

/-- **One call of a settled sender** fails no assertion; it keeps to the protocol exactly if
it is proper, and then leaves a settled sender. -/
theorem call_spec (asserts : Bool) (hs : Settled s) (c : Call) :
    ∃ outcome, s.call asserts c = some outcome ∧ (s.Respects c outcome ↔ s.Proper c) ∧
      (s.Respects c outcome → Settled outcome.1) := by
  cases c with
  | sendRtcp type nackList providers =>
    obtain ⟨s', result, packets, heq, hmode, hordered, hquiet, hsettled⟩ :=
      @sendRtcp_spec s type asserts hs nackList providers
    refine ⟨(s', result, packets), heq, ?_, ?_⟩
    · refine Iff.trans ⟨fun h hoff => h.1 rfl (by rw [hmode]; exact hoff), fun h => ?_⟩ hquiet
      refine ⟨fun _ hoff => h (by rw [← hmode]; exact hoff), ?_⟩
      rw [hmode]
      exact hordered
    · exact fun h => hsettled fun hoff => h.1 rfl (by rw [hmode]; exact hoff)
  | sendLossNotification lastDecoded lastReceived decodabilityFlag bufferingAllowed providers =>
    exact sendLossNotification_spec asserts hs lastDecoded lastReceived decodabilityFlag
      bufferingAllowed providers
  | setRemb bitrateBps ssrcs nowMs =>
    refine ⟨_, rfl, ⟨fun _ => trivial, fun _ => respects_silent rfl _ _⟩, fun _ f hf => ?_⟩
    rcases ReportFlags.mem_insert.mp hf with hf | ⟨rfl, -⟩
    · exact hs f hf
    · exact .inr rfl
  | unsetRemb =>
    refine ⟨_, rfl, ⟨fun _ => trivial, fun _ => respects_silent rfl _ _⟩, fun _ => ?_⟩
    exact hs.mono fun f hf => (((s.consumeFlag_spec .remb true).2.1 f).mp hf).1
  | setSending enable providers =>
    by_cases hbye : (s.rtcpMode != .off && !enable && s.sending) = true
    · have hoff : s.rtcpMode ≠ .off := by
        simp only [Bool.and_eq_true, bne_iff_ne] at hbye
        exact hbye.1.1
      have hbefore : ¬ BeforeMedia { s with sending := enable } := by
        rintro ⟨-, hsending, -⟩
        simp only [Bool.and_eq_true, Bool.not_eq_true'] at hbye
        have henable : enable = true := hsending
        rw [hbye.1.2] at henable
        exact absurd henable (by decide)
      have hs' : Settled { s with sending := enable } := hs
      obtain ⟨s', result, packets, heq, hmode, hordered, hquiet, hsettled⟩ :=
        @sendRtcp_spec { s with sending := enable } .bye asserts hs' [] providers
      have hconsumed : s'.allVolatileFlagsConsumed = true :=
        hquiet.mpr (fun h => absurd h hbefore) hoff
      refine ⟨(s', result, packets), ?_, ⟨fun _ => trivial, fun _ => ?_⟩,
        fun _ => hsettled fun _ => hconsumed⟩
      · simp only [call, setSending]
        rw [if_pos hbye]
        exact heq
      · refine ⟨fun _ _ => hconsumed, ?_⟩
        rw [hmode]
        exact hordered
    · refine ⟨({ s with sending := enable }, true, []), ?_,
        ⟨fun _ => trivial, fun _ => respects_silent (by simpa [sends] using hbye) _ _⟩,
        fun _ => hs⟩
      simp only [call, setSending]
      rw [if_neg hbye]
  | setRtcpMode mode nowMs =>
    refine ⟨_, rfl, ⟨fun _ => trivial, fun _ => respects_silent rfl _ _⟩, fun _ => ?_⟩
    refine hs.mono fun f hf => ?_
    simp only [setRtcpMode] at hf
    split_ifs at hf <;> exact hf
  | setLastRtpTime rtpTimestamp captureTimeMs rtpPayloadType nowMs =>
    exact ⟨_, rfl, ⟨fun _ => trivial, fun _ => respects_silent rfl _ _⟩, fun _ => hs⟩
  | setRemoteSsrc ssrc =>
    exact ⟨_, rfl, ⟨fun _ => trivial, fun _ => respects_silent rfl _ _⟩, fun _ => hs⟩
  | setCname cname cname_lt =>
    exact ⟨_, rfl, ⟨fun _ => trivial, fun _ => respects_silent rfl _ _⟩, fun _ => hs⟩
  | setCsrcs csrcs =>
    exact ⟨_, rfl, ⟨fun _ => trivial, fun _ => respects_silent rfl _ _⟩, fun _ => hs⟩
  | setRtpClockRate rtpPayloadType rtpClockRateHz =>
    exact ⟨_, rfl, ⟨fun _ => trivial, fun _ => respects_silent rfl _ _⟩, fun _ => hs⟩

theorem allGood_respects_iff (asserts : Bool) (hs : Settled s) (calls : List Call) :
    (machine asserts).AllGood (RespectsAt asserts) (some s) calls ↔
      (machine asserts).AllGood ProperAt (some s) calls := by
  induction calls generalizing s with
  | nil => exact Iff.rfl
  | cons c calls ih =>
    obtain ⟨outcome, heq, hproper, hsettled⟩ := call_spec asserts hs c
    have hnext : ((machine asserts).step (some s) c).1 = some outcome.1 := by
      simp [machine, heq]
    have hfirst : RespectsAt asserts (some s) c ↔ s.Respects c outcome := by
      constructor
      · rintro ⟨sender, outcome', hsender, heq', hrespects⟩
        cases hsender
        rw [heq] at heq'
        cases heq'
        exact hrespects
      · exact fun h => ⟨s, outcome, rfl, heq, h⟩
    have hsecond : ProperAt (some s) c ↔ s.Proper c :=
      ⟨fun h => h s rfl, fun h sender hsender => by cases hsender; exact h⟩
    unfold Machine.AllGood
    rw [hnext, hfirst, hsecond, ← hproper]
    exact and_congr_right fun h => ih (hsettled h)

/-- **The protocol of the flags, along every run** from a new sender, in a build with
assertions or without: all calls keep to it, and no assertion fails, exactly if all calls are
proper. -/
theorem flag_protocol_iff (asserts audio : Bool) (localMediaSsrc : U32) (rtcpReportIntervalMs : Int)
    (calls : List Call) :
    (machine asserts).AllGood (RespectsAt asserts)
        (some (create audio localMediaSsrc rtcpReportIntervalMs)) calls ↔
      (machine asserts).AllGood ProperAt
        (some (create audio localMediaSsrc rtcpReportIntervalMs)) calls :=
  allGood_respects_iff asserts (fun _ hf => absurd hf (by simp [create, ReportFlags.empty])) calls

/-- Answers of the collaborators of an idle sender. -/
def idle : Providers where
  nowMs := 1000
  nowUs := 1000000
  nowNtp := ⟨0⟩
  currentNtp := ⟨0⟩
  packetsSent := 0
  mediaBytesSent := 0
  sendBitrateKbps := 0
  lastSrStats := none
  lastXrRtis := []
  reportBlocks := none
  random := fun lo _ => lo

/-- A receiver report asked for before any media stays behind as a volatile flag; once media
has been sent, the next sender report goes out with a receiver report behind it, and the
assertion against that fails. -/
theorem report_flag_leaks :
    let calls : List Call :=
      [.setRtcpMode .compound 0, .setSending true idle, .sendRtcp .rr [] idle,
        .setLastRtpTime 90000 none none 1000, .sendRtcp .sr [] idle]
    let start := some (create false 1 0)
    ((machine false).final start (calls.take 3)).map (fun s => (s.rtcpMode, s.reportFlags.flags))
      = some (.compound, [⟨.rr, true⟩]) ∧
    ((machine false).log start calls).map (fun x => x.2.map fun outcome => kinds outcome.2.2)
      = [some [], some [], some [], some [], some [.sr, .rr, .sdes]] ∧
    (machine true).final start calls = none ∧
    ¬ (machine false).AllGood (RespectsAt false) start calls := by
  refine ⟨by decide, by decide, by decide, ?_⟩
  rintro ⟨-, -, ⟨sender, outcome, hsender, hcall, hrespects⟩, -⟩
  cases hsender
  cases hcall
  exact absurd (hrespects.1 rfl (by decide)) (by decide)

end RtcpSender

end NaiveRtc.Rtcp
