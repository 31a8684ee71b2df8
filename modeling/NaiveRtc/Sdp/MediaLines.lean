import NaiveRtc.Sdp.Media

/-!
# What a generated line does to a media section

One lemma for each kind of line that `GenerateSDPLines` writes: what `ParseSDPLine` makes of it.

* `parseSDPLine_attributeLine`, `parseSDPLine_flagLine` — a line is cut into key and value.
* `toInt_decimal`, `toUInt32_ssrcText` — numbers come back.
* `parse_extMaps`, `parse_rtpMaps` — the lines of the extensions and of the RTP maps.
* `parse_headLines` — **all lines before the SSRCs.**
-/

namespace NaiveRtc.Sdp

open Text

/-! ## Keys and values -/

section Lines

variable {m : Media} {key value : Text}

theorem parseSDPLine_attributeLine (hkey : ':' ∉ key) :
    m.parseSDPLine (attributeLine key value) = m.parseSDPAttributeField key value := by
  have hstart : matchPrefix (attributeLine key value) "a=".toList = true :=
    decide_eq_true (List.prefix_append _ _)
  have hattr : (attributeLine key value).drop 2 = key ++ ':' :: value := rfl
  have hpair : parsePair (key ++ ':' :: value) = (key, value) := by
    rw [parsePair, if_pos (List.mem_append_right _ List.mem_cons_self), before_append hkey,
      after_append hkey]
  rw [Media.parseSDPLine, if_pos hstart, hattr, hpair]

theorem parseSDPLine_flagLine (hvalue : ':' ∉ value) :
    m.parseSDPLine (flagLine value) = m.parseSDPAttributeField [] value := by
  have hstart : matchPrefix (flagLine value) "a=".toList = true :=
    decide_eq_true (List.prefix_append _ _)
  have hattr : (flagLine value).drop 2 = value := rfl
  rw [Media.parseSDPLine, if_pos hstart, hattr, parsePair, if_neg hvalue]

theorem directionFromText_eq_none (h : 'e' ∉ value) : directionFromText value = none := by
  have hne : ∀ word : Text, 'e' ∈ word → value ≠ word := fun word hword heq => h (heq ▸ hword)
  rw [directionFromText, if_neg (hne _ (by decide)), if_neg (hne _ (by decide)),
    if_neg (hne _ (by decide)), if_neg (hne _ (by decide))]

theorem directionFromText_of_blank (h : ' ' ∈ value) : directionFromText value = none := by
  have hne : ∀ word : Text, ' ' ∉ word → value ≠ word := fun word hword heq => hword (heq ▸ h)
  rw [directionFromText, if_neg (hne _ (by decide)), if_neg (hne _ (by decide)),
    if_neg (hne _ (by decide)), if_neg (hne _ (by decide))]

end Lines

/-! ## Numbers -/

/-- A value of the type `int`. -/
def IsInt (i : Int) : Prop := -2 ^ 31 ≤ i ∧ i < 2 ^ 31

theorem not_mem_decimal {i : Int} {c : Char} (hc : c.isDigit = false) (hminus : c ≠ '-') :
    c ∉ decimal i := by
  intro hmem
  rcases isDigit_of_mem_decimal hmem with heq | hdigit
  · exact hminus heq
  · rw [hc] at hdigit
    cases hdigit

theorem toInt_decimal {i : Int} (hi : IsInt i) : toInt (decimal i) = some i := by
  have hread := @readInteger_decimal i [] (by simp)
  rw [List.append_nil] at hread
  unfold IsInt at hi
  rw [toInt, hread, Option.bind_some, if_pos (by omega), BitVec.toInt_ofInt]
  exact congrArg some (Int.bmod_eq_of_le (by omega) (by omega))

theorem toUInt32_ssrcText (ssrc : U32) {rest : Text}
    (hrest : ∀ c ∈ rest.head?, c.isDigit = false) :
    toUInt32 (ssrcText ssrc ++ rest) = some ssrc := by
  have hlt := ssrc.isLt
  rw [toUInt32, ssrcText, readInteger_decimal _ hrest, Option.bind_some,
    if_pos (by rw [Int.natAbs_natCast]; omega)]
  refine congrArg some ?_
  apply BitVec.eq_of_toNat_eq
  rw [BitVec.toNat_ofInt]
  omega

theorem blank_not_mem_decimal (i : Int) : ' ' ∉ decimal i :=
  not_mem_decimal (by decide) (by decide)

theorem before_decimal (i : Int) (rest : Text) :
    before ' ' (decimal i ++ ' ' :: rest) = decimal i :=
  before_append (blank_not_mem_decimal i)

theorem after_decimal (i : Int) (rest : Text) : after ' ' (decimal i ++ ' ' :: rest) = rest :=
  after_append (blank_not_mem_decimal i)

/-! ## Attributes -/

section Fields

variable {m : Media} {value : Text}

section

variable (h : directionFromText value = none)
include h

theorem parseField_extmap :
    m.parseSDPAttributeField "extmap".toList value = m.parseExtMap value := by
  rw [Media.parseSDPAttributeField, h]
  exact if_pos rfl

theorem parseField_rtpmap :
    m.parseSDPAttributeField "rtpmap".toList value = m.parseRtpMap value := by
  rw [Media.parseSDPAttributeField, h]
  rfl

theorem parseField_rtcpFb :
    m.parseSDPAttributeField "rtcp-fb".toList value = m.parseRtcpFb value := by
  rw [Media.parseSDPAttributeField, h]
  rfl

theorem parseField_fmtp :
    m.parseSDPAttributeField "fmtp".toList value = m.parseFmtp value := by
  rw [Media.parseSDPAttributeField, h]
  rfl

theorem parseField_ssrcGroup :
    m.parseSDPAttributeField "ssrc-group".toList value = m.parseSsrcGroup value := by
  rw [Media.parseSDPAttributeField, h]
  rfl

theorem parseField_ssrc :
    m.parseSDPAttributeField "ssrc".toList value = m.parseSsrc value := by
  rw [Media.parseSDPAttributeField, h]
  rfl

end

end Fields

/-! ## Runs over lines -/

namespace Media

variable {m m' : Media}

theorem parseSDPLines_cons {line : Text} {lines : List Text} {result : Bool}
    (h : m.parseSDPLine line = some (result, m')) :
    m.parseSDPLines (line :: lines) = m'.parseSDPLines lines := by
  rw [parseSDPLines, List.foldlM_cons, h]
  rfl

theorem parseSDPLines_append {lines lines' : List Text} (h : m.parseSDPLines lines = some m') :
    m.parseSDPLines (lines ++ lines') = m'.parseSDPLines lines' := by
  have hrun : lines.foldlM (fun m line => (m.parseSDPLine line).map Prod.snd) m = some m' := h
  rw [parseSDPLines, List.foldlM_append, hrun]
  rfl

end Media

/-! ## Flags and the mid -/

section Flags

variable {m : Media}

theorem parse_bundleOnly : m.parseSDPLine (flagLine "bundle-only".toList) = some (true, m) := by
  rw [parseSDPLine_flagLine (by decide)]
  rfl

theorem parse_direction (d : Direction) :
    m.parseSDPLine (flagLine d.toText) = some (true, { m with direction := d }) := by
  rw [parseSDPLine_flagLine (by cases d <;> decide), Media.parseSDPAttributeField,
    directionFromText_toText]

theorem parse_rtcpMux :
    m.parseSDPLine (flagLine "rtcp-mux".toList) =
      some (true, { m with rtcpMuxEnabled := true }) := by
  rw [parseSDPLine_flagLine (by decide)]
  rfl

theorem parse_rtcpRsize : m.parseSDPLine (flagLine "rtcp-rsize".toList) = some (false, m) := by
  rw [parseSDPLine_flagLine (by decide)]
  rfl

theorem parse_mid : ∃ d, m.parseSDPLine (attributeLine "mid".toList m.mid) =
    some (true, { m with
      direction := d
      rtcpMuxEnabled := m.rtcpMuxEnabled || decide (m.mid = "rtcp-mux".toList) }) := by
  rw [parseSDPLine_attributeLine (by decide), Media.parseSDPAttributeField]
  cases hdir : directionFromText m.mid with
  | some d =>
    have hmux : m.mid ≠ "rtcp-mux".toList := fun heq => by
      rw [heq, directionFromText_eq_none (by decide)] at hdir
      cases hdir
    refine ⟨d, ?_⟩
    rw [decide_eq_false hmux, Bool.or_false]
  | none =>
    refine ⟨m.direction, ?_⟩
    by_cases hmux : m.mid = "rtcp-mux".toList
    · rw [decide_eq_true hmux, Bool.or_true, hmux]
      rfl
    · rw [decide_eq_false hmux, Bool.or_false]
      show (if m.mid = "rtcp-mux".toList then _ else _) = _
      rw [if_neg hmux]
      rfl

end Flags

/-! ## Extensions -/

theorem parse_extMap {m : Media} {map : ExtMap} (hid : IsInt map.id)
    (hnew : map.id ∉ m.extMaps.map ExtMap.id) :
    m.parseSDPLine map.sdpLine = some (true, { m with extMaps := m.extMaps ++ [map] }) := by
  have hany : m.extMaps.any (fun other => decide (other.id = map.id)) = false := by
    rw [List.any_eq_false]
    intro other hother heq
    exact hnew (of_decide_eq_true heq ▸ List.mem_map_of_mem hother)
  rw [ExtMap.sdpLine, parseSDPLine_attributeLine (by decide),
    parseField_extmap (directionFromText_of_blank (by simp)), Media.parseExtMap, before_decimal,
    after_decimal, toInt_decimal hid]
  simp only [Option.bind_eq_bind, Option.bind_some, hany]
  rfl

theorem parse_extMaps {m : Media} {maps : List ExtMap} (hid : ∀ map ∈ maps, IsInt map.id)
    (hnodup : ((m.extMaps ++ maps).map ExtMap.id).Nodup) :
    m.parseSDPLines (maps.map ExtMap.sdpLine) =
      some { m with extMaps := m.extMaps ++ maps } := by
  induction maps generalizing m with
  | nil =>
    rw [List.append_nil]
    rfl
  | cons map maps ih =>
    have hnew : map.id ∉ m.extMaps.map ExtMap.id := by
      rw [List.map_append, List.map_cons] at hnodup
      exact fun hmem => (List.nodup_append.1 hnodup).2.2 _ hmem _ List.mem_cons_self rfl
    rw [List.map_cons, Media.parseSDPLines_cons (parse_extMap (hid map List.mem_cons_self) hnew),
      ih (fun other hother => hid other (List.mem_cons_of_mem _ hother))]
    · simp only [List.append_assoc, List.singleton_append]
    · simpa only [List.append_assoc, List.singleton_append] using hnodup

/-! ## RTP maps -/

/-- What the lines of an RTP map say: its RTX payload type is in none of them. -/
def RtpMap.written (map : RtpMap) : RtpMap := { map with rtxPayloadType := none }

section RtpMaps

variable {m : Media} {map : RtpMap} {maps : List RtpMap}

theorem find?_payloadType (hnew : map.payloadType ∉ maps.map RtpMap.payloadType) :
    maps.find? (fun other => decide (other.payloadType = map.payloadType)) = none := by
  rw [List.find?_eq_none]
  intro other hother heq
  exact hnew (of_decide_eq_true heq ▸ List.mem_map_of_mem hother)

theorem codecText_no_slash (c : Codec) : '/' ∉ c.toText := by
  cases c <;> decide

theorem parseRtpMapValue_text (hpt : IsInt map.payloadType) (hrate : IsInt map.clockRate) :
    Media.parseRtpMapValue (decimal map.payloadType ++ ' ' :: (map.codec.toText ++
      '/' :: (decimal map.clockRate ++ (map.codecParams.map ('/' :: ·)).getD []))) =
      some (some { payloadType := map.payloadType, codec := map.codec, clockRate := map.clockRate,
                   codecParams := map.codecParams }) := by
  have hslash : '/' ∉ decimal map.clockRate := not_mem_decimal (by decide) (by decide)
  have hblank : ' ' ∉ decimal map.clockRate := blank_not_mem_decimal _
  rw [Media.parseRtpMapValue, if_neg (by simp), before_decimal, after_decimal, toInt_decimal hpt]
  simp only [Option.bind_eq_bind, Option.bind_some]
  rw [if_neg (by simp), before_append (codecText_no_slash _), after_append (codecText_no_slash _),
    codecFromText_toText]
  cases hparams : map.codecParams with
  | none =>
    have hrest : decimal map.clockRate ++ ((none : Option Text).map ('/' :: ·)).getD [] =
        decimal map.clockRate := List.append_nil _
    simp only [hrest]
    rw [if_neg hslash, if_neg hblank, toInt_decimal hrate]
    rfl
  | some params =>
    have hrest : decimal map.clockRate ++ ((some params).map ('/' :: ·)).getD [] =
        decimal map.clockRate ++ '/' :: params := rfl
    simp only [hrest]
    rw [if_pos (by simp), before_append hslash, after_append hslash, toInt_decimal hrate]
    rfl

theorem updateRtpMap_last (f : RtpMap → RtpMap)
    (hnew : map.payloadType ∉ maps.map RtpMap.payloadType) :
    ({ m with rtpMaps := maps ++ [map] } : Media).updateRtpMap map.payloadType f =
      { m with rtpMaps := maps ++ [f map] } := by
  have hother : ∀ other ∈ maps,
      (if other.payloadType = map.payloadType then f other else other) = other := by
    intro other hmem
    refine if_neg fun heq => hnew ?_
    exact heq ▸ List.mem_map_of_mem hmem
  rw [Media.updateRtpMap]
  simp only [List.map_append, List.map_congr_left hother, List.map_id', List.map_cons, List.map_nil,
    if_true]

theorem any_last : (maps ++ [map]).any (fun other =>
    decide (other.payloadType = map.payloadType)) = true := by
  rw [List.any_append, List.any_cons, decide_eq_true rfl, Bool.true_or, Bool.or_true]

theorem parse_each {α : Type} {s : List α → Media} {line : α → Text}
    (hline : ∀ xs x, (s xs).parseSDPLine (line x) = some (true, s (xs ++ [x]))) (xs ys : List α) :
    (s xs).parseSDPLines (ys.map line) = some (s (xs ++ ys)) := by
  induction ys generalizing xs with
  | nil =>
    rw [List.append_nil]
    rfl
  | cons y ys ih =>
    rw [List.map_cons, Media.parseSDPLines_cons (hline xs y), ih, List.append_assoc,
      List.singleton_append]

theorem parse_rtcpFbs (feedbacks : List RtcpFeedback) (hpt : IsInt map.payloadType)
    (hnew : map.payloadType ∉ maps.map RtpMap.payloadType) :
    ({ m with rtpMaps := maps ++ [map] } : Media).parseSDPLines (feedbacks.map fun feedback =>
      attributeLine "rtcp-fb".toList (decimal map.payloadType ++ ' ' :: feedback.toText)) =
      some { m with
        rtpMaps := maps ++ [{ map with rtcpFeedbacks := map.rtcpFeedbacks ++ feedbacks }] } := by
  refine parse_each (s := fun read => { m with
    rtpMaps := maps ++ [{ map with rtcpFeedbacks := read }] }) (fun read feedback => ?_) _ _
  rw [parseSDPLine_attributeLine (by decide),
    parseField_rtcpFb (directionFromText_of_blank (by simp)), Media.parseRtcpFb, before_decimal,
    after_decimal, toInt_decimal hpt, Option.bind_eq_bind, Option.bind_some, if_pos any_last,
    rtcpFeedbackFromText_toText]
  exact congrArg (fun m => some (true, m)) (updateRtpMap_last _ hnew)

theorem parse_fmtps (profiles : List Text) (hpt : IsInt map.payloadType)
    (hnew : map.payloadType ∉ maps.map RtpMap.payloadType) :
    ({ m with rtpMaps := maps ++ [map] } : Media).parseSDPLines (profiles.map fun val =>
      attributeLine "fmtp".toList (decimal map.payloadType ++ ' ' :: val)) =
      some { m with
        rtpMaps := maps ++ [{ map with fmtProfiles := map.fmtProfiles ++ profiles }] } := by
  refine parse_each (s := fun read => { m with
    rtpMaps := maps ++ [{ map with fmtProfiles := read }] }) (fun read val => ?_) _ _
  rw [parseSDPLine_attributeLine (by decide),
    parseField_fmtp (directionFromText_of_blank (by simp)), Media.parseFmtp, before_decimal,
    after_decimal, toInt_decimal hpt, Option.bind_eq_bind, Option.bind_some, if_pos any_last]
  exact congrArg (fun m => some (true, m)) (updateRtpMap_last _ hnew)

theorem parse_rtpMap (hpt : IsInt map.payloadType) (hrate : IsInt map.clockRate)
    (hnew : map.payloadType ∉ m.rtpMaps.map RtpMap.payloadType) :
    m.parseSDPLines map.sdpLines = some { m with rtpMaps := m.rtpMaps ++ [map.written] } := by
  have hfirst : m.parseSDPLine (attributeLine "rtpmap".toList (decimal map.payloadType ++ ' ' ::
      (map.codec.toText ++ '/' :: (decimal map.clockRate ++
        (map.codecParams.map ('/' :: ·)).getD [])))) =
      some (true, { m with rtpMaps := m.rtpMaps ++ [{ map.written with
        rtcpFeedbacks := [], fmtProfiles := [] }] }) := by
    rw [parseSDPLine_attributeLine (by decide),
      parseField_rtpmap (directionFromText_of_blank (by simp)), Media.parseRtpMap,
      parseRtpMapValue_text hpt hrate]
    simp only [Option.bind_eq_bind, Option.bind_some, find?_payloadType hnew]
    rfl
  have hfeedbacks := @parse_rtcpFbs m { map.written with rtcpFeedbacks := [], fmtProfiles := [] }
    m.rtpMaps map.rtcpFeedbacks hpt hnew
  have hprofiles := @parse_fmtps m { map.written with fmtProfiles := [] } m.rtpMaps
    map.fmtProfiles hpt hnew
  rw [RtpMap.sdpLines, List.cons_append, Media.parseSDPLines_cons hfirst]
  exact (Media.parseSDPLines_append hfeedbacks).trans hprofiles

theorem parse_rtpMaps (hmaps : ∀ map ∈ maps, IsInt map.payloadType ∧ IsInt map.clockRate)
    (hnodup : ((m.rtpMaps ++ maps).map RtpMap.payloadType).Nodup) :
    m.parseSDPLines (maps.flatMap RtpMap.sdpLines) =
      some { m with rtpMaps := m.rtpMaps ++ maps.map RtpMap.written } := by
  induction maps generalizing m with
  | nil =>
    rw [List.map_nil, List.append_nil]
    rfl
  | cons map maps ih =>
    have hnew : map.payloadType ∉ m.rtpMaps.map RtpMap.payloadType := by
      rw [List.map_append, List.map_cons] at hnodup
      exact fun hmem => (List.nodup_append.1 hnodup).2.2 _ hmem _ List.mem_cons_self rfl
    obtain ⟨hpt, hrate⟩ := hmaps map List.mem_cons_self
    rw [List.flatMap_cons, Media.parseSDPLines_append (parse_rtpMap hpt hrate hnew),
      ih (fun other hother => hmaps other (List.mem_cons_of_mem _ hother))]
    · simp only [List.append_assoc, List.singleton_append, List.map_cons]
    · have hkeys : (m.rtpMaps ++ [map.written] ++ maps).map RtpMap.payloadType =
          (m.rtpMaps ++ map :: maps).map RtpMap.payloadType := by
        simp [RtpMap.written]
      exact hkeys ▸ hnodup

end RtpMaps

/-! ## The lines before the SSRCs -/

/-- What the lines before the SSRCs say: neither the flag `rtcp-rsize` nor an RTX payload type, and
a mid that reads as a flag is one. -/
def Media.headRead (m : Media) : Media where
  mid := m.mid
  direction := m.direction
  rtcpMuxEnabled := decide (m.mid = "rtcp-mux".toList) || m.rtcpMuxEnabled
  extMaps := m.extMaps
  rtpMaps := m.rtpMaps.map RtpMap.written

theorem parse_headLines {m : Media} (hid : ∀ map ∈ m.extMaps, IsInt map.id)
    (hids : (m.extMaps.map ExtMap.id).Nodup)
    (hmaps : ∀ map ∈ m.rtpMaps, IsInt map.payloadType ∧ IsInt map.clockRate)
    (hpts : (m.rtpMaps.map RtpMap.payloadType).Nodup) :
    ({ mid := m.mid } : Media).parseSDPLines m.headLines = some m.headRead := by
  obtain ⟨d, hmid⟩ := @parse_mid { mid := m.mid }
  rw [Media.headLines]
  simp only [List.append_assoc, List.cons_append, List.nil_append]
  rw [Media.parseSDPLines_cons parse_bundleOnly, Media.parseSDPLines_cons hmid,
    Media.parseSDPLines_cons (parse_direction m.direction)]
  have hmux : ∀ R : Media, R.parseSDPLines
      (if m.rtcpMuxEnabled then [flagLine "rtcp-mux".toList] else []) =
      some { R with rtcpMuxEnabled := R.rtcpMuxEnabled || m.rtcpMuxEnabled } := by
    intro R
    by_cases hflag : m.rtcpMuxEnabled = true
    · rw [if_pos hflag, Media.parseSDPLines_cons parse_rtcpMux, hflag, Bool.or_true]
      rfl
    · rw [if_neg hflag, Bool.eq_false_iff.2 hflag, Bool.or_false]
      rfl
  have hrsize : ∀ R : Media, R.parseSDPLines
      (if m.rtcpRsizeEnabled then [flagLine "rtcp-rsize".toList] else []) = some R := by
    intro R
    by_cases hflag : m.rtcpRsizeEnabled = true
    · rw [if_pos hflag, Media.parseSDPLines_cons parse_rtcpRsize]
      rfl
    · rw [if_neg hflag]
      rfl
  rw [Media.parseSDPLines_append (hmux _), Media.parseSDPLines_append (hrsize _),
    Media.parseSDPLines_append (parse_extMaps hid (by simpa using hids)),
    parse_rtpMaps hmaps (by simpa using hpts)]
  rfl

end NaiveRtc.Sdp
