import NaiveRtc.Components.WrapAround
import NaiveRtc.Lib.Text

/-!
# Media sections of an SDP

`rtc/sdp/sdp_media_entry_media_builder.cpp` and `sdp_media_entry_media_parser.cpp`, with the
parsers of the base classes in `sdp_media_entry.cpp` and `sdp_entry.cpp`.

* `Media` — a media section; a map is the list of its values, in the order of iteration, and a
  value holds its key.
* `Media.extraMediaInfo`, `Media.generateSDPLines` — what stands in the `m=` line, and the lines
  behind it, without the line ends; `none` is an exception.
* `Media.parseSDPLine` — what a line does to a media section; `none` is an exception.

What is only copied around (kind and protocols of the section) is left out, and so is the
assertion on the range of an extension id.
-/

namespace NaiveRtc.Sdp

open Text

/-! ## Data -/

instance : LawfulBEq U32 := inferInstance

/-- `Direction`. -/
inductive Direction
  | inactive
  | sendOnly
  | recvOnly
  | sendRecv
  deriving DecidableEq

/-- `Role`. -/
inductive Role
  | actPass
  | passive
  | active
  deriving DecidableEq

/-- `Media::Codec`. -/
inductive Codec
  | opus
  | vp8
  | vp9
  | h264
  | red
  | ulpFec
  | flexFec
  | rtx
  deriving DecidableEq

/-- `Media::RtcpFeedback`. -/
inductive RtcpFeedback
  | nack
  | googRemb
  | transportCc
  deriving DecidableEq

/-- `Media::ExtMap`. -/
structure ExtMap where
  id : Int
  uri : Text
  deriving DecidableEq

/-- `Media::RtpMap`. -/
structure RtpMap where
  payloadType : Int
  codec : Codec
  clockRate : Int
  codecParams : Option Text := none
  rtxPayloadType : Option Int := none
  rtcpFeedbacks : List RtcpFeedback := []
  fmtProfiles : List Text := []
  deriving DecidableEq

/-- `Media::SsrcEntry::Kind`. -/
inductive SsrcKind
  | media
  | rtx
  | fec
  deriving DecidableEq

/-- `Media::SsrcEntry`. -/
structure SsrcEntry where
  ssrc : U32
  kind : SsrcKind
  cname : Option Text := none
  msid : Option Text := none
  trackId : Option Text := none
  deriving DecidableEq

/-- `Entry`. -/
structure Entry where
  iceUfrag : Option Text := none
  icePwd : Option Text := none
  fingerprint : Option Text := none
  role : Option Role := none
  deriving DecidableEq

/-- `Media`. -/
structure Media where
  entry : Entry := {}
  mid : Text
  direction : Direction := .inactive
  rtcpMuxEnabled : Bool := false
  rtcpRsizeEnabled : Bool := false
  extMaps : List ExtMap := []
  rtpMaps : List RtpMap := []
  mediaSsrcs : List U32 := []
  rtxSsrcs : List U32 := []
  fecSsrcs : List U32 := []
  ssrcEntries : List SsrcEntry := []
  bandwidthMaxValue : Int := -1
  deriving DecidableEq

/-! ## Names -/

/-- `operator<<` of a direction. -/
def Direction.toText : Direction → Text
  | .inactive => "inactive".toList
  | .sendOnly => "sendonly".toList
  | .recvOnly => "recvonly".toList
  | .sendRecv => "sendrecv".toList

/-- The comparisons of `Media::ParseSDPAttributeField` with the directions. -/
def directionFromText (value : Text) : Option Direction :=
  if value = "sendonly".toList then some .sendOnly
  else if value = "recvonly".toList then some .recvOnly
  else if value = "sendrecv".toList then some .sendRecv
  else if value = "inactive".toList then some .inactive
  else none

/-- `Media::ToString(codec)`. -/
def Codec.toText : Codec → Text
  | .opus => "OPUS".toList
  | .vp8 => "VP8".toList
  | .vp9 => "VP9".toList
  | .h264 => "H264".toList
  | .red => "red".toList
  | .ulpFec => "ulpfec".toList
  | .flexFec => "flexfec".toList
  | .rtx => "rtx".toList

/-- `CodecFromString(codec_name)`. -/
def codecFromText (codecName : Text) : Option Codec :=
  if codecName = "OPUS".toList ∨ codecName = "opus".toList then some .opus
  else if codecName = "VP8".toList ∨ codecName = "vp8".toList then some .vp8
  else if codecName = "VP9".toList ∨ codecName = "vp9".toList then some .vp9
  else if codecName = "H264".toList ∨ codecName = "h264".toList then some .h264
  else if codecName = "RED".toList ∨ codecName = "red".toList then some .red
  else if codecName = "ULPFEC".toList ∨ codecName = "ulpfec".toList then some .ulpFec
  else if codecName = "FLEXFEC".toList ∨ codecName = "flexfec".toList then some .flexFec
  else if codecName = "RTX".toList ∨ codecName = "rtx".toList then some .rtx
  else none

/-- `Media::ToString(rtcp_feedback)`. -/
def RtcpFeedback.toText : RtcpFeedback → Text
  | .nack => "nack".toList
  | .googRemb => "goog-remb".toList
  | .transportCc => "transport-cc".toList

/-- `RtcpFeedbackFromString(feedback_name)`. -/
def rtcpFeedbackFromText (feedbackName : Text) : Option RtcpFeedback :=
  if feedbackName = "NACK".toList ∨ feedbackName = "nack".toList then some .nack
  else if feedbackName = "GOOG-REMB".toList ∨ feedbackName = "goog-remb".toList then some .googRemb
  else if feedbackName = "TRANSPORT-CC".toList ∨ feedbackName = "transport-cc".toList then
    some .transportCc
  else none

@[simp] theorem directionFromText_toText (d : Direction) : directionFromText d.toText = some d := by
  cases d <;> decide

@[simp] theorem codecFromText_toText (c : Codec) : codecFromText c.toText = some c := by
  cases c <;> decide

@[simp] theorem rtcpFeedbackFromText_toText (f : RtcpFeedback) :
    rtcpFeedbackFromText f.toText = some f := by
  cases f <;> decide

/-! ## Strings -/

/-- `utils::string::match_prefix(str, prefix)`. -/
def matchPrefix (str start : Text) : Bool := start <+: str

/-- `utils::string::parse_pair(attr)`: without a colon there is no key. -/
def parsePair (attr : Text) : Text × Text :=
  if ':' ∈ attr then (before ':' attr, after ':' attr) else ([], attr)

/-- `utils::string::to_integer<int>(s)`: `std::stol`, and the low 32 bits of the `long`. -/
def toInt (s : Text) : Option Int :=
  (readInteger s).bind fun v =>
    if -2 ^ 63 ≤ v ∧ v < 2 ^ 63 then some (BitVec.ofInt 32 v).toInt else none

/-- `utils::string::to_integer<uint32_t>(s)`: `std::stoul`, and the low 32 bits of the
`unsigned long`. -/
def toUInt32 (s : Text) : Option U32 :=
  (readInteger s).bind fun v => if v.natAbs < 2 ^ 64 then some (BitVec.ofInt 32 v) else none

/-! ## Lines -/

/-- `a=<key>:<value>`. -/
def attributeLine (key value : Text) : Text := "a=".toList ++ (key ++ ':' :: value)

/-- `a=<value>`. -/
def flagLine (value : Text) : Text := "a=".toList ++ value

/-- An SSRC in a line. -/
def ssrcText (ssrc : U32) : Text := decimal ssrc.toNat

/-- `a=ssrc-group:<semantics> <ssrc> <associated>`. -/
def ssrcGroupLine (semantics : Text) (ssrc associated : U32) : Text :=
  attributeLine "ssrc-group".toList
    (semantics ++ ' ' :: (ssrcText ssrc ++ ' ' :: ssrcText associated))

/-- The first line of an entry. -/
def SsrcEntry.cnameLine (e : SsrcEntry) : Text :=
  attributeLine "ssrc".toList
    (match e.cname with
    | some cname => ssrcText e.ssrc ++ ' ' :: ("cname:".toList ++ cname)
    | none => ssrcText e.ssrc)

/-- The line with a media stream and a track. -/
def SsrcEntry.msidLine (e : SsrcEntry) (msid : Text) : Text :=
  attributeLine "ssrc".toList
    (ssrcText e.ssrc ++ ' ' :: ("msid:".toList ++ (msid ++ ' ' :: e.trackId.getD msid)))

/-- `GenerateSsrcEntrySDPLines(entry, eol)`. -/
def SsrcEntry.sdpLines (e : SsrcEntry) : List Text :=
  e.cnameLine :: (e.msid.map e.msidLine).toList

/-- The lines of an RTP map. -/
def RtpMap.sdpLines (map : RtpMap) : List Text :=
  attributeLine "rtpmap".toList (decimal map.payloadType ++ ' ' :: (map.codec.toText ++
    '/' :: (decimal map.clockRate ++ (map.codecParams.map ('/' :: ·)).getD []))) ::
  (map.rtcpFeedbacks.map fun feedback =>
    attributeLine "rtcp-fb".toList (decimal map.payloadType ++ ' ' :: feedback.toText)) ++
  map.fmtProfiles.map fun val =>
    attributeLine "fmtp".toList (decimal map.payloadType ++ ' ' :: val)

/-- The line of an extension. -/
def ExtMap.sdpLine (map : ExtMap) : Text :=
  attributeLine "extmap".toList (decimal map.id ++ ' ' :: map.uri)

namespace Media

/-- The SSRC at the place where an SSRC is in the list of the media. -/
def associated (m : Media) (ssrcs : List U32) (ssrc : U32) : Option U32 :=
  ((m.mediaSsrcs.zip ssrcs).find? (·.1 = ssrc)).map Prod.snd

/-- `RtxSsrcAssociatedWithMediaSsrc(ssrc)`. -/
def rtxSsrcAssociated (m : Media) (ssrc : U32) : Option U32 := m.associated m.rtxSsrcs ssrc

/-- `FecSsrcAssociatedWithMediaSsrc(ssrc)`. -/
def fecSsrcAssociated (m : Media) (ssrc : U32) : Option U32 := m.associated m.fecSsrcs ssrc

/-- `ssrc_entries_.at(ssrc)`, and the lines of the entry. -/
def entryLines (m : Media) (ssrc : U32) : Option (List Text) :=
  (m.ssrcEntries.find? (·.ssrc = ssrc)).map SsrcEntry.sdpLines

/-- One round of the loop of `GenerateSDPLines` over the SSRCs of the media. -/
def ssrcLines (m : Media) (ssrc : U32) : Option (List Text) :=
  let rtx := m.rtxSsrcAssociated ssrc
  let fec := m.fecSsrcAssociated ssrc
  -- `!associated_rtx_ssrc && !associated_rtx_ssrc`
  if rtx.isNone && rtx.isNone then m.entryLines ssrc
  else do
    let fid ← match rtx with
      | some rtxSsrc => do
        let mediaEntry ← m.entryLines ssrc
        let rtxEntry ← m.entryLines rtxSsrc
        pure (ssrcGroupLine "FID".toList ssrc rtxSsrc :: (mediaEntry ++ rtxEntry))
      | none => pure []
    let group ← match fec with
      | some fecSsrc => do
        -- `associated_rtx_ssrc.value()`
        let rtxSsrc ← rtx
        let mediaEntry ← m.entryLines ssrc
        let fecEntry ← m.entryLines fecSsrc
        pure (ssrcGroupLine "FEC".toList ssrc rtxSsrc :: (mediaEntry ++ fecEntry))
      | none => pure []
    pure (fid ++ group)

/-- The lines of `GenerateSDPLines` before the SSRCs, those of `MediaEntry` first. -/
def headLines (m : Media) : List Text :=
  [flagLine "bundle-only".toList, attributeLine "mid".toList m.mid,
    flagLine m.direction.toText] ++
  (if m.rtcpMuxEnabled then [flagLine "rtcp-mux".toList] else []) ++
  (if m.rtcpRsizeEnabled then [flagLine "rtcp-rsize".toList] else []) ++
  m.extMaps.map ExtMap.sdpLine ++ m.rtpMaps.flatMap RtpMap.sdpLines

/-- `GenerateSDPLines(eol)`: the lines, each followed by `eol` in the text. -/
def generateSDPLines (m : Media) : Option (List Text) := do
  let ssrcs ← m.mediaSsrcs.mapM m.ssrcLines
  pure (m.headLines ++ ssrcs.flatten)

/-- `ExtraMediaInfo()`: the payload types, without the space before the first one, at which
`substr(1)` throws if there is none. -/
def extraMediaInfo (m : Media) : Option Text :=
  match m.rtpMaps.flatMap fun map => ' ' :: decimal map.payloadType with
  | [] => none
  | _ :: info => some info

/-- `GenerateSDP(eol, role)` returns. -/
def writes (m : Media) : Bool := m.extraMediaInfo.isSome && m.generateSDPLines.isSome

end Media

/-! ## Parsing: the base classes -/

/-- `IsSHA256Fingerprint(fingerprint)`. -/
def isSHA256Fingerprint (fingerprint : Text) : Bool :=
  decide (fingerprint.length = 32 * 3 - 1) &&
    fingerprint.zipIdx.all fun (c, i) =>
      if i % 3 = 2 then c = ':'
      else c.isDigit || ('a' ≤ c && c ≤ 'f') || ('A' ≤ c && c ≤ 'F')

/-- `ParseFingerprintAttribute(value)`. -/
def parseFingerprintAttribute (value : Text) : Option Text :=
  if matchPrefix value "sha-256".toList then some ((value.drop 7).dropWhile isSpace) else none

namespace Entry

/-- `set_fingerprint(fingerprint)`; `none` is an exception. -/
def setFingerprint (e : Entry) (fingerprint : Text) : Option Entry :=
  if isSHA256Fingerprint fingerprint then
    some { e with fingerprint := some (fingerprint.map Char.toUpper) }
  else none

/-- `Entry::ParseSDPAttributeField(key, value)`. -/
def parseSDPAttributeField (e : Entry) (key value : Text) : Option (Bool × Entry) :=
  if key = "fingerprint".toList then
    match parseFingerprintAttribute value with
    | some fingerprint => (e.setFingerprint fingerprint).map fun e => (true, e)
    | none => some (true, e)
  else if key = "ice-ufrag".toList then some (true, { e with iceUfrag := some value })
  else if key = "ice-pwd".toList then some (true, { e with icePwd := some value })
  else if key = "ice-options".toList ∧ value = "trickle".toList then some (true, e)
  else if key = "candidate".toList then some (true, e)
  else if key = "end-of-candidate".toList then some (true, e)
  else if key = "setup".toList then
    some (true, { e with role := some (
      if value = "active".toList then .active
      else if value = "passive".toList then .passive
      else .actPass) })
  else some (false, e)

end Entry

namespace Media

/-- `MediaEntry::ParseSDPAttributeField(key, value)`. -/
def parseEntryField (m : Media) (key value : Text) : Option (Bool × Media) :=
  if key = "mid".toList then some (true, { m with mid := value })
  else if value = "bundle-only".toList then some (true, m)
  else (m.entry.parseSDPAttributeField key value).map fun (result, entry) =>
    (result, { m with entry := entry })

/-! ## Parsing: the attributes of a media -/

/-- `a=extmap`. -/
def parseExtMap (m : Media) (value : Text) : Option (Bool × Media) := do
  let extId ← toInt (before ' ' value)
  let extUri := after ' ' value
  if m.extMaps.any (·.id = extId) then
    pure (true, { m with
      extMaps := m.extMaps.map fun map =>
        if map.id = extId then { map with uri := extUri } else map })
  else pure (true, { m with extMaps := m.extMaps ++ [⟨extId, extUri⟩] })

/-- `ParseRtpMap(attr_value)`: the outer `none` is an exception, the inner one no RTP map. -/
def parseRtpMapValue (attrValue : Text) : Option (Option RtpMap) :=
  if ' ' ∉ attrValue then some none
  else do
    let payloadType ← toInt (before ' ' attrValue)
    let line := after ' ' attrValue
    if '/' ∉ line then pure none
    else
      match codecFromText (before '/' line) with
      | none => pure none
      | some codec =>
        let line := after '/' line
        if '/' ∈ line then do
          let clockRate ← toInt (before '/' line)
          pure (some { payloadType, codec, clockRate, codecParams := some (after '/' line) })
        else if ' ' ∈ line then do
          let clockRate ← toInt (before ' ' line)
          pure (some { payloadType, codec, clockRate, codecParams := some (after ' ' line) })
        else do
          let clockRate ← toInt line
          pure (some { payloadType, codec, clockRate })

/-- The RTP map of a payload type is changed, if there is one. -/
def updateRtpMap (m : Media) (payloadType : Int) (f : RtpMap → RtpMap) : Media :=
  { m with
    rtpMaps := m.rtpMaps.map fun map => if map.payloadType = payloadType then f map else map }

/-- `a=rtpmap`.  For a payload type that is there already, the parameters are those it has:
without any, this throws. -/
def parseRtpMap (m : Media) (value : Text) : Option (Bool × Media) := do
  let rtpMap ← parseRtpMapValue value
  match rtpMap with
  | none => pure (false, m)
  | some rtpMap =>
    match m.rtpMaps.find? (·.payloadType = rtpMap.payloadType) with
    | none => pure (true, { m with rtpMaps := m.rtpMaps ++ [rtpMap] })
    | some found =>
      if rtpMap.codecParams.isSome ∧ found.codecParams = none then none
      else pure (true, m.updateRtpMap rtpMap.payloadType fun map =>
        { map with codec := rtpMap.codec, clockRate := rtpMap.clockRate })

/-- `a=rtcp-fb`. -/
def parseRtcpFb (m : Media) (value : Text) : Option (Bool × Media) := do
  let payloadType ← toInt (before ' ' value)
  if m.rtpMaps.any (·.payloadType = payloadType) then
    match rtcpFeedbackFromText (after ' ' value) with
    | some feedback => pure (true, m.updateRtpMap payloadType fun map =>
        { map with rtcpFeedbacks := map.rtcpFeedbacks ++ [feedback] })
    | none => pure (true, m)
  else pure (false, m)

/-- `a=fmtp`. -/
def parseFmtp (m : Media) (value : Text) : Option (Bool × Media) := do
  let payloadType ← toInt (before ' ' value)
  if m.rtpMaps.any (·.payloadType = payloadType) then
    pure (true, m.updateRtpMap payloadType fun map =>
      { map with fmtProfiles := map.fmtProfiles ++ [after ' ' value] })
  else pure (false, m)

/-- `a=ssrc-group`. -/
def parseSsrcGroup (m : Media) (value : Text) : Option (Bool × Media) := do
  let semantics := before ' ' value
  let ssrcIds := after ' ' value
  let mediaSsrc ← toUInt32 (before ' ' ssrcIds)
  let m := { m with mediaSsrcs := m.mediaSsrcs ++ [mediaSsrc] }
  let associatedSsrc ← toUInt32 (after ' ' ssrcIds)
  if semantics = "FID".toList then
    pure (true, { m with rtxSsrcs := m.rtxSsrcs ++ [associatedSsrc] })
  else if semantics = "FEC".toList then
    pure (true, { m with fecSsrcs := m.fecSsrcs ++ [associatedSsrc] })
  else pure (true, { m with mediaSsrcs := m.mediaSsrcs ++ [mediaSsrc] })

/-- The entry of an SSRC, made if there is none. -/
def emplaceSsrc (m : Media) (ssrc : U32) : Media :=
  if m.ssrcEntries.any (·.ssrc = ssrc) then m
  else if ssrc ∈ m.rtxSsrcs then { m with ssrcEntries := m.ssrcEntries ++ [{ ssrc, kind := .rtx }] }
  else if ssrc ∈ m.fecSsrcs then { m with ssrcEntries := m.ssrcEntries ++ [{ ssrc, kind := .fec }] }
  else
    { m with
      ssrcEntries := m.ssrcEntries ++ [{ ssrc, kind := .media }]
      -- in case of no `ssrc-group`
      mediaSsrcs := if ssrc ∈ m.mediaSsrcs then m.mediaSsrcs else m.mediaSsrcs ++ [ssrc] }

/-- What a line says about an SSRC. -/
def readSsrcValue (value : Text) (e : SsrcEntry) : SsrcEntry :=
  let e := match afterText "cname:".toList value with
    | some cname => { e with cname := some cname }
    | none => e
  match afterText "msid:".toList value with
  | some msid =>
    if ' ' ∈ msid then { e with msid := some (before ' ' msid), trackId := some (after ' ' msid) }
    else { e with msid := some msid }
  | none => e

/-- `a=ssrc`. -/
def parseSsrc (m : Media) (value : Text) : Option (Bool × Media) := do
  let ssrc ← toUInt32 value
  let m := m.emplaceSsrc ssrc
  pure (true, { m with
    ssrcEntries := m.ssrcEntries.map fun e => if e.ssrc = ssrc then readSsrcValue value e else e })

/-- `Media::ParseSDPAttributeField(key, value)`; `none` is an exception. -/
def parseSDPAttributeField (m : Media) (key value : Text) : Option (Bool × Media) :=
  match directionFromText value with
  | some direction => some (true, { m with direction := direction })
  | none =>
    if key = "extmap".toList then m.parseExtMap value
    else if key = "rtpmap".toList then m.parseRtpMap value
    else if key = "rtcp-fb".toList then m.parseRtcpFb value
    else if key = "fmtp".toList then m.parseFmtp value
    else if key = "ssrc-group".toList then m.parseSsrcGroup value
    else if key = "ssrc".toList then m.parseSsrc value
    else if value = "rtcp-mux".toList then some (true, { m with rtcpMuxEnabled := true })
    else if key = "rtcp-rsize".toList then some (true, { m with rtcpRsizeEnabled := true })
    else m.parseEntryField key value

/-- `Media::ParseSDPLine(line)`; `none` is an exception. -/
def parseSDPLine (m : Media) (line : Text) : Option (Bool × Media) :=
  if matchPrefix line "a=".toList then
    let attr := parsePair (line.drop 2)
    m.parseSDPAttributeField attr.1 attr.2
  else if matchPrefix line "b=AS".toList then do
    let value ← toInt (after ':' line)
    pure (true, { m with bandwidthMaxValue := value })
  else if matchPrefix line "c=".toList then some (true, m)
  else some (false, m)

/-- The lines one by one, whatever `ParseSDPLine` returns. -/
def parseSDPLines (m : Media) (lines : List Text) : Option Media :=
  lines.foldlM (fun m line => (m.parseSDPLine line).map Prod.snd) m

end Media

end NaiveRtc.Sdp
