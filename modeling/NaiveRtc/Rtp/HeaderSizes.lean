import NaiveRtc.Rtp.ExtensionAtomicity
import NaiveRtc.Rtp.ExtensionLayout

/-!
# How large headers will be

Whether `HeaderExtensionMap::CalculateSize` says by how much the extensions make a header grow, and
what `RtpPacketGenerator::UpdateHeaderSizes` makes of it.

* `sizeOf` — the formula of `CalculateSize`, for a list of identifiers and sizes; `blockSize_eq`
  and `calculateSize_eq` — **packets grow by it for the extensions they get, and `CalculateSize`
  applies it to the extensions that are not registered**.
* `setExtensions` — extensions that are set one after another; `Grown`, `Grown.setExtensions`,
  `Grown.setExtensions_all` — what a packet becomes.
* `Predicts`, `RtpPacketGenerator`, `PayloadsFit` — what the sizes are for.
* `predicts_iff` — **the prediction is right exactly when** the formula happens to agree for both
  kinds, and payloads fit exactly when it gives enough.
-/

namespace NaiveRtc.Rtp

open ByteIo CopyOnWrite Overwrite

/-! ## The formula -/

/-- The size of each header that `CalculateSize` takes. -/
def eachSizeOf (es : List (Nat × Nat)) : Nat :=
  if es.any fun e => RtpExtension.kOneByteHeaderExtensionMaxId < e.1 ∨
    RtpExtension.kOneByteHeaderExtensionMaxValueSize < e.2 then 2 else 1

/-- **The formula of `CalculateSize`**, for the extensions that are counted. -/
def sizeOf (es : List (Nat × Nat)) : Nat :=
  if (es.map Prod.snd).sum = 0 then 0
  else
    let size := kExtensionBlockHeaderSize + eachSizeOf es * es.length + (es.map Prod.snd).sum
    size + 3 - (size + 3) % 4

/-- The identifier and the size of an extension. -/
def pairOf (map : HeaderExtensionMap) (e : ExtensionSize) : Nat × Nat := (map.getId e.type, e.size)

/-- The extensions that are registered. -/
def registeredOf (map : HeaderExtensionMap) (es : List ExtensionSize) : List ExtensionSize :=
  es.filter fun e => map.getId e.type ≠ RtpExtension.kInvalidId

/-- The extensions that are not registered. -/
def unregisteredOf (map : HeaderExtensionMap) (es : List ExtensionSize) : List ExtensionSize :=
  es.filter fun e => map.getId e.type = RtpExtension.kInvalidId

theorem addSizes_eq (map : HeaderExtensionMap) (es : List ExtensionSize) (extensionSize
    numExtensions eachExtensionHeaderSize : Nat) :
    map.addSizes extensionSize numExtensions eachExtensionHeaderSize es =
      (extensionSize + (((unregisteredOf map es).map (pairOf map)).map Prod.snd).sum,
        numExtensions + ((unregisteredOf map es).map (pairOf map)).length,
        if ((unregisteredOf map es).map (pairOf map)).any fun e =>
            RtpExtension.kOneByteHeaderExtensionMaxId < e.1 ∨
              RtpExtension.kOneByteHeaderExtensionMaxValueSize < e.2 then 2
          else eachExtensionHeaderSize) := by
  induction es generalizing extensionSize numExtensions eachExtensionHeaderSize with
  | nil => rfl
  | cons e es ih =>
    rw [HeaderExtensionMap.addSizes]
    by_cases hid : map.getId e.type = RtpExtension.kInvalidId
    · have hfilter : unregisteredOf map (e :: es) = e :: unregisteredOf map es :=
        List.filter_cons_of_pos (decide_eq_true hid)
      rw [if_neg (not_not.2 hid), ih, hfilter, List.map_cons, List.map_cons, List.sum_cons,
        List.length_cons, List.any_cons]
      have hpair : pairOf map e = (map.getId e.type, e.size) := rfl
      rw [hpair]
      refine Prod.ext (by dsimp only; omega) (Prod.ext (by dsimp only; omega) ?_)
      dsimp only
      cases List.any _ _ <;> by_cases hlarge : RtpExtension.kOneByteHeaderExtensionMaxId <
        map.getId e.type ∨ RtpExtension.kOneByteHeaderExtensionMaxValueSize < e.size <;>
          simp [hlarge]
    · have hfilter : unregisteredOf map (e :: es) = unregisteredOf map es :=
        List.filter_cons_of_neg (by rw [decide_eq_true_iff]; exact hid)
      rw [if_pos hid, ih, hfilter]

theorem calculateSize_eq (map : HeaderExtensionMap) (es : List ExtensionSize) :
    map.calculateSize es = sizeOf ((unregisteredOf map es).map (pairOf map)) := by
  unfold HeaderExtensionMap.calculateSize sizeOf eachSizeOf
  rw [addSizes_eq]
  dsimp only
  rw [Nat.zero_add, Nat.zero_add]

theorem blockSize_eq {es : List (Nat × Nat)} (hsizes : ∀ e ∈ es, 1 ≤ e.2) :
    blockSize es = sizeOf es := by
  have heach : eachHeaderSize es = eachSizeOf es := by
    have hany : needsTwoByte es = es.any fun e => RtpExtension.kOneByteHeaderExtensionMaxId < e.1 ∨
        RtpExtension.kOneByteHeaderExtensionMaxValueSize < e.2 := by
      unfold needsTwoByte RtpPacket.twoByteRequired
      rw [Bool.eq_iff_iff, List.any_eq_true, List.any_eq_true]
      refine exists_congr fun e => and_congr_right fun he => ?_
      have hsize : e.2 ≠ 0 := Nat.ne_of_gt (hsizes e he)
      rw [Bool.or_eq_true, Bool.or_eq_true, decide_eq_true_iff, decide_eq_true_iff,
        decide_eq_true_iff, decide_eq_true_iff, or_iff_left hsize]
    unfold eachHeaderSize eachSizeOf
    rw [hany]
    rfl
  unfold blockSize sizeOf
  cases es with
  | nil => rfl
  | cons e es =>
    have hpos : 1 ≤ e.2 := hsizes e List.mem_cons_self
    have hsum : (List.map Prod.snd (e :: es)).sum ≠ 0 := by
      rw [List.map_cons, List.sum_cons]
      omega
    rw [if_neg (List.cons_ne_nil _ _), if_neg hsum]
    unfold elementsSize RtpPacket.paddedSize kExtensionBlockHeaderSize
    rw [heach]
    dsimp only
    omega

/-! ## Extensions that can be set -/

/-- The extensions can all be in one packet with the map, as far as the map is concerned. -/
structure Settable (map : HeaderExtensionMap) (es : List ExtensionSize) : Prop where
  registered : ∀ e ∈ es, map.getId e.type ≠ RtpExtension.kInvalidId
  size : ∀ e ∈ es, 1 ≤ e.size ∧ e.size ≤ RtpExtension.kMaxValueSize
  mixed : map.extmapAllowMixed = false → ∀ e ∈ es,
    map.getId e.type ≤ RtpExtension.kOneByteHeaderExtensionMaxId ∧
      e.size ≤ RtpExtension.kOneByteHeaderExtensionMaxValueSize
  nodup : (es.map fun e => map.getId e.type).Nodup

theorem settable_nil (map : HeaderExtensionMap) : Settable map [] where
  registered _ hmem := by cases hmem
  size _ hmem := by cases hmem
  mixed _ _ hmem := by cases hmem
  nodup := List.nodup_nil

variable {map : HeaderExtensionMap}

theorem Settable.shorten {es es' : List ExtensionSize}
    (h : Settable map es') (hlonger : es <+: es') : Settable map es where
  registered e he := h.registered e (hlonger.subset he)
  size e he := h.size e (hlonger.subset he)
  mixed hallow e he := h.mixed hallow e (hlonger.subset he)
  nodup := h.nodup.sublist (hlonger.sublist.map _)

theorem map_snd_pairOf (map : HeaderExtensionMap) (es : List ExtensionSize) :
    (es.map (pairOf map)).map Prod.snd = es.map (·.size) := List.map_map

variable {es : List ExtensionSize}

theorem Settable.length_le (h : Settable map es) : es.length ≤ RtpExtensionType.all.length := by
  have hsubset : (es.map fun e => map.getId e.type) ⊆ RtpExtensionType.all.map map.getId := by
    intro id hid
    obtain ⟨e, he, rfl⟩ := List.mem_map.1 hid
    have hregistered := h.registered e he
    refine List.mem_map_of_mem ?_
    cases htype : e.type <;> first
      | (rw [htype] at hregistered; exact absurd rfl hregistered)
      | decide
  have hle := (List.subperm_of_subset h.nodup hsubset).length_le
  rwa [List.length_map, List.length_map] at hle

theorem sum_size_le {bound : Nat} (h : ∀ e ∈ es, e.size ≤ bound) :
    (es.map (·.size)).sum ≤ bound * es.length := by
  induction es with
  | nil => exact Nat.zero_le _
  | cons e es ih =>
    have hhead := h e List.mem_cons_self
    have hrest := ih fun e he => h e (List.mem_cons_of_mem _ he)
    rw [List.map_cons, List.sum_cons, List.length_cons, Nat.mul_add, Nat.mul_one]
    omega

theorem Settable.elementsSize_le
    (h : Settable map es) : elementsSize (es.map (pairOf map)) ≤ 9 * 257 := by
  have hlength : es.length ≤ 9 := h.length_le
  have hsum : (es.map (·.size)).sum ≤ 255 * es.length :=
    sum_size_le fun e he => (h.size e he).2
  have heach : eachHeaderSize (es.map (pairOf map)) ≤ 2 := by
    unfold eachHeaderSize
    split <;> decide
  have hheaders := Nat.mul_le_mul heach (Nat.le_refl (es.map (pairOf map)).length)
  unfold elementsSize
  rw [map_snd_pairOf]
  rw [List.length_map] at hheaders ⊢
  omega

theorem Settable.sizeOf_eq
    (h : Settable map es) : blockSize (es.map (pairOf map)) = sizeOf (es.map (pairOf map)) := by
  refine blockSize_eq fun pair hpair => ?_
  obtain ⟨e, he, rfl⟩ := List.mem_map.1 hpair
  exact (h.size e he).1

/-! ## Setting them -/

/-- `AllocateExtension` for one after another, as `SetExtension` and `ReserveExtension` do before
they write the values; and whether all of them succeeded. -/
def setExtensions (growTo : Nat → Nat → Nat) (p : RtpPacket) :
    List ExtensionSize → RtpPacket × Bool
  | [] => (p, true)
  | e :: es =>
    let r := p.allocateExtension growTo e.type e.size
    let rest := setExtensions growTo r.1 es
    (rest.1, r.2.isSome && rest.2)

/-- A packet with the map that has no extensions yet. -/
structure Bare (map : HeaderExtensionMap) (p : RtpPacket) : Prop extends p.Sound where
  extensionMap : p.extensionMap = map
  extensionEntries : p.extensionEntries = []
  extensionsSize : p.extensionsSize = 0
  header : p.payloadOffset + 4 = p.extensionsOffset

/-- A packet that got the extensions. -/
structure Grown (map : HeaderExtensionMap) (p q : RtpPacket) (es : List ExtensionSize) :
    Prop extends q.Laid where
  extensionMap : q.extensionMap = map
  offset : q.extensionsOffset = p.extensionsOffset
  pairs : q.pairs = es.map (pairOf map)
  settable : Settable map es

theorem Bare.grown {p : RtpPacket} (h : Bare map p) :
    Grown map p p [] where
  toLaid := .of_nil (.of_nil h.toSound h.extensionEntries) h.extensionEntries h.extensionsSize
    h.header
  extensionMap := h.extensionMap
  offset := rfl
  pairs := by
    unfold RtpPacket.pairs
    rw [h.extensionEntries]
    rfl
  settable := settable_nil map

theorem Grown.headerSize {p q : RtpPacket} (h : Grown map p q es) (hp : Bare map p) :
    q.headerSize = p.headerSize + sizeOf (es.map (pairOf map)) := by
  have hheader := h.header
  have hbare := hp.header
  rw [h.offset, h.pairs, h.settable.sizeOf_eq] at hheader
  show q.payloadOffset = p.payloadOffset + _
  omega

section Growth

variable {growTo : Nat → Nat → Nat} {map : HeaderExtensionMap} {p q : RtpPacket}
  {es : List ExtensionSize}

/-- The extension is there, with its size. -/
def Has (map : HeaderExtensionMap) (es : List ExtensionSize) (e : ExtensionSize) : Prop :=
  ∃ e' ∈ es, pairOf map e' = pairOf map e

theorem Settable.append (h : Settable map es) {e : ExtensionSize}
    (haccepted : ¬ q.RejectsType e.type e.size) (hmap : q.extensionMap = map)
    (hnew : map.getId e.type ∉ es.map fun e => map.getId e.type) : Settable map (es ++ [e]) := by
  unfold RtpPacket.RejectsType at haccepted
  rw [hmap] at haccepted
  push Not at haccepted
  obtain ⟨⟨hzero, hmax, hmixed⟩, hregistered, hid⟩ := haccepted
  have hall : ∀ {P : ExtensionSize → Prop}, (∀ e ∈ es, P e) → P e → ∀ e' ∈ es ++ [e], P e' := by
    intro P hes he e' he'
    rcases List.mem_append.1 he' with he' | he'
    · exact hes e' he'
    · rw [List.mem_singleton.1 he']
      exact he
  refine ⟨hall h.registered hregistered, hall h.size ⟨Nat.pos_of_ne_zero hzero, hmax⟩,
    fun hallow => hall (h.mixed hallow) ⟨hid (by simp [hallow]), hmixed (by simp [hallow])⟩, ?_⟩
  rw [List.map_append]
  refine List.nodup_append.2 ⟨h.nodup, List.nodup_singleton _, fun id hid' id' hid'' heq => ?_⟩
  rw [heq, List.mem_singleton.1 hid''] at hid'
  exact hnew hid'

theorem Grown.find (h : Grown map p q es) {id : Nat} :
    (q.findExtensionInfo id = none → id ∉ es.map fun e => map.getId e.type) ∧
      ∀ entry, q.findExtensionInfo id = some entry →
        ∃ e ∈ es, pairOf map e = (id, entry.size) := by
  have hpairs := h.pairs
  unfold RtpPacket.pairs at hpairs
  constructor
  · intro hnone hmem
    obtain ⟨e, he, rfl⟩ := List.mem_map.1 hmem
    have hpair : pairOf map e ∈ q.extensionEntries.map fun e => (e.id, e.size) := by
      rw [hpairs]
      exact List.mem_map_of_mem he
    obtain ⟨entry, hentry, heq⟩ := List.mem_map.1 hpair
    have hid : entry.id = map.getId e.type := congrArg Prod.fst heq
    exact List.find?_eq_none.1 hnone entry hentry (beq_iff_eq.2 hid)
  · intro entry hsome
    have hfound := List.find?_some hsome
    have hpair : (entry.id, entry.size) ∈ es.map (pairOf map) := by
      rw [← hpairs]
      exact List.mem_map_of_mem (List.mem_of_find?_eq_some hsome)
    obtain ⟨e, he, heq⟩ := List.mem_map.1 hpair
    refine ⟨e, he, heq.trans ?_⟩
    rw [beq_iff_eq.1 hfound]

/-- **One more extension is set**, or was there with its size, or the packet stays as it is. -/
theorem Grown.step (hgrow : ∀ c n, n ≤ growTo c n) (h : Grown map p q es) (e : ExtensionSize) :
    ∃ es', Grown map p (q.allocateExtension growTo e.type e.size).1 es' ∧
      (es' = es ∨ es' = es ++ [e]) ∧
      ((q.allocateExtension growTo e.type e.size).2.isSome = true → Has map es' e) := by
  obtain ⟨hrejected, haccepted⟩ := @RtpPacket.allocateExtension_eq growTo q e.type e.size
  by_cases hrejects : q.RejectsType e.type e.size
  · rw [hrejected hrejects]
    exact ⟨es, h, Or.inl rfl, fun hfalse => absurd hfalse Bool.false_ne_true⟩
  rw [haccepted hrejects, h.extensionMap]
  by_cases hasks : q.AsksForNew (map.getId e.type) e.size
  swap
  · obtain ⟨hsame, hfound⟩ := @RtpPacket.allocateRawExtension_same growTo q _ _ hasks
    rw [hsame]
    refine ⟨es, h, Or.inl rfl, fun hsome => ?_⟩
    obtain ⟨offset, hoffset⟩ := Option.isSome_iff_exists.1 hsome
    have hentry := hfound offset hoffset
    have hpair : (map.getId e.type, e.size) ∈ es.map (pairOf map) := by
      rw [← h.pairs]
      exact List.mem_map.2 ⟨_, hentry, rfl⟩
    obtain ⟨e', he', heq⟩ := List.mem_map.1 hpair
    exact ⟨e', he', heq⟩
  by_cases hrefuses : q.Refuses (map.getId e.type) e.size
  · obtain ⟨-, hfirst, -⟩ := @RtpPacket.Placed.resize_capacity growTo q h.toPlaced
    rw [RtpPacket.allocateRawExtension_refused h.toPlaced hasks hrefuses]
    refine ⟨es, ⟨h.toLaid.resize_capacity, h.extensionMap, hfirst.trans h.offset, h.pairs,
      h.settable⟩, Or.inl rfl, fun hfalse => absurd hfalse Bool.false_ne_true⟩
  · have hsettable := h.settable.append hrejects h.extensionMap (h.find.1 hasks.find)
    have hsmall : q.extensionsOffset + q.grownSize (map.getId e.type) e.size < 2 ^ 16 := by
      have hsize := (h.toLaid.grownSize_eq (map.getId e.type) e.size).1
      have hle := hsettable.elementsSize_le
      have hoffset := q.extensionsOffset_le
      rw [List.map_append, ← h.pairs] at hle
      have hlast : [e].map (pairOf map) = [(map.getId e.type, e.size)] := rfl
      rw [hlast, ← hsize] at hle
      omega
    obtain ⟨offset, hsome, happended, hlaid⟩ :=
      h.toLaid.allocateRawExtension hgrow hasks hrefuses hsmall
    refine ⟨es ++ [e], ⟨hlaid, happended.fields.extensionMap.trans h.extensionMap,
      happended.extensionsOffset.trans h.offset, ?_, hsettable⟩, Or.inr rfl,
      fun _ => ⟨e, List.mem_append_right _ List.mem_cons_self, rfl⟩⟩
    rw [happended.pairs_eq, h.pairs, List.map_append]
    rfl

theorem Has.mono {es' : List ExtensionSize} {e : ExtensionSize} (h : Has map es e)
    (hsubset : es ⊆ es') : Has map es' e := by
  obtain ⟨e', he', heq⟩ := h
  exact ⟨e', hsubset he', heq⟩

/-- **What a packet becomes**: it got some of the extensions, and all of them when all calls
succeeded. -/
theorem Grown.setExtensions (hgrow : ∀ c n, n ≤ growTo c n) (h : Grown map p q es)
    (order : List ExtensionSize) :
    ∃ es', Grown map p (setExtensions growTo q order).1 es' ∧ es <+: es' ∧
      (∀ e ∈ es', e ∈ es ∨ e ∈ order) ∧
      ((setExtensions growTo q order).2 = true → ∀ e ∈ order, Has map es' e) := by
  induction order generalizing q es with
  | nil =>
    exact ⟨es, h, List.prefix_refl es, fun e he => Or.inl he, fun _ _ hmem => by cases hmem⟩
  | cons e order ih =>
    obtain ⟨es₁, hgrown₁, hcases, hhas⟩ := h.step hgrow e
    have hlonger : es <+: es₁ := by
      rcases hcases with rfl | rfl
      · exact List.prefix_refl _
      · exact List.prefix_append _ _
    obtain ⟨es₂, hgrown₂, hlonger₂, hmem, hall⟩ := ih hgrown₁
    refine ⟨es₂, hgrown₂, hlonger.trans hlonger₂, fun e' he' => ?_, fun hsuccess => ?_⟩
    · rcases hmem e' he' with he' | he'
      · rcases hcases with rfl | rfl
        · exact Or.inl he'
        · rcases List.mem_append.1 he' with he' | he'
          · exact Or.inl he'
          · exact Or.inr (List.mem_cons.2 (Or.inl (List.mem_singleton.1 he')))
      · exact Or.inr (List.mem_cons_of_mem _ he')
    · obtain ⟨hsome, hrest⟩ := Bool.and_eq_true_iff.1 hsuccess
      intro e' he'
      rcases List.mem_cons.1 he' with rfl | he'
      · exact (hhas hsome).mono hlonger₂.subset
      · exact hall hrest e' he'

/-- Nothing is in the way of extensions, and there is room for them. -/
structure Roomy (q : RtpPacket) : Prop where
  payloadSize : q.payloadSize = 0
  paddingSize : q.paddingSize = 0
  capacity : q.capacity = 4096

theorem Settable.not_rejects {e : ExtensionSize} (h : Settable map es) (he : e ∈ es)
    (hmap : q.extensionMap = map) : ¬ q.RejectsType e.type e.size := by
  obtain ⟨hpos, hmax⟩ := h.size e he
  unfold RtpPacket.RejectsType
  rw [hmap]
  rintro ((hsize | hsize | ⟨hallow, hsize⟩) | hid | ⟨hallow, hid⟩)
  · omega
  · omega
  · have hmixed := (h.mixed (by simpa using hallow) e he).2
    omega
  · exact h.registered e he hid
  · have hmixed := (h.mixed (by simpa using hallow) e he).1
    omega

theorem Grown.step_new (hgrow : ∀ c n, n ≤ growTo c n) (h : Grown map p q es) (hroomy : Roomy q)
    {e : ExtensionSize} (hsettable : Settable map (es ++ [e])) :
    Grown map p (q.allocateExtension growTo e.type e.size).1 (es ++ [e]) ∧
      Roomy (q.allocateExtension growTo e.type e.size).1 ∧
      (q.allocateExtension growTo e.type e.size).2.isSome = true := by
  have hlast : e ∈ es ++ [e] := List.mem_append_right _ List.mem_cons_self
  obtain ⟨hpos, hmax⟩ := hsettable.size e hlast
  have hnew : map.getId e.type ∉ es.map fun e => map.getId e.type := by
    intro hmem
    have hnodup := hsettable.nodup
    rw [List.map_append] at hnodup
    exact (List.nodup_append.1 hnodup).2.2 _ hmem _ List.mem_cons_self rfl
  have hfind : q.findExtensionInfo (map.getId e.type) = none := by
    cases hfound : q.findExtensionInfo (map.getId e.type) with
    | none => rfl
    | some entry =>
      obtain ⟨e', he', heq⟩ := h.find.2 entry hfound
      exact absurd (List.mem_map.2 ⟨e', he', congrArg Prod.fst heq⟩) hnew
  have hregistered : map.getId e.type ≠ 0 := hsettable.registered e hlast
  have hid : ¬ (map.getId e.type < RtpExtension.kMinId ∨
      RtpExtension.kMaxId < map.getId e.type) := by
    have hle := map.getId_le e.type
    unfold RtpExtension.kMinId
    omega
  have hasks : q.AsksForNew (map.getId e.type) e.size :=
    ⟨hid, by omega, hfind, hroomy.payloadSize, hroomy.paddingSize⟩
  have hsmall : q.extensionsOffset + q.grownSize (map.getId e.type) e.size ≤ 76 + 9 * 257 := by
    have hsize := (h.toLaid.grownSize_eq (map.getId e.type) e.size).1
    have hle := hsettable.elementsSize_le
    have hoffset := q.extensionsOffset_le
    rw [List.map_append, ← h.pairs] at hle
    have hlast : [e].map (pairOf map) = [(map.getId e.type, e.size)] := rfl
    rw [hlast, ← hsize] at hle
    omega
  have hrefuses : ¬ q.Refuses (map.getId e.type) e.size := by
    rintro (hmixed | hfull)
    · rw [h.extensionMap] at hmixed
      obtain ⟨hrequired, hallow⟩ := Bool.and_eq_true_iff.1 hmixed
      obtain ⟨hid, hsize⟩ := hsettable.mixed (by simpa using hallow) e hlast
      unfold RtpPacket.twoByteRequired at hrequired
      simp only [Bool.or_eq_true, decide_eq_true_eq] at hrequired
      omega
    · rw [hroomy.capacity] at hfull
      omega
  obtain ⟨offset, hsome, happended, hlaid⟩ :=
    h.toLaid.allocateRawExtension hgrow hasks hrefuses (by omega)
  rw [(@RtpPacket.allocateExtension_eq growTo q e.type e.size).2
    (hsettable.not_rejects hlast h.extensionMap), h.extensionMap]
  refine ⟨⟨hlaid, happended.fields.extensionMap.trans h.extensionMap,
    happended.extensionsOffset.trans h.offset, ?_, hsettable⟩, ⟨?_, ?_, ?_⟩, ?_⟩
  · rw [happended.pairs_eq, h.pairs, List.map_append]
    rfl
  · exact happended.fields.payloadSize.trans hroomy.payloadSize
  · exact happended.fields.paddingSize.trans hroomy.paddingSize
  · exact (happended.aligned (by rw [hroomy.capacity]; decide)).trans hroomy.capacity
  · rw [hsome]
    rfl

theorem Grown.step_has (h : Grown map p q es) {e : ExtensionSize} (hhas : Has map es e) :
    ∃ offset, q.allocateExtension growTo e.type e.size = (q, some offset) := by
  obtain ⟨e', he', heq⟩ := hhas
  have hid : map.getId e'.type = map.getId e.type := congrArg Prod.fst heq
  have hsize : e'.size = e.size := congrArg Prod.snd heq
  have haccepted := h.settable.not_rejects he' h.extensionMap
  have hsame : ¬ q.RejectsType e.type e.size := by
    unfold RtpPacket.RejectsType at haccepted ⊢
    rw [h.extensionMap] at haccepted ⊢
    rwa [← hid, ← hsize]
  obtain ⟨hpos, hmax⟩ := h.settable.size e' he'
  have hregistered : map.getId e'.type ≠ 0 := h.settable.registered e' he'
  have hle := map.getId_le e.type
  rw [(@RtpPacket.allocateExtension_eq growTo q e.type e.size).2 hsame, h.extensionMap]
  unfold RtpPacket.allocateRawExtension
  rw [if_neg (by unfold RtpExtension.kMinId; omega), if_neg (by omega)]
  cases hfound : q.findExtensionInfo (map.getId e.type) with
  | none => exact absurd (List.mem_map.2 ⟨e', he', hid⟩) (h.find.1 hfound)
  | some entry =>
    obtain ⟨e'', he'', heq''⟩ := h.find.2 entry hfound
    have hid'' : map.getId e''.type = map.getId e'.type := (congrArg Prod.fst heq'').trans hid.symm
    have hunique : e'' = e' := List.inj_on_of_nodup_map h.settable.nodup he'' he' hid''
    have hentry : entry.size = e.size := by
      have hsize'' : e''.size = entry.size := congrArg Prod.snd heq''
      rw [← hsize'', hunique, hsize]
    dsimp only
    rw [if_pos hentry]
    exact ⟨_, rfl⟩

/-- **All extensions that can be set together are set**, one after another, when there is room. -/
theorem Grown.setExtensions_all (hgrow : ∀ c n, n ≤ growTo c n) (h : Grown map p q es)
    (hroomy : Roomy q) {order : List ExtensionSize} (hsettable : Settable map (es ++ order)) :
    Grown map p (NaiveRtc.Rtp.setExtensions growTo q order).1 (es ++ order) ∧
      (NaiveRtc.Rtp.setExtensions growTo q order).2 = true := by
  induction order generalizing q es with
  | nil =>
    rw [List.append_nil]
    exact ⟨h, rfl⟩
  | cons e order ih =>
    have hassoc : es ++ e :: order = es ++ [e] ++ order := by
      rw [List.append_assoc]
      rfl
    have hlonger : es ++ [e] <+: es ++ e :: order := by
      rw [hassoc]
      exact List.prefix_append _ _
    obtain ⟨hgrown, hroomy', hsome⟩ := h.step_new hgrow hroomy (hsettable.shorten hlonger)
    rw [hassoc] at hsettable ⊢
    obtain ⟨hrest, hall⟩ := ih hgrown hroomy' hsettable
    exact ⟨hrest, Bool.and_eq_true_iff.2 ⟨hsome, hall⟩⟩

theorem Grown.setExtensions_has (h : Grown map p q es) {order : List ExtensionSize}
    (hhas : ∀ e ∈ order, Has map es e) :
    NaiveRtc.Rtp.setExtensions growTo q order = (q, true) := by
  induction order with
  | nil => rfl
  | cons e order ih =>
    obtain ⟨offset, hoffset⟩ := @Grown.step_has growTo _ _ _ _ h e (hhas e List.mem_cons_self)
    rw [NaiveRtc.Rtp.setExtensions, hoffset]
    dsimp only
    rw [ih fun e he => hhas e (List.mem_cons_of_mem _ he)]
    rfl

theorem setExtensions_append (p : RtpPacket) (es es' : List ExtensionSize) :
    setExtensions growTo p (es ++ es') =
      ((setExtensions growTo (setExtensions growTo p es).1 es').1,
        (setExtensions growTo p es).2 &&
          (setExtensions growTo (setExtensions growTo p es).1 es').2) := by
  induction es generalizing p with
  | nil => rfl
  | cons e es ih =>
    rw [List.cons_append, setExtensions, setExtensions, ih]
    dsimp only
    rw [Bool.and_assoc]

/-- **Whatever the order**, the header grows by extensions of the list that can be set together. -/
theorem Bare.setExtensions (hgrow : ∀ c n, n ≤ growTo c n) (hp : Bare map p)
    {order : List ExtensionSize} (horder : order.Perm (registeredOf map es)) :
    ∃ es', Settable map es' ∧ es' ⊆ es ∧
      (setExtensions growTo p order).1.headerSize = p.headerSize + sizeOf (es'.map (pairOf map)) ∧
      ((setExtensions growTo p order).2 = true → ∀ e ∈ registeredOf map es, Has map es' e) := by
  obtain ⟨es', hgrown, -, hmem, hall⟩ := hp.grown.setExtensions hgrow order
  refine ⟨es', hgrown.settable, fun e he => ?_, hgrown.headerSize hp, fun hsuccess e he => ?_⟩
  · have he := (hmem e he).resolve_left (by simp)
    exact List.mem_of_mem_filter (horder.mem_iff.1 he)
  · exact hall hsuccess e (horder.mem_iff.2 he)

theorem Bare.setExtensions_first (hgrow : ∀ c n, n ≤ growTo c n) (hp : Bare map p)
    (hroomy : Roomy p) {es' : List ExtensionSize} (hsettable : Settable map es')
    (hsubset : es' ⊆ es) :
    ∃ order, order.Perm (registeredOf map es) ∧
      p.headerSize + sizeOf (es'.map (pairOf map)) ≤
        (NaiveRtc.Rtp.setExtensions growTo p order).1.headerSize ∧
      ((∀ e ∈ registeredOf map es, Has map es' e) →
        (NaiveRtc.Rtp.setExtensions growTo p order).2 = true ∧
          (NaiveRtc.Rtp.setExtensions growTo p order).1.headerSize =
            p.headerSize + sizeOf (es'.map (pairOf map))) := by
  have hregistered : es' ⊆ registeredOf map es := fun e he =>
    List.mem_filter.2 ⟨hsubset he, decide_eq_true (hsettable.registered e he)⟩
  obtain ⟨es₁, hperm, hsublist⟩ := List.subperm_of_subset hsettable.nodup.of_map hregistered
  obtain ⟨rest, hrest⟩ := hsublist.exists_perm_append
  refine ⟨es' ++ rest, ((hperm.symm.append_right rest).trans hrest.symm), ?_⟩
  obtain ⟨hgrown, hall⟩ := hp.grown.setExtensions_all hgrow hroomy hsettable
  rw [List.nil_append] at hgrown
  rw [setExtensions_append, hall]
  constructor
  · obtain ⟨es₂, hgrown₂, hlonger, -⟩ := hgrown.setExtensions hgrow rest
    have hmono : blockSize (es'.map (pairOf map)) ≤ blockSize (es₂.map (pairOf map)) := by
      obtain ⟨more, rfl⟩ := hlonger
      rw [List.map_append]
      exact blockSize_le_append _ _
    rw [hsettable.sizeOf_eq, hgrown₂.settable.sizeOf_eq] at hmono
    have hheader := hgrown₂.headerSize hp
    dsimp only
    omega
  · intro hhas
    have hsame := @Grown.setExtensions_has growTo _ _ _ _ hgrown rest fun e he =>
      hhas e (hrest.symm.mem_iff.1 (List.mem_append_right _ he))
    rw [hsame]
    exact ⟨rfl, hgrown.headerSize hp⟩

end Growth

/-! ## The prediction -/

/-- **The size that is calculated is never less than what the header grows by**, whatever the order
in which the registered extensions of the list are set, and exactly that when all are set. -/
def Predicts (growTo : Nat → Nat → Nat) (map : HeaderExtensionMap) (es : List ExtensionSize) :
    Prop :=
  ∀ p, Bare map p → ∀ order : List ExtensionSize, order.Perm (registeredOf map es) →
    (setExtensions growTo p order).1.headerSize ≤ p.headerSize + map.calculateSize es ∧
      ((setExtensions growTo p order).2 = true →
        (setExtensions growTo p order).1.headerSize = p.headerSize + map.calculateSize es)

/-- The formula gives for the unregistered extensions at least what it gives for registered ones
that can be set together, and the same when these are all. -/
def SizesAgree (map : HeaderExtensionMap) (es : List ExtensionSize) : Prop :=
  ∀ es', Settable map es' → es' ⊆ es →
    sizeOf (es'.map (pairOf map)) ≤ sizeOf ((unregisteredOf map es).map (pairOf map)) ∧
      ((∀ e ∈ registeredOf map es, Has map es' e) →
        sizeOf (es'.map (pairOf map)) = sizeOf ((unregisteredOf map es).map (pairOf map)))

/-! ## A packet with room -/

theorem writeCsrcs_eq (p : RtpPacket) {offset : Nat} (hoffset : 0 < offset) (csrcs : List U32) :
    p.writeCsrcs offset csrcs = { p with buffer := (p.writeCsrcs offset csrcs).buffer } ∧
      (p.writeCsrcs offset csrcs).capacity = p.capacity ∧
      (p.writeCsrcs offset csrcs).bytes.getD 0 0 = p.bytes.getD 0 0 := by
  induction csrcs generalizing p offset with
  | nil => exact ⟨rfl, rfl, rfl⟩
  | cons csrc csrcs ih =>
    obtain ⟨hfields, hcapacity, hfirst⟩ := ih (p.writeAt offset (writeBigEndian 4 csrc.toNat))
      (Nat.lt_add_right 4 hoffset)
    refine ⟨hfields, hcapacity, hfirst.trans ?_⟩
    exact getD_overwrite_of_not_mem (Or.inl hoffset)

/-- A new packet with CSRCs, and with room for any extensions. -/
def roomyPacket (growTo : Nat → Nat → Nat) (map : HeaderExtensionMap) (csrcs : List U32) :
    RtpPacket :=
  (RtpPacket.create growTo map 4096).setCsrcs growTo csrcs

variable {growTo : Nat → Nat → Nat}

theorem roomyPacket_spec (hgrow : ∀ c n, n ≤ growTo c n)
    (map : HeaderExtensionMap) {csrcs : List U32} (hcsrcs : csrcs.length ≤ 15) :
    Bare map (roomyPacket growTo map csrcs) ∧ Roomy (roomyPacket growTo map csrcs) ∧
      (roomyPacket growTo map csrcs).numCsrc = csrcs.length := by
  let payloadOffset := kFixedHeaderSize + 4 * csrcs.length
  let q := RtpPacket.resize growTo
    { RtpPacket.create growTo map 4096 with payloadOffset := payloadOffset } payloadOffset
  let r := q.writeAt 0 [(q.byteAt 0 &&& 0xF0) ||| UInt8.ofNat csrcs.length]
  have hoffset : payloadOffset = 12 + 4 * csrcs.length := rfl
  have hlength : q.bytes.length = payloadOffset := length_resized _ _
  have hcapacity : q.capacity = 4096 := by
    show (RtpPacket.resize growTo
      { RtpPacket.create growTo map 4096 with payloadOffset := payloadOffset } _).capacity = _
    rw [RtpPacket.capacity_resize]
    exact if_pos (show payloadOffset ≤ 4096 by omega)
  obtain ⟨hfields, hwritten, hfirst⟩ := writeCsrcs_eq r (show 0 < kFixedHeaderSize by decide) csrcs
  have hresult : roomyPacket growTo map csrcs = r.writeCsrcs kFixedHeaderSize csrcs := rfl
  have hbits : ∀ n : Fin 16, ∀ byte : UInt8,
      (((byte &&& 0xF0) ||| UInt8.ofNat n) &&& 0x0F).toNat = n := by
    refine fun n => forall_byte ?_
    revert n
    decide +kernel
  have hnum : (roomyPacket growTo map csrcs).numCsrc = csrcs.length := by
    rw [hresult, RtpPacket.numCsrc_congr hfirst]
    show ((overwrite q.bytes 0 [_]).getD 0 0 &&& 0x0F).toNat = _
    rw [getD_overwrite, if_pos (by rw [List.length_singleton]; omega)]
    exact hbits ⟨csrcs.length, by omega⟩ _
  have hplaced : (roomyPacket growTo map csrcs).Placed :=
    (RtpPacket.Placed.create hgrow map 4096).setCsrcs hgrow rfl
  refine ⟨⟨hplaced.toSound, ?_, ?_, ?_, ?_⟩, ⟨?_, ?_, ?_⟩, hnum⟩
  · rw [hresult, hfields]
    rfl
  · rw [hresult, hfields]
    rfl
  · rw [hresult, hfields]
    rfl
  · unfold RtpPacket.extensionsOffset
    rw [hnum, hresult, hfields]
    show payloadOffset + 4 = _
    unfold kFixedHeaderSize
    omega
  · rw [hresult, hfields]
    rfl
  · rw [hresult, hfields]
    rfl
  · rw [hresult, hwritten]
    exact hcapacity

theorem predicts_iff_sizesAgree (hgrow : ∀ c n, n ≤ growTo c n)
    (map : HeaderExtensionMap) (es : List ExtensionSize) :
    Predicts growTo map es ↔ SizesAgree map es := by
  unfold Predicts SizesAgree
  rw [calculateSize_eq]
  constructor
  · intro hpredicts es' hsettable hsubset
    obtain ⟨hbare, hroomy, -⟩ := @roomyPacket_spec _ hgrow map [] (Nat.zero_le 15)
    obtain ⟨order, horder, hle, hall⟩ := hbare.setExtensions_first hgrow hroomy hsettable hsubset
    obtain ⟨hbound, hexact⟩ := hpredicts _ hbare order horder
    refine ⟨by omega, fun hhas => ?_⟩
    obtain ⟨hsuccess, hheader⟩ := hall hhas
    have hequal := hexact hsuccess
    omega
  · intro hagree p hbare order horder
    obtain ⟨es', hsettable, hsubset, hheader, hall⟩ := hbare.setExtensions hgrow horder
    obtain ⟨hle, hexact⟩ := hagree es' hsettable hsubset
    rw [hheader]
    exact ⟨by omega, fun hsuccess => by rw [hexact (hall hsuccess)]⟩

/-! ## Payloads -/

/-- `kRtxHeaderSize`. -/
def kRtxHeaderSize : Nat := 2

/-- `kFecOrPaddingExtensionSizes`. -/
def kFecOrPaddingExtensionSizes : List ExtensionSize :=
  [⟨.absoluteSendTime, 3⟩, ⟨.transmissionTimeOffset, 3⟩, ⟨.transportSequenceNumber, 2⟩,
    ⟨.playoutDelay, 3⟩, ⟨.mid, 16⟩]

/-- `kVideoExtensionSizes`; the capture time is there twice, and the send time is not. -/
def kVideoExtensionSizes : List ExtensionSize :=
  [⟨.absoluteCaptureTime, 16⟩, ⟨.absoluteCaptureTime, 16⟩, ⟨.transmissionTimeOffset, 3⟩,
    ⟨.transportSequenceNumber, 2⟩, ⟨.playoutDelay, 3⟩, ⟨.rtpStreamId, 16⟩,
    ⟨.repairedRtpStreamId, 16⟩, ⟨.mid, 16⟩]

/-- `kAudioExtensionSizes`. -/
def kAudioExtensionSizes : List ExtensionSize :=
  [⟨.absoluteSendTime, 3⟩, ⟨.absoluteCaptureTime, 16⟩, ⟨.transmissionTimeOffset, 3⟩,
    ⟨.transportSequenceNumber, 2⟩, ⟨.rtpStreamId, 16⟩, ⟨.repairedRtpStreamId, 16⟩, ⟨.mid, 16⟩]

/-- `IsNonVolatile(type)`. -/
def isNonVolatile : RtpExtensionType → Bool
  | .transmissionTimeOffset | .absoluteSendTime | .transportSequenceNumber
  | .transportSequenceNumber02 | .rtpStreamId | .mid => true
  | .none | .absoluteCaptureTime | .playoutDelay | .repairedRtpStreamId => false

/-- `RtpPacketGenerator`, as far as the sizes of headers depend on it. -/
structure RtpPacketGenerator where
  isAudio : Bool
  rtxSsrc : Option U32
  maxPacketSize : Nat
  maxMediaPacketHeaderSize : Nat
  maxFecOrPaddingPacketHeaderSize : Nat
  alwaysSendMidAndRid : Bool
  rtpHeaderExtensionMap : HeaderExtensionMap
  rid : List UInt8
  mid : List UInt8
  mediaSsrcHasAcked : Bool
  rtxSsrcHasAcked : Bool
  csrcs : List U32

namespace RtpPacketGenerator

/-- `send_mid_rid` of `UpdateHeaderSizes()`. -/
def sendMidRid (g : RtpPacketGenerator) : Bool :=
  let sendMidRidOnRtxSsrc := g.rtxSsrc.isSome && !g.rtxSsrcHasAcked
  g.alwaysSendMidAndRid || !g.mediaSsrcHasAcked || sendMidRidOnRtxSsrc

/-- `non_volatile_extensions` of `UpdateHeaderSizes()`. -/
def nonVolatileExtensions (g : RtpPacketGenerator) : List ExtensionSize :=
  let extensionSizes := if g.isAudio then kAudioExtensionSizes else kVideoExtensionSizes
  extensionSizes.filter fun extension =>
    isNonVolatile extension.type &&
      if extension.type = .mid then g.sendMidRid && !g.mid.isEmpty
      else if extension.type = .rtpStreamId then g.sendMidRid && !g.rid.isEmpty
      else true

/-- `rtp_header_size` of `UpdateHeaderSizes()`. -/
def rtpHeaderSize (g : RtpPacketGenerator) : Nat := kFixedHeaderSize + 4 * g.csrcs.length

/-- The bytes that are reserved for a packet to be sent again. -/
def rtxBytes (g : RtpPacketGenerator) : Nat := if g.rtxSsrc.isSome then kRtxHeaderSize else 0

/-- `UpdateHeaderSizes()`. -/
def updateHeaderSizes (g : RtpPacketGenerator) : RtpPacketGenerator :=
  { g with
    maxFecOrPaddingPacketHeaderSize :=
      g.rtpHeaderSize + g.rtpHeaderExtensionMap.calculateSize kFecOrPaddingExtensionSizes
    maxMediaPacketHeaderSize :=
      g.rtpHeaderSize + g.rtpHeaderExtensionMap.calculateSize g.nonVolatileExtensions + g.rtxBytes }

/-- **Payloads that leave room for the largest header fit** into a packet behind its header: a
packet with the CSRCs, with the extensions that are counted set in any order. -/
def PayloadsFit (growTo : Nat → Nat → Nat) (g : RtpPacketGenerator) : Prop :=
  ∀ p, Bare g.rtpHeaderExtensionMap p → p.numCsrc = g.csrcs.length →
    ∀ order : List ExtensionSize,
      order.Perm (registeredOf g.rtpHeaderExtensionMap g.nonVolatileExtensions) →
      ∀ payloadSize, g.updateHeaderSizes.maxMediaPacketHeaderSize + payloadSize ≤ g.maxPacketSize →
        (setExtensions growTo p order).1.headerSize + payloadSize ≤ g.maxPacketSize

/-- The formula gives, with the bytes for a packet that is sent again, for the unregistered
extensions at least what it gives for registered ones. -/
def SizesCover (g : RtpPacketGenerator) : Prop :=
  ∀ es', Settable g.rtpHeaderExtensionMap es' → es' ⊆ g.nonVolatileExtensions →
    sizeOf (es'.map (pairOf g.rtpHeaderExtensionMap)) ≤
      sizeOf ((unregisteredOf g.rtpHeaderExtensionMap g.nonVolatileExtensions).map
        (pairOf g.rtpHeaderExtensionMap)) + g.rtxBytes

theorem headerSize_bare {map : HeaderExtensionMap} {p : RtpPacket} (hp : Bare map p) :
    p.headerSize = kFixedHeaderSize + 4 * p.numCsrc := by
  have hheader := hp.header
  unfold RtpPacket.extensionsOffset at hheader
  unfold RtpPacket.headerSize
  omega

/-- **Payloads fit exactly when** the sizes cover, if there is such a packet and room for a
payload. -/
theorem payloadsFit_iff_sizesCover {growTo : Nat → Nat → Nat} (hgrow : ∀ c n, n ≤ growTo c n)
    (g : RtpPacketGenerator) :
    PayloadsFit growTo g ↔
      (g.csrcs.length ≤ 15 → g.updateHeaderSizes.maxMediaPacketHeaderSize ≤ g.maxPacketSize →
        SizesCover g) := by
  have hmax : g.updateHeaderSizes.maxMediaPacketHeaderSize = kFixedHeaderSize +
      4 * g.csrcs.length + sizeOf ((unregisteredOf g.rtpHeaderExtensionMap
        g.nonVolatileExtensions).map (pairOf g.rtpHeaderExtensionMap)) + g.rtxBytes := by
    rw [← calculateSize_eq]
    rfl
  constructor
  · intro hfit hcsrcs hroom es' hsettable hsubset
    obtain ⟨hbare, hroomy, hnum⟩ := roomyPacket_spec hgrow g.rtpHeaderExtensionMap hcsrcs
    obtain ⟨order, horder, hle, -⟩ := hbare.setExtensions_first hgrow hroomy hsettable hsubset
    -- The largest payload that is allowed.
    have hlargest := hfit _ hbare hnum order horder
      (g.maxPacketSize - g.updateHeaderSizes.maxMediaPacketHeaderSize) (by omega)
    rw [headerSize_bare hbare, hnum] at hle
    omega
  · intro hcover p hbare hnum order horder payloadSize hpayload
    obtain ⟨es', hsettable, hsubset, hheader, -⟩ := hbare.setExtensions hgrow horder
    have hcsrcs : g.csrcs.length ≤ 15 := by
      have hle := p.extensionsOffset_le
      unfold RtpPacket.extensionsOffset kFixedHeaderSize at hle
      omega
    have hle := hcover hcsrcs (by omega) es' hsettable hsubset
    rw [hheader, headerSize_bare hbare, hnum]
    omega

end RtpPacketGenerator

/-! ## The prediction and the payloads -/

/-- **The size of the header is predicted exactly when** the formula gives for the unregistered
extensions of the list what it gives for the registered ones.  And **payloads fit exactly when**
it gives, with what is reserved for a packet that is sent again, at least as much; if there is a
packet with that many CSRCs, and any room for a payload. -/
theorem predicts_iff {growTo : Nat → Nat → Nat} (hgrow : ∀ c n, n ≤ growTo c n) :
    (∀ map es, Predicts growTo map es ↔ SizesAgree map es) ∧
      ∀ g : RtpPacketGenerator, g.PayloadsFit growTo ↔
        (g.csrcs.length ≤ 15 → g.updateHeaderSizes.maxMediaPacketHeaderSize ≤ g.maxPacketSize →
          g.SizesCover) :=
  ⟨predicts_iff_sizesAgree hgrow, RtpPacketGenerator.payloadsFit_iff_sizesCover hgrow⟩

/-- A MID that is registered and a playout delay that is not take the same room. -/
theorem predicts_same : Predicts RtpPacket.growExactly RtpPacket.midMap
    [⟨.mid, 3⟩, ⟨.playoutDelay, 3⟩] := by
  refine ((predicts_iff fun _ size => Nat.le_refl size).1 _ _).2 fun es' hsettable hsubset => ?_
  have hmid : ∀ e ∈ es', e = ⟨.mid, 3⟩ := by
    intro e he
    rcases List.mem_cons.1 (hsubset he) with rfl | hrest
    · rfl
    · rw [List.mem_singleton.1 hrest] at he
      exact absurd rfl (hsettable.registered _ he)
  match es', hmid, hsettable.nodup with
  | [], _, _ =>
    refine ⟨by decide, fun hall => ?_⟩
    obtain ⟨e, he, -⟩ := hall ⟨.mid, 3⟩ (by decide)
    cases he
  | [e], hmid, _ =>
    rw [hmid e List.mem_cons_self]
    exact ⟨by decide, fun _ => by decide⟩
  | e :: e' :: rest, hmid, hnodup =>
    rw [hmid e List.mem_cons_self, hmid e' (List.mem_cons_of_mem _ List.mem_cons_self)] at hnodup
    exact absurd List.mem_cons_self (List.nodup_cons.1 hnodup).1

/-- A generator for audio that sends a MID. -/
def midGenerator : RtpPacketGenerator where
  isAudio := true
  rtxSsrc := none
  maxPacketSize := 100
  maxMediaPacketHeaderSize := 12
  maxFecOrPaddingPacketHeaderSize := 12
  alwaysSendMidAndRid := true
  rtpHeaderExtensionMap := RtpPacket.midMap
  rid := []
  mid := [0x61]
  mediaSsrcHasAcked := false
  rtxSsrcHasAcked := false
  csrcs := []

/-- **A registered MID is not counted**, and makes the header eight bytes longer.  And a payload of
72 bytes, for which there is room behind the 28 bytes that the generator allows for, is behind a
header of 36 bytes. -/
theorem not_predicts : ¬ Predicts RtpPacket.growExactly RtpPacket.midMap [⟨.mid, 1⟩] ∧
    ¬ midGenerator.PayloadsFit RtpPacket.growExactly := by
  obtain ⟨hbare, -, hnum⟩ := @roomyPacket_spec _ (fun _ size => Nat.le_refl size)
    RtpPacket.midMap [] (Nat.zero_le 15)
  constructor
  · intro hpredicts
    have hle := (hpredicts _ hbare [⟨.mid, 1⟩] (.of_eq (by decide))).1
    revert hle
    decide +kernel
  · intro hfit
    have hle := hfit _ hbare hnum [⟨.mid, 16⟩] (.of_eq (by decide)) 72 (by decide)
    revert hle
    decide +kernel

end NaiveRtc.Rtp
