import NaiveRtc.Rtcp.CompoundPacket

/-!
# The buffer law of `PackInto`

What a caller of `PackInto` relies on, for every packet and every buffer: the call returns;
what it writes is the packet, fragment by fragment, after what was in the buffer before; and
it fails only when there is no room.

* `Lawful` — the law, for one call.
* `RoomForReports` — every extended report that is reached finds room where it stands.
* `lawful_iff` — the law holds exactly then; the loop of `ExtendedReports::PackInto` is the
  only one that breaks it.
* `not_lawful_extendedReports` — an extended report that an empty buffer would hold is
  refused after the buffer was emptied for it.
-/

namespace NaiveRtc.Rtcp

open PackState

/-- The law for one call of `PackInto`.  `pages` are the bytes passed to the callback, one
entry for each call, and those in `buffer[0..*index)`. -/
structure Lawful (p : RtcpPacket) (hasCallback : Bool) (maxSize : Nat) (st : PackState) : Prop where
  returns : ∃ fuel r, p.packInto hasCallback maxSize fuel st = some r
  accepts : ∀ {fuel : Nat} {st' : PackState},
    p.packInto hasCallback maxSize fuel st = some (true, st') →
    ∃ pieces, p.Serialises pieces ∧ st'.pages.flatten = st.pages.flatten ++ pieces.flatten ∧
      Laid st.pages pieces st'.pages ∧ st'.index ≤ maxSize ∧
      st'.buffer.drop maxSize = st.buffer.drop maxSize ∧
      (p.Unsplit → pieces.flatten.length = p.packetSize)
  refuses : ∀ {fuel : Nat} {st' : PackState},
    p.packInto hasCallback maxSize fuel st = some (false, st') →
    ¬p.FitsEmpty maxSize ∨ (hasCallback = false ∧ maxSize < st.index + p.packetSize)

/-- Every extended report among the packets that is reached from `index` on fits in the room
left there.  One that does not is harmless only if some packet is too large for any buffer
(`fits` is false) and the buffer can be flushed before the packets are refused. -/
def RoomForReports (hasCallback : Bool) (maxSize : Nat) (fits : Prop) :
    List SimplePacket → Nat → Prop
  | [], _ => True
  | p :: ps, index =>
    (∀ x, p = .extendedReports x →
      index + x.packetSize ≤ maxSize ∨ (hasCallback = true ∧ index ≠ 0 ∧ ¬fits)) ∧
    ∀ next, p.nextIndex hasCallback maxSize index = some next →
      RoomForReports hasCallback maxSize fits ps next

/-! ## One packet -/

namespace SimplePacket

variable {p : SimplePacket} {hasCallback : Bool} {maxSize : Nat} {st : PackState}

theorem packsAs (hp : p.WellFormed) (hx : ∀ x, p ≠ .extendedReports x) (hasCallback : Bool)
    (maxSize : Nat) :
    PacksAs (fun fuel => p.packInto hasCallback maxSize fuel) maxSize p.fuel
      (p.nextIndex hasCallback maxSize) p.Serialises := by
  cases p with
  | senderReport r => exact r.packsAs hasCallback maxSize
  | receiverReport r => exact r.packsAs hasCallback maxSize
  | sdes s => exact s.packsAs hasCallback maxSize
  | bye b => exact b.packsAs hasCallback maxSize
  | pli p => exact p.packsAs hasCallback maxSize
  | fir f => exact Fir.packsAs hp hasCallback maxSize
  | lossNotification l => exact l.packsAs hasCallback maxSize
  | remb r => exact Remb.packsAs hp hasCallback maxSize
  | tmmbr t => exact Tmmbr.packsAs hp hasCallback maxSize
  | tmmbn t => exact Tmmbn.packsAs hp hasCallback maxSize
  | nack n => exact Nack.packsAs hp hasCallback maxSize
  | transportFeedback f => exact TransportFeedback.packsAs hp hasCallback maxSize
  | extendedReports x => exact absurd rfl (hx x)

theorem length_of_serialises (hp : p.WellFormed) (hsplit : p.fragmenting = false)
    {pieces : List (List UInt8)} (h : p.Serialises pieces) :
    pieces.flatten.length = p.packetSize := by
  have hone : ∀ {bytes : List UInt8}, pieces = [bytes] → pieces.flatten.length = bytes.length := by
    rintro bytes rfl
    simp
  cases p with
  | senderReport r => exact (hone h).trans r.length_bytes
  | receiverReport r => exact (hone h).trans r.length_bytes
  | sdes s => exact (hone h).trans s.length_bytes
  | bye b => exact (hone h).trans b.length_bytes
  | pli p => exact (hone h).trans p.length_bytes
  | fir f => exact (hone h).trans f.length_bytes
  | lossNotification l => exact (hone h).trans l.length_bytes
  | remb r => exact (hone h).trans r.length_bytes
  | tmmbr t => exact (hone h).trans t.length_bytes
  | tmmbn t => exact (hone h).trans t.length_bytes
  | nack n => cases hsplit
  | transportFeedback f => exact (hone h).trans hp.length_packetBytes
  | extendedReports x => exact (hone h).trans x.length_bytes

/-- How the index moves: by the rule of `nextIndex` for a packet that is not split, and by
its own for a list of losses and for an extended report. -/
theorem nextIndex_cases (p : SimplePacket) :
    (∃ n, p = .nack n) ∨ (∃ x, p = .extendedReports x) ∨
      (∀ hasCallback maxSize, p.nextIndex hasCallback maxSize =
        Rtcp.nextIndex hasCallback maxSize p.packetSize) ∧ p.minSize = p.packetSize := by
  cases p with
  | nack n => exact .inl ⟨n, rfl⟩
  | extendedReports x => exact .inr (.inl ⟨x, rfl⟩)
  | senderReport | receiverReport | sdes | bye | pli | fir | lossNotification | remb | tmmbr | tmmbn
  | transportFeedback => exact .inr (.inr ⟨fun _ _ => rfl, rfl⟩)

theorem no_room_of_nextIndex (hp : p.WellFormed) (hx : ∀ x, p ≠ .extendedReports x) {index : Nat}
    (h : p.nextIndex hasCallback maxSize index = none) :
    maxSize < index + p.packetSize ∧ (hasCallback = true → maxSize < p.minSize) := by
  rcases p.nextIndex_cases with ⟨n, rfl⟩ | ⟨x, rfl⟩ | ⟨hnext, hmin⟩
  · have hcount : 0 < n.fciItems.length := List.length_pos_of_ne_nil hp
    simp only [nextIndex, Nack.nextIndex] at h
    split_ifs at h with hroom hflush
    have hsmall : hasCallback = true → ¬0 < Nack.room maxSize 0 := not_and.mp hflush
    simp only [packetSize, Nack.packetSize, minSize]
    unfold Nack.room Nack.kNackHeaderSize Nack.kFciItemSize kRtcpCommonHeaderSize
      kCommonFeedbackSize at *
    refine ⟨by omega, fun hcallback => ?_⟩
    have := hsmall hcallback
    omega
  · exact absurd rfl (hx x)
  · rw [hnext, Rtcp.nextIndex] at h
    split_ifs at h with hroom hflush
    refine ⟨by omega, fun hcallback => ?_⟩
    rw [hmin]
    by_contra hfits
    exact hflush ⟨hcallback, by omega, by omega⟩

theorem nextIndex_no_callback {index next : Nat} (h : p.nextIndex false maxSize index = some next) :
    next = index + p.packetSize := by
  rcases p.nextIndex_cases with ⟨n, rfl⟩ | ⟨x, rfl⟩ | ⟨hnext, -⟩
  · simp only [nextIndex, Nack.nextIndex, Bool.false_eq_true, false_and, if_false] at h
    split_ifs at h
    rw [← Option.some.inj h]
    simp only [packetSize, Nack.packetSize, Nack.kNackHeaderSize]
    rw [Nat.mul_comm]
    omega
  · simp only [nextIndex] at h
    split_ifs at h
    exact (Option.some.inj h).symm
  · rw [hnext, Rtcp.nextIndex] at h
    simp only [Bool.false_eq_true, false_and, if_false] at h
    split_ifs at h
    exact (Option.some.inj h).symm

/-- An extended report is written where it fits, refused where the buffer can be flushed,
and otherwise waited for without end. -/
theorem extendedReports_cases (x : ExtendedReports) (hasCallback : Bool)
    (hbuffer : maxSize ≤ st.buffer.length) :
    (st.index + x.packetSize ≤ maxSize ∧ ∀ fuel,
      (extendedReports x).packInto hasCallback maxSize (fuel + 1) st =
        some (true, st.write x.bytes)) ∨
    (maxSize < st.index + x.packetSize ∧ st.index ≠ 0 ∧ hasCallback = true ∧ ∀ fuel,
      (extendedReports x).packInto hasCallback maxSize (fuel + 1) st = some (false, st.flushed)) ∨
    (maxSize < st.index + x.packetSize ∧ ¬(st.index ≠ 0 ∧ hasCallback = true) ∧ ∀ fuel,
      (extendedReports x).packInto hasCallback maxSize fuel st = none) := by
  by_cases hroom : st.index + x.packetSize ≤ maxSize
  · exact .inl ⟨hroom, ExtendedReports.packInto_of_room hroom hbuffer⟩
  · have hroom := Nat.lt_of_not_le hroom
    by_cases hflush : st.index ≠ 0 ∧ hasCallback = true
    · obtain ⟨hindex, rfl⟩ := hflush
      exact .inr (.inl ⟨hroom, hindex, rfl, ExtendedReports.packInto_flushed hroom hindex⟩)
    · exact .inr (.inr ⟨hroom, hflush, ExtendedReports.packInto_spins hroom hflush⟩)

section All

variable (hp : p.WellFormed) (hbuffer : maxSize ≤ st.buffer.length)
include hp hbuffer

theorem packInto_mono {fuel fuel' : Nat} {r : Bool × PackState}
    (h : p.packInto hasCallback maxSize fuel st = some r) (hfuel : fuel ≤ fuel') :
    p.packInto hasCallback maxSize fuel' st = some r := by
  by_cases hx : ∃ x, p = .extendedReports x
  · obtain ⟨x, rfl⟩ := hx
    cases fuel with
    | zero => cases h
    | succ fuel =>
      obtain ⟨fuel', rfl⟩ : ∃ k, fuel' = k + 1 := ⟨fuel' - 1, by omega⟩
      rcases extendedReports_cases x hasCallback hbuffer with
        ⟨-, hpack⟩ | ⟨-, -, -, hpack⟩ | ⟨-, -, hpack⟩
      · rw [hpack] at h ⊢
        exact h
      · rw [hpack] at h ⊢
        exact h
      · rw [hpack] at h
        cases h
  · exact (packsAs hp (not_exists.mp hx) hasCallback maxSize).mono h hfuel

theorem packInto_accepts (hindex : st.index ≤ maxSize) {fuel : Nat} {st' : PackState}
    (h : p.packInto hasCallback maxSize fuel st = some (true, st')) :
    ∃ pieces, p.Serialises pieces ∧ Placed maxSize st pieces st' ∧
      p.nextIndex hasCallback maxSize st.index = some st'.index := by
  by_cases hx : ∃ x, p = .extendedReports x
  · obtain ⟨x, rfl⟩ := hx
    cases fuel with
    | zero => cases h
    | succ fuel =>
      rcases extendedReports_cases x hasCallback hbuffer with
        ⟨hroom, hpack⟩ | ⟨-, -, -, hpack⟩ | ⟨-, -, hpack⟩
      · rw [hpack] at h
        obtain ⟨-, rfl⟩ := Prod.mk.inj (Option.some.inj h)
        have hlength := x.length_bytes
        refine ⟨_, rfl, placed_write (by omega) hbuffer, ?_⟩
        rw [index_write, hlength]
        exact if_pos hroom
      · rw [hpack] at h
        cases h
      · rw [hpack] at h
        cases h
  · exact (packsAs hp (not_exists.mp hx) hasCallback maxSize).accepts hindex hbuffer h

theorem packInto_refuses (hindex : st.index ≤ maxSize) {fuel : Nat} {st' : PackState}
    (h : p.packInto hasCallback maxSize fuel st = some (false, st')) :
    p.nextIndex hasCallback maxSize st.index = none ∧
      ∀ x, p = .extendedReports x → maxSize < st.index + x.packetSize := by
  by_cases hx : ∃ x, p = .extendedReports x
  · obtain ⟨x, rfl⟩ := hx
    cases fuel with
    | zero => cases h
    | succ fuel =>
      rcases extendedReports_cases x hasCallback hbuffer with
        ⟨-, hpack⟩ | ⟨hmisfit, -, -, -⟩ | ⟨-, -, hpack⟩
      · rw [hpack] at h
        cases h
      · refine ⟨if_neg (Nat.not_le.mpr hmisfit), ?_⟩
        rintro _ ⟨⟩
        exact hmisfit
      · rw [hpack] at h
        cases h
  · exact ⟨(packsAs hp (not_exists.mp hx) hasCallback maxSize).refuses hindex hbuffer h,
      fun x heq => absurd ⟨x, heq⟩ hx⟩

end All

end SimplePacket

/-! ## All packets -/

section Leaves

open RtcpPacket

variable {hasCallback : Bool} {maxSize : Nat} {ps : List SimplePacket} {st : PackState} {fuel : Nat}

variable {p : SimplePacket}

theorem packLeaves_cons_eq_some {r : Bool × PackState}
    (h : packLeaves hasCallback maxSize fuel (p :: ps) st = some r) :
    (∃ st', p.packInto hasCallback maxSize fuel st = some (false, st') ∧ r = (false, st')) ∨
    (∃ st', p.packInto hasCallback maxSize fuel st = some (true, st') ∧
      packLeaves hasCallback maxSize fuel ps st' = some r) := by
  change Packed.andThen (p.packInto hasCallback maxSize fuel st) _ = some r at h
  rcases hpack : p.packInto hasCallback maxSize fuel st with _ | ⟨_ | _, st'⟩
  · rw [hpack] at h
    cases h
  · rw [hpack] at h
    exact .inl ⟨st', rfl, (Option.some.inj h).symm⟩
  · rw [hpack] at h
    exact .inr ⟨st', rfl, h⟩

variable {st' : PackState}

theorem packLeaves_cons_of_true
    (h : p.packInto hasCallback maxSize fuel st = some (true, st')) :
    packLeaves hasCallback maxSize fuel (p :: ps) st =
      packLeaves hasCallback maxSize fuel ps st' := by
  show Packed.andThen (p.packInto hasCallback maxSize fuel st) _ = _
  rw [h]
  rfl

theorem packLeaves_cons_of_false
    (h : p.packInto hasCallback maxSize fuel st = some (false, st')) :
    packLeaves hasCallback maxSize fuel (p :: ps) st = some (false, st') := by
  show Packed.andThen (p.packInto hasCallback maxSize fuel st) _ = _
  rw [h]
  rfl

theorem length_of_forall₂ {parts : List (List (List UInt8))} (hps : ∀ p ∈ ps, p.WellFormed)
    (hsplit : ∀ p ∈ ps, p.fragmenting = false)
    (h : List.Forall₂ SimplePacket.Serialises ps parts) :
    parts.flatten.flatten.length = (ps.map SimplePacket.packetSize).sum := by
  induction h with
  | nil => rfl
  | cons hpieces _ ih =>
    rw [List.forall_mem_cons] at hps hsplit
    rw [List.flatten_cons, List.flatten_append, List.length_append, ih hps.2 hsplit.2,
      SimplePacket.length_of_serialises hps.1 hsplit.1 hpieces, List.map_cons, List.sum_cons]

variable (hps : ∀ p ∈ ps, p.WellFormed) (hindex : st.index ≤ maxSize)
  (hbuffer : maxSize ≤ st.buffer.length)
include hps hindex hbuffer

theorem packLeaves_mono {fuel fuel' : Nat} {r : Bool × PackState}
    (h : packLeaves hasCallback maxSize fuel ps st = some r) (hfuel : fuel ≤ fuel') :
    packLeaves hasCallback maxSize fuel' ps st = some r := by
  induction ps generalizing st with
  | nil => exact h
  | cons p ps ih =>
    have hp := hps p (List.mem_cons_self ..)
    rcases packLeaves_cons_eq_some h with ⟨st', hpack, rfl⟩ | ⟨st', hpack, hrest⟩
    · exact packLeaves_cons_of_false (SimplePacket.packInto_mono hp hbuffer hpack hfuel)
    · obtain ⟨_, _, hplaced, _⟩ := SimplePacket.packInto_accepts hp hbuffer hindex hpack
      rw [packLeaves_cons_of_true (SimplePacket.packInto_mono hp hbuffer hpack hfuel)]
      exact ih (fun q hq => hps q (List.mem_cons_of_mem _ hq)) hplaced.index_le
        (by rw [hplaced.length]; exact hbuffer) hrest

theorem packLeaves_accepts (h : packLeaves hasCallback maxSize fuel ps st = some (true, st')) :
    ∃ parts, List.Forall₂ SimplePacket.Serialises ps parts ∧
      Placed maxSize st parts.flatten st' := by
  induction ps generalizing st with
  | nil =>
    obtain ⟨-, rfl⟩ := Prod.mk.inj (Option.some.inj h)
    exact ⟨[], List.Forall₂.nil, Placed.refl hindex⟩
  | cons p ps ih =>
    have hp := hps p (List.mem_cons_self ..)
    rcases packLeaves_cons_eq_some h with ⟨_, _, hr⟩ | ⟨st₁, hpack, hrest⟩
    · cases hr
    · obtain ⟨pieces, hpieces, hplaced, -⟩ := SimplePacket.packInto_accepts hp hbuffer hindex hpack
      obtain ⟨parts, hparts, hplaced'⟩ := ih (fun q hq => hps q (List.mem_cons_of_mem _ hq))
        hplaced.index_le (by rw [hplaced.length]; exact hbuffer) hrest
      exact ⟨pieces :: parts, List.Forall₂.cons hpieces hparts, hplaced.trans hplaced'⟩

variable {fits : Prop}

theorem packLeaves_returns (hroom : RoomForReports hasCallback maxSize fits ps st.index) :
    ∃ fuel r, packLeaves hasCallback maxSize fuel ps st = some r := by
  induction ps generalizing st with
  | nil => exact ⟨0, _, rfl⟩
  | cons p ps ih =>
    have hp := hps p (List.mem_cons_self ..)
    have hfirst : ∃ fuel r, p.packInto hasCallback maxSize fuel st = some r := by
      by_cases hx : ∃ x, p = .extendedReports x
      · obtain ⟨x, rfl⟩ := hx
        rcases SimplePacket.extendedReports_cases x hasCallback hbuffer with
          ⟨-, hpack⟩ | ⟨-, -, -, hpack⟩ | ⟨hmisfit, hflush, -⟩
        · exact ⟨_, _, hpack 0⟩
        · exact ⟨_, _, hpack 0⟩
        · rcases hroom.1 x rfl with hfits | ⟨hcallback, hne, -⟩
          · omega
          · exact absurd ⟨hne, hcallback⟩ hflush
      · obtain ⟨r, hr⟩ := (SimplePacket.packsAs hp (not_exists.mp hx) hasCallback maxSize).returns
          hindex hbuffer (le_refl p.fuel)
        exact ⟨_, r, hr⟩
    obtain ⟨fuel, ⟨ok, st'⟩, hpack⟩ := hfirst
    cases ok with
    | false => exact ⟨fuel, _, packLeaves_cons_of_false hpack⟩
    | true =>
      obtain ⟨_, _, hplaced, hnext⟩ := SimplePacket.packInto_accepts hp hbuffer hindex hpack
      have hps' := fun q hq => hps q (List.mem_cons_of_mem _ hq)
      have hbuffer' : maxSize ≤ st'.buffer.length := by rw [hplaced.length]; exact hbuffer
      obtain ⟨fuel', r, hrest⟩ := ih hps' hplaced.index_le hbuffer' (hroom.2 _ hnext)
      refine ⟨max fuel fuel', r, ?_⟩
      rw [packLeaves_cons_of_true
        (SimplePacket.packInto_mono hp hbuffer hpack (Nat.le_max_left fuel fuel'))]
      exact packLeaves_mono hps' hplaced.index_le hbuffer' hrest (Nat.le_max_right fuel fuel')

theorem packLeaves_refuses (hroom : RoomForReports hasCallback maxSize fits ps st.index)
    (h : packLeaves hasCallback maxSize fuel ps st = some (false, st')) :
    (hasCallback = true → ¬fits ∨ ∃ p ∈ ps, maxSize < p.minSize) ∧
    (hasCallback = false → maxSize < st.index + (ps.map SimplePacket.packetSize).sum) := by
  induction ps generalizing st with
  | nil => cases h
  | cons p ps ih =>
    have hp := hps p (List.mem_cons_self ..)
    rw [List.map_cons, List.sum_cons]
    rcases packLeaves_cons_eq_some h with ⟨st₁, hpack, -⟩ | ⟨st₁, hpack, hrest⟩
    · obtain ⟨hnone, hmisfit⟩ := SimplePacket.packInto_refuses hp hbuffer hindex hpack
      by_cases hx : ∃ x, p = .extendedReports x
      · obtain ⟨x, rfl⟩ := hx
        have hmisfit := hmisfit x rfl
        rcases hroom.1 x rfl with hfits | ⟨-, -, hfits⟩
        · omega
        · refine ⟨fun _ => .inl hfits, fun _ => ?_⟩
          rw [SimplePacket.packetSize]
          omega
      · obtain ⟨hhere, hempty⟩ := SimplePacket.no_room_of_nextIndex hp (not_exists.mp hx) hnone
        exact ⟨fun hcallback => .inr ⟨p, List.mem_cons_self .., hempty hcallback⟩,
          fun _ => by omega⟩
    · obtain ⟨_, _, hplaced, hnext⟩ := SimplePacket.packInto_accepts hp hbuffer hindex hpack
      obtain ⟨hwith, hwithout⟩ := ih (fun q hq => hps q (List.mem_cons_of_mem _ hq))
        hplaced.index_le (by rw [hplaced.length]; exact hbuffer) (hroom.2 _ hnext) hrest
      refine ⟨fun hcallback => (hwith hcallback).imp_right ?_, fun hcallback => ?_⟩
      · rintro ⟨q, hq, hsize⟩
        exact ⟨q, List.mem_cons_of_mem _ hq, hsize⟩
      · have := hwithout hcallback
        rw [hcallback] at hnext
        rw [SimplePacket.nextIndex_no_callback hnext] at this
        omega

/-- The other way: packets that are not waited for, and are refused only for lack of room,
have room for their reports. -/
theorem roomForReports_of_packLeaves
    (hreturns : ∃ fuel r, packLeaves hasCallback maxSize fuel ps st = some r)
    (hrefuses : ∀ fuel st', packLeaves hasCallback maxSize fuel ps st = some (false, st') →
      hasCallback = true → ¬fits) :
    RoomForReports hasCallback maxSize fits ps st.index := by
  induction ps generalizing st with
  | nil => trivial
  | cons p ps ih =>
    have hp := hps p (List.mem_cons_self ..)
    have hps' := fun q hq => hps q (List.mem_cons_of_mem _ hq)
    obtain ⟨fuel, r, hfuel⟩ := hreturns
    constructor
    · rintro x rfl
      rcases SimplePacket.extendedReports_cases x hasCallback hbuffer with
        ⟨hroom, -⟩ | ⟨-, hne, rfl, hpack⟩ | ⟨-, -, hpack⟩
      · exact .inl hroom
      · exact .inr ⟨rfl, hne, hrefuses 1 _ (packLeaves_cons_of_false (hpack 0)) rfl⟩
      · rcases packLeaves_cons_eq_some hfuel with ⟨_, hnone, -⟩ | ⟨_, hnone, -⟩
        · rw [hpack] at hnone
          cases hnone
        · rw [hpack] at hnone
          cases hnone
    · intro next hnext
      rcases packLeaves_cons_eq_some hfuel with ⟨st', hpack, -⟩ | ⟨st', hpack, hrest⟩
      · -- a packet that has a place is not refused
        rw [(SimplePacket.packInto_refuses hp hbuffer hindex hpack).1] at hnext
        cases hnext
      · obtain ⟨_, _, hplaced, hnext'⟩ := SimplePacket.packInto_accepts hp hbuffer hindex hpack
        have hbuffer' : maxSize ≤ st'.buffer.length := by rw [hplaced.length]; exact hbuffer
        obtain rfl := Option.some.inj (hnext'.symm.trans hnext)
        refine ih hps' hplaced.index_le hbuffer' ⟨fuel, r, hrest⟩ (fun fuel' st'' hfalse => ?_)
        refine hrefuses (max fuel fuel') st'' ?_
        rw [packLeaves_cons_of_true
          (SimplePacket.packInto_mono hp hbuffer hpack (Nat.le_max_left fuel fuel'))]
        exact packLeaves_mono hps' hplaced.index_le hbuffer' hfalse (Nat.le_max_right fuel fuel')

end Leaves

/-! ## The law -/

/-- **When `PackInto` keeps its contract.**  The call returns, writes the packet and nothing
else, and fails only for lack of room, if and only if every extended report in the packet
finds room at the place where the packets before it leave the index. -/
theorem lawful_iff (p : RtcpPacket) (hasCallback : Bool) (maxSize : Nat) (st : PackState)
    (hp : p.WellFormed) (hindex : st.index ≤ maxSize) (hbuffer : maxSize ≤ st.buffer.length) :
    Lawful p hasCallback maxSize st ↔
      RoomForReports hasCallback maxSize (p.FitsEmpty maxSize) p.leaves st.index := by
  constructor
  · intro h
    obtain ⟨fuel, r, hr⟩ := h.returns
    refine roomForReports_of_packLeaves hp hindex hbuffer
      ⟨fuel, r, by rw [← RtcpPacket.packInto_eq_packLeaves]; exact hr⟩ ?_
    rintro fuel st' hfalse rfl
    rw [← RtcpPacket.packInto_eq_packLeaves] at hfalse
    rcases h.refuses hfalse with hfits | ⟨hcallback, -⟩
    · exact hfits
    · cases hcallback
  · intro hroom
    refine ⟨?_, ?_, ?_⟩
    · obtain ⟨fuel, r, hr⟩ := packLeaves_returns hp hindex hbuffer hroom
      exact ⟨fuel, r, by rw [RtcpPacket.packInto_eq_packLeaves]; exact hr⟩
    · intro fuel st' h
      rw [RtcpPacket.packInto_eq_packLeaves] at h
      obtain ⟨parts, hparts, hplaced⟩ := packLeaves_accepts hp hindex hbuffer h
      refine ⟨parts.flatten, ⟨parts, hparts, rfl⟩, hplaced.laid.flatten, hplaced.laid,
        hplaced.index_le, hplaced.beyond, fun hsplit => ?_⟩
      rw [length_of_forall₂ hp hsplit hparts, RtcpPacket.packetSize_eq_sum]
    · intro fuel st' h
      rw [RtcpPacket.packInto_eq_packLeaves] at h
      obtain ⟨hwith, hwithout⟩ := packLeaves_refuses hp hindex hbuffer hroom h
      cases hasCallback with
      | true =>
        left
        rcases hwith rfl with hfits | ⟨leaf, hleaf, hsize⟩
        · exact hfits
        · exact fun hfits => absurd (hfits leaf hleaf) (by omega)
      | false =>
        refine .inr ⟨rfl, ?_⟩
        rw [RtcpPacket.packetSize_eq_sum]
        exact hwithout rfl

/-- A picture loss indication that makes room for itself, an extended report after it, and
two losses of which the second does not fit in the same buffer. -/
theorem lawful_compound :
    let xr : SimplePacket := .extendedReports ⟨7, none, ⟨[]⟩, none⟩
    let nack : SimplePacket := .nack ⟨7, 8, [⟨1, 0⟩, ⟨100, 0⟩], [1, 100]⟩
    Lawful (.compound [.simple (.pli ⟨7, 8⟩), .compound [.simple xr, .simple nack]]) true 36
      ⟨List.replicate 40 0, 30, []⟩ := by
  intro xr nack
  refine (lawful_iff _ true 36 ⟨List.replicate 40 0, 30, []⟩ ?_ (by decide) (by decide)).mpr ?_
  · simp [RtcpPacket.WellFormed, RtcpPacket.leaves, RtcpPacket.leavesAll, SimplePacket.WellFormed,
      Nack.WellFormed, xr, nack]
  · refine ⟨by simp, fun next hnext => ⟨?_, fun next' _ => ⟨by simp [nack], fun _ _ => trivial⟩⟩⟩
    obtain rfl : 12 = next := Option.some.inj hnext
    rintro x hx
    obtain rfl := SimplePacket.extendedReports.inj hx
    exact .inl (by decide)

/-- An empty extended report, which an empty buffer holds, is refused when the buffer is half
full; without a callback it is waited for without end. -/
theorem not_lawful_extendedReports :
    let p : RtcpPacket := .simple (.extendedReports ⟨7, none, ⟨[]⟩, none⟩)
    let st : PackState := ⟨List.replicate 8 0, 4, []⟩
    p.WellFormed ∧ p.FitsEmpty 8 ∧ ¬Lawful p true 8 st ∧ ¬Lawful p false 8 st := by
  intro p st
  have hfits : p.FitsEmpty 8 := by
    intro leaf hleaf
    obtain rfl := List.mem_singleton.mp hleaf
    decide
  refine ⟨?_, hfits, fun h => ?_, fun h => ?_⟩
  · intro leaf hleaf
    obtain rfl := List.mem_singleton.mp hleaf
    trivial
  · have hrefused : p.packInto true 8 1 st = some (false, st.flushed) := by decide
    rcases h.refuses hrefused with hnot | ⟨hcallback, -⟩
    · exact hnot hfits
    · cases hcallback
  · obtain ⟨fuel, r, hr⟩ := h.returns
    have hspins : p.packInto false 8 fuel st = none :=
      ExtendedReports.packInto_spins (by decide) (by decide) fuel
    rw [hspins] at hr
    cases hr

end NaiveRtc.Rtcp
