import Mathlib.Algebra.BigOperators.Group.List.Basic
import Mathlib.Tactic.Linarith

/-!
# Splitting a payload about equally

The model of `rtc/rtp_rtcp/rtp/packetizer/rtp_packetizer.{hpp,cpp}`: the limits of the
payload of one packet, and how a payload that is too large is cut into pieces.

* `splitLoop_rest`, `splitLoop_first` — the rounds after the first, and all of them.
* `splitAboutEqually_entered` — where the reductions leave room there are at least two pieces,
  none larger than a packet takes, and nothing is lost.
* `splitAboutEqually_respects` — for every payload and all limits that do not leave the
  source's types, the pieces respect the limit of their position.
-/

namespace NaiveRtc.Rtp

/-- The conversion to `size_t`. -/
def toSize (n : Int) : Nat := (n % 2 ^ 64).toNat

theorem toSize_of_nonneg {n : Int} (h : 0 ≤ n) (hlt : n < 2 ^ 64) : toSize n = n.toNat := by
  rw [toSize, Int.emod_eq_of_lt h hlt]

theorem toSize_natCast {n : Nat} (hlt : n < 2 ^ 64) : toSize (n : Int) = n := by
  rw [toSize_of_nonneg (by omega) (by omega), Int.toNat_natCast]

/-- `PayloadSizeLimits`. -/
structure PayloadSizeLimits where
  maxPayloadSize : Nat := 1200
  firstPacketReductionSize : Int := 0
  lastPacketReductionSize : Int := 0
  singlePacketReductionSize : Int := 0
  deriving DecidableEq

/-- The loop of `SplitAboutEqually`, for at most `fuel` rounds. -/
def splitLoop (firstReduction : Int) (numLarger : Nat) : Nat → Nat → Nat → Nat → Bool → List Nat
  | 0, _, _, _, _ => []
  | fuel + 1, bytesPerPacket, remaining, numLeft, firstPacket =>
    if remaining = 0 then []
    else
      let bytesPerPacket := if numLeft = numLarger then bytesPerPacket + 1 else bytesPerPacket
      let current :=
        if firstPacket then
          if toSize (firstReduction + 1) < bytesPerPacket then
            toSize (bytesPerPacket - firstReduction)
          else 1
        else bytesPerPacket
      let current := if remaining < current then remaining else current
      let current := if numLeft = 2 ∧ current = remaining then current - 1 else current
      current ::
        splitLoop firstReduction numLarger fuel bytesPerPacket (remaining - current)
          (toSize ((numLeft : Int) - 1)) false

/-- `num_of_packets`; the source has no value for a maximum of zero. -/
def numOfPackets (totalSize maxPayloadSize : Nat) : Nat :=
  let n := toSize (totalSize + ((maxPayloadSize : Int) - 1)) / maxPayloadSize
  if n = 1 then n + 1 else n

/-- `SplitAboutEqually(payload_size, limits)`. -/
def splitAboutEqually (payloadSize : Nat) (limits : PayloadSizeLimits) : List Nat :=
  if payloadSize = 0 then []
  else if limits.firstPacketReductionSize < 0 ∨ limits.lastPacketReductionSize < 0 then []
  else if toSize (limits.singlePacketReductionSize + payloadSize) ≤ limits.maxPayloadSize then
    [payloadSize]
  else if toSize (limits.maxPayloadSize - limits.firstPacketReductionSize) < 1 ∨
      toSize (limits.maxPayloadSize - limits.lastPacketReductionSize) < 1 then []
  else
    let totalSize :=
      toSize (payloadSize + limits.firstPacketReductionSize + limits.lastPacketReductionSize)
    let n := numOfPackets totalSize limits.maxPayloadSize
    if payloadSize < n then []
    else
      splitLoop limits.firstPacketReductionSize (totalSize % n) (payloadSize + 2) (totalSize / n)
        payloadSize n true

/-! ## Shares -/

/-- What a piece takes that has `k` pieces behind it, of a total with `larger` larger pieces. -/
def share (base larger k : Nat) : Nat := base + if k < larger then 1 else 0

/-- What the last `k` pieces take. -/
def shares (base larger k : Nat) : Nat := k * base + min k larger

theorem shares_succ (base larger k : Nat) :
    shares base larger (k + 1) = shares base larger k + share base larger k := by
  unfold shares share
  rw [Nat.succ_mul]
  split_ifs <;> omega

theorem share_antitone (base larger : Nat) {j k : Nat} (h : j ≤ k) :
    share base larger k ≤ share base larger j := by
  unfold share
  split_ifs <;> omega

theorem shares_mono (base larger : Nat) {j k : Nat} (h : j ≤ k) :
    shares base larger j ≤ shares base larger k := by
  induction h with
  | refl => exact le_refl _
  | step _ ih =>
    rw [shares_succ]
    omega

/-- The pieces sum to the payload, none is empty or larger than a packet takes, and the last one
leaves room for its reduction. -/
structure Spread (cap lastCap payload : Nat) (l : List Nat) : Prop where
  sum : l.sum = payload
  piece : ∀ c ∈ l, 0 < c ∧ c ≤ cap
  last : ∀ c ∈ l.getLast?, c ≤ lastCap

theorem Spread.cons {cap lastCap payload c : Nat} {l : List Nat} (h : Spread cap lastCap payload l)
    (hl : l ≠ []) (hpos : 0 < c) (hc : c ≤ cap) : Spread cap lastCap (c + payload) (c :: l) where
  sum := by rw [List.sum_cons, h.sum]
  piece := List.forall_mem_cons.mpr ⟨⟨hpos, hc⟩, h.piece⟩
  last := by
    rw [List.getLast?_cons_of_ne_nil hl]
    exact h.last

theorem spread_single {cap lastCap c : Nat} (hpos : 0 < c) (hc : c ≤ cap) (hlast : c ≤ lastCap) :
    Spread cap lastCap c [c] where
  sum := List.sum_singleton
  piece := by simp [hpos, hc]
  last := by simp [hlast]

/-! ## The rounds after the first -/

section Rounds

variable (firstReduction : Int) {base larger cap lastCap : Nat}

/-- The size of the piece that has `k` pieces behind it. -/
def pieceSize (base larger remaining k : Nat) : Nat :=
  let current := min (share base larger k) remaining
  if k = 1 ∧ current = remaining then current - 1 else current

theorem splitLoop_round {k remaining fuel : Nat} (hk : k < 2 ^ 64) (hpos : 0 < remaining) :
    splitLoop firstReduction larger (fuel + 1) (share base larger (k + 1)) remaining (k + 1) false =
      pieceSize base larger remaining k ::
        splitLoop firstReduction larger fuel (share base larger k)
          (remaining - pieceSize base larger remaining k) k false := by
  have hbytes : (if k + 1 = larger then share base larger (k + 1) + 1 else share base larger (k + 1)) =
      share base larger k := by
    unfold share
    split_ifs <;> omega
  have hmin : (if remaining < share base larger k then remaining else share base larger k) =
      min (share base larger k) remaining := by
    split_ifs <;> omega
  have hnum : toSize (((k + 1 : Nat) : Int) - 1) = k := by
    rw [show (((k + 1 : Nat) : Int) - 1) = (k : Int) by omega, toSize_natCast hk]
  have htwo : k + 1 = 2 ↔ k = 1 := by omega
  rw [splitLoop, if_neg (by omega)]
  simp only [Bool.false_eq_true, if_false, hbytes, hmin, hnum, htwo, pieceSize]

theorem splitLoop_last {remaining fuel : Nat} (hpos : 0 < remaining)
    (hle : remaining ≤ share base larger 0) (hfuel : 1 < fuel) :
    splitLoop firstReduction larger fuel (share base larger 1) remaining 1 false = [remaining] := by
  obtain ⟨fuel, rfl⟩ : ∃ n, fuel = n + 1 + 1 := ⟨fuel - 2, by omega⟩
  have hpiece : pieceSize base larger remaining 0 = remaining := by
    unfold pieceSize
    rw [if_neg (by omega)]
    omega
  rw [splitLoop_round firstReduction (by decide) hpos, hpiece, splitLoop, if_pos (by omega)]

/-- **The rounds after the first.**  They cut what is left into pieces, of which only the last is
smaller than its share; `slack` is what the reductions take away. -/
theorem splitLoop_rest (hbase : 1 ≤ base) (hcap : share base larger 0 ≤ cap) (hlast : 0 < lastCap)
    {k slack remaining : Nat} (hk : 2 ≤ k) (hk' : k < 2 ^ 64)
    (hremaining : remaining + slack = shares base larger k)
    (hslack : slack + 2 ≤ shares base larger 2) (hroom : share base larger 0 ≤ lastCap + slack) :
    ∃ l, Spread cap lastCap remaining l ∧ l ≠ [] ∧ ∀ fuel, k < fuel →
      splitLoop firstReduction larger fuel (share base larger k) remaining k false = l := by
  induction k, hk using Nat.le_induction generalizing remaining with
  | base =>
    have htwo : shares base larger 2 = share base larger 0 + share base larger 1 := by
      rw [shares_succ, shares_succ, shares, Nat.zero_mul, Nat.zero_min, Nat.zero_add]
    have hshare := share_antitone base larger (Nat.zero_le 1)
    have hpos : 1 ≤ share base larger 1 := le_trans hbase (Nat.le_add_right _ _)
    -- something is left for the last piece
    have hpiece : 0 < pieceSize base larger remaining 1 ∧
        pieceSize base larger remaining 1 ≤ share base larger 1 ∧
        pieceSize base larger remaining 1 < remaining ∧
        remaining ≤ pieceSize base larger remaining 1 + share base larger 0 ∧
        remaining ≤ pieceSize base larger remaining 1 + lastCap := by
      unfold pieceSize
      dsimp only
      split_ifs <;> omega
    obtain ⟨hpiece, hle, hlt, hfits, hfits'⟩ := hpiece
    have hleft : Spread cap lastCap (remaining - pieceSize base larger remaining 1)
        [remaining - pieceSize base larger remaining 1] :=
      spread_single (by omega) (by omega) (by omega)
    refine ⟨[pieceSize base larger remaining 1, remaining - pieceSize base larger remaining 1], ?_,
      List.cons_ne_nil _ _, fun fuel hfuel => ?_⟩
    · have := hleft.cons (List.cons_ne_nil _ _) hpiece (by omega)
      rwa [Nat.add_sub_cancel' hlt.le] at this
    · obtain ⟨fuel, rfl⟩ : ∃ n, fuel = n + 1 := ⟨fuel - 1, by omega⟩
      rw [splitLoop_round firstReduction (by decide) (by omega),
        splitLoop_last firstReduction (by omega) (by omega) (by omega)]
  | succ k hk ih =>
    have hsucc := shares_succ base larger k
    have hmono := shares_mono base larger hk
    have hshare := share_antitone base larger (Nat.zero_le k)
    have hpos : 1 ≤ share base larger k := le_trans hbase (Nat.le_add_right _ _)
    have hpiece : pieceSize base larger remaining k = share base larger k := by
      unfold pieceSize
      rw [if_neg (by omega)]
      omega
    obtain ⟨l, hl, hne, hrest⟩ := ih (by omega)
      (show remaining - share base larger k + slack = _ by omega)
    refine ⟨share base larger k :: l, ?_, List.cons_ne_nil _ _, fun fuel hfuel => ?_⟩
    · have := hl.cons hne hpos (le_trans hshare hcap)
      rwa [Nat.add_sub_cancel' (by omega)] at this
    · obtain ⟨fuel, rfl⟩ : ∃ n, fuel = n + 1 := ⟨fuel - 1, by omega⟩
      rw [splitLoop_round firstReduction (by omega) (by omega), hpiece, hrest fuel (by omega)]

end Rounds

/-! ## The first round -/

/-- The size of the first of `n` pieces. -/
def firstPieceSize (first base payload n : Nat) : Nat :=
  let current := min (if first + 1 < base then base - first else 1) payload
  if n = 2 ∧ current = payload then current - 1 else current

theorem splitLoop_start {first base larger payload n fuel : Nat} (hfirst : first + 1 < 2 ^ 64)
    (hbase : base < 2 ^ 64) (hn : n < 2 ^ 64) (hlarger : larger < n) (hpos : 0 < payload) :
    splitLoop first larger (fuel + 1) base payload n true =
      firstPieceSize first base payload n ::
        splitLoop first larger fuel base (payload - firstPieceSize first base payload n) (n - 1)
          false := by
  have hsize : toSize ((first : Int) + 1) = first + 1 := toSize_natCast (n := first + 1) hfirst
  have hnum : toSize ((n : Int) - 1) = n - 1 := by
    rw [show (n : Int) - 1 = ((n - 1 : Nat) : Int) by omega, toSize_natCast (by omega)]
  have hpiece : (if first + 1 < base then toSize ((base : Int) - first) else 1) =
      if first + 1 < base then base - first else 1 := by
    split_ifs with hlt
    · rw [show (base : Int) - first = ((base - first : Nat) : Int) by omega,
        toSize_natCast (by omega)]
    · rfl
  have hmin : ∀ c, (if payload < c then payload else c) = min c payload := by
    intro c
    split_ifs <;> omega
  rw [splitLoop, if_neg (by omega)]
  simp only [if_neg (show ¬ n = larger by omega), if_true, hsize, hnum, hpiece, hmin,
    firstPieceSize]

/-- Where there are three pieces or more, the smallest one and two others take more than two full
packets. -/
theorem two_lt_three_shares {base larger n cap : Nat} (hn : 3 ≤ n) (hcap : 1 ≤ cap)
    (hlarger : larger < n) (hround : n * cap < n * base + larger + cap) :
    2 * cap < 3 * base + min 2 larger := by
  obtain ⟨m, rfl⟩ : ∃ m, n = m + 3 := ⟨n - 3, by omega⟩
  by_contra hle
  have hmul := Nat.mul_le_mul_left m (Nat.le_of_not_lt hle)
  have hm : m ≤ m * cap := Nat.le_mul_of_pos_right m hcap
  rw [Nat.add_mul, Nat.add_mul] at hround
  rw [Nat.mul_add, Nat.mul_left_comm m 3 base, Nat.mul_left_comm m 2 cap] at hmul
  have hmin : larger = 0 ∧ min 2 larger = 0 ∨ larger = 1 ∧ min 2 larger = 1 ∨ min 2 larger = 2 := by
    omega
  rcases hmin with ⟨hl, hmin⟩ | ⟨hl, hmin⟩ | hmin <;> rw [hmin] at hmul hle <;> omega

theorem splitLoop_first {first last total payload n cap : Nat}
    (htotal : total = payload + first + last) (hsize : total < 2 ^ 64) (hn : 2 ≤ n)
    (hfit : n ≤ payload) (hfirst : first < cap) (hlast : last < cap) (hcap : total ≤ n * cap)
    (hround : n = 2 ∨ n * cap < total + cap) :
    ∃ l, Spread cap (cap - last) payload l ∧ 2 ≤ l.length ∧ (∀ c ∈ l.head?, c ≤ cap - first) ∧
      ∀ fuel, n < fuel → splitLoop first (total % n) fuel (total / n) payload n true = l := by
  have hdiv : n * (total / n) + total % n = total := Nat.div_add_mod total n
  have hlarger : total % n < n := Nat.mod_lt _ (by omega)
  have hbase : 1 ≤ total / n := (Nat.one_le_div_iff (by omega)).mpr (by omega)
  have hbase' : total / n ≤ total := Nat.div_le_self _ _
  have hshare : share (total / n) (total % n) 0 ≤ cap := by
    unfold share
    split_ifs with hpos
    · refine Nat.lt_of_mul_lt_mul_left (a := n) ?_
      omega
    · rw [Nat.add_zero]
      refine Nat.le_of_mul_le_mul_left (c := n) ?_ (by omega)
      omega
  generalize total / n = base at *
  generalize total % n = larger at *
  have hbase'' : base ≤ cap := le_trans (Nat.le_add_right _ _) hshare
  have hstart : ∀ fuel, n < fuel → splitLoop first larger fuel base payload n true =
      firstPieceSize first base payload n :: splitLoop first larger (fuel - 1) base
        (payload - firstPieceSize first base payload n) (n - 1) false := by
    intro fuel hfuel
    obtain ⟨fuel, rfl⟩ : ∃ m, fuel = m + 1 := ⟨fuel - 1, by omega⟩
    exact splitLoop_start (by omega) (by omega) (by omega) hlarger (by omega)
  have hsecond : share base larger (n - 1) = base := by
    unfold share
    rw [if_neg (by omega), Nat.add_zero]
  obtain ⟨k, rfl⟩ : ∃ k, n = k + 1 := ⟨n - 1, by omega⟩
  rw [Nat.add_sub_cancel] at hsecond
  simp only [Nat.add_sub_cancel] at hstart
  have hmul : (k + 1) * base = k * base + base := Nat.succ_mul k base
  have hrest : ∃ l, Spread cap (cap - last)
    (payload - firstPieceSize first base payload (k + 1)) l ∧
      l ≠ [] ∧ ∀ fuel, k < fuel → splitLoop first larger fuel (share base larger k)
        (payload - firstPieceSize first base payload (k + 1)) k false = l := by
    by_cases htwo : k = 1
    · subst htwo
      have hleft : 0 < payload - firstPieceSize first base payload 2 ∧
          payload - firstPieceSize first base payload 2 ≤ share base larger 0 ∧
          payload - firstPieceSize first base payload 2 ≤ cap - last := by
        unfold firstPieceSize share at *
        dsimp only
        split_ifs at * <;> omega
      exact ⟨_, spread_single hleft.1 (le_trans hleft.2.1 hshare) hleft.2.2, List.cons_ne_nil _ _,
        fun fuel hfuel => splitLoop_last first hleft.1 hleft.2.1 hfuel⟩
    · have hthree : 2 * cap < 3 * base + min 2 larger := by
        refine two_lt_three_shares (by omega) (by omega) hlarger ?_
        rw [hdiv]
        exact hround.resolve_left (by omega)
      have hmono : 2 * base ≤ k * base := Nat.mul_le_mul_right base (by omega)
      -- the first piece is exact, or a single byte where its reduction takes more than its share
      have hpiece : firstPieceSize first base payload (k + 1) =
          if first + 1 < base then base - first else 1 := by
        unfold firstPieceSize
        rw [if_neg (by omega)]
        split_ifs <;> omega
      have hremaining : payload - firstPieceSize first base payload (k + 1) +
          (first + last + firstPieceSize first base payload (k + 1) - base) =
          shares base larger k := by
        unfold shares
        rw [hpiece]
        split_ifs <;> omega
      have hslack : first + last + firstPieceSize first base payload (k + 1) - base + 2 ≤
          shares base larger 2 := by
        unfold shares
        rw [hpiece]
        split_ifs <;> omega
      refine splitLoop_rest first hbase hshare (by omega) (by omega) (by omega) hremaining hslack ?_
      rw [hpiece]
      split_ifs <;> omega
  obtain ⟨l, hl, hne, hloop⟩ := hrest
  rw [hsecond] at hloop
  have hpiece : 0 < firstPieceSize first base payload (k + 1) ∧
      firstPieceSize first base payload (k + 1) ≤ cap - first ∧
      firstPieceSize first base payload (k + 1) ≤ payload := by
    unfold firstPieceSize
    dsimp only
    split_ifs <;> omega
  refine ⟨firstPieceSize first base payload (k + 1) :: l, ?_, ?_, by simpa using hpiece.2.1,
    fun fuel hfuel => ?_⟩
  · have := hl.cons hne hpiece.1 (by omega)
    rwa [Nat.add_sub_cancel' hpiece.2.2] at this
  · have := List.length_pos_of_ne_nil hne
    rw [List.length_cons]
    omega
  · rw [hstart fuel hfuel, hloop (fuel - 1) (by omega)]

/-! ## The split -/

/-- The number of packets is the total size divided by what a packet takes, rounded up, and at
least two. -/
theorem numOfPackets_spec {total cap : Nat} (hcap : 0 < cap) (htotal : 0 < total)
    (hsize : total + cap ≤ 2 ^ 64) :
    2 ≤ numOfPackets total cap ∧ total ≤ numOfPackets total cap * cap ∧
      (numOfPackets total cap = 2 ∨ numOfPackets total cap * cap < total + cap) := by
  have hround : toSize (total + ((cap : Int) - 1)) = total + (cap - 1) := by
    rw [toSize_of_nonneg (by omega) (by omega)]
    omega
  have hdiv := Nat.div_add_mod (total + (cap - 1)) cap
  have hmod : (total + (cap - 1)) % cap < cap := Nat.mod_lt _ hcap
  have hpos : 1 ≤ (total + (cap - 1)) / cap := (Nat.one_le_div_iff hcap).mpr (by omega)
  unfold numOfPackets
  rw [hround]
  generalize (total + (cap - 1)) / cap = n at *
  generalize (total + (cap - 1)) % cap = r at *
  dsimp only
  rw [Nat.mul_comm] at hdiv
  by_cases h1 : n = 1
  · subst h1
    rw [if_pos rfl]
    omega
  · rw [if_neg h1]
    exact ⟨by omega, by omega, Or.inr (by omega)⟩

/-- The loop as `SplitAboutEqually` enters it. -/
def splitRounds (payloadSize : Nat) (limits : PayloadSizeLimits) (fuel : Nat) : List Nat :=
  let totalSize :=
    toSize (payloadSize + limits.firstPacketReductionSize + limits.lastPacketReductionSize)
  let n := numOfPackets totalSize limits.maxPayloadSize
  splitLoop limits.firstPacketReductionSize (totalSize % n) fuel (totalSize / n) payloadSize n true

/-- The sizes are those of the source's types, a reduction is not larger than a packet, and no sum
of them leaves `size_t`. -/
structure SizesFit (payload : Nat) (limits : PayloadSizeLimits) : Prop where
  payloadSize : payload < 2 ^ 64
  maxPayloadSize : limits.maxPayloadSize < 2 ^ 64
  first : limits.firstPacketReductionSize ≤ limits.maxPayloadSize
  last : limits.lastPacketReductionSize ≤ limits.maxPayloadSize
  single : limits.singlePacketReductionSize + payload < 2 ^ 64
  total : 0 ≤ limits.firstPacketReductionSize → 0 ≤ limits.lastPacketReductionSize →
    payload + limits.firstPacketReductionSize + limits.lastPacketReductionSize +
      limits.maxPayloadSize ≤ 2 ^ 64

/-- The number of packets that the limits ask for. -/
def packetsNeeded (payload : Nat) (limits : PayloadSizeLimits) : Nat :=
  numOfPackets
    (toSize (payload + limits.firstPacketReductionSize + limits.lastPacketReductionSize))
    limits.maxPayloadSize

section Split

variable {payload : Nat} {limits : PayloadSizeLimits}

/-- **The payload is split** where the reductions leave room and there is a byte for every packet. -/
theorem splitAboutEqually_entered (h : SizesFit payload limits)
    (hfirst : 0 ≤ limits.firstPacketReductionSize) (hlast : 0 ≤ limits.lastPacketReductionSize)
    (hfirst' : limits.firstPacketReductionSize < limits.maxPayloadSize)
    (hlast' : limits.lastPacketReductionSize < limits.maxPayloadSize)
    (hlarge : limits.maxPayloadSize < toSize (limits.singlePacketReductionSize + payload))
    (hfit : packetsNeeded payload limits ≤ payload) (hpos : 0 < payload) :
    Spread limits.maxPayloadSize (limits.maxPayloadSize - limits.lastPacketReductionSize.toNat)
        payload (splitAboutEqually payload limits) ∧
      2 ≤ (splitAboutEqually payload limits).length ∧
      (∀ c ∈ (splitAboutEqually payload limits).head?,
        c ≤ limits.maxPayloadSize - limits.firstPacketReductionSize.toNat) ∧
      ∀ fuel, payload + 2 ≤ fuel →
        splitRounds payload limits fuel = splitAboutEqually payload limits := by
  have htotal := h.total hfirst hlast
  obtain ⟨cap, first, last, single⟩ := limits
  dsimp only at *
  obtain ⟨f, rfl⟩ := Int.eq_ofNat_of_zero_le hfirst
  obtain ⟨l, rfl⟩ := Int.eq_ofNat_of_zero_le hlast
  have htotal' : toSize ((payload : Int) + f + l) = payload + f + l :=
    toSize_natCast (n := payload + f + l) (by omega)
  unfold packetsNeeded at hfit
  dsimp only at hfit
  rw [htotal'] at hfit
  obtain ⟨hn, hcap, hround⟩ :=
    numOfPackets_spec (show 0 < cap by omega) (show 0 < payload + f + l by omega) (by omega)
  obtain ⟨pieces, hspread, hlen, hhead, hloop⟩ :=
    splitLoop_first rfl (by omega) hn hfit (by omega) (by omega) hcap hround
  have hrounds : ∀ fuel, payload + 2 ≤ fuel →
      splitRounds payload ⟨cap, f, l, single⟩ fuel = pieces := by
    intro fuel hfuel
    unfold splitRounds
    dsimp only
    rw [htotal']
    exact hloop fuel (by omega)
  have heq : splitAboutEqually payload ⟨cap, f, l, single⟩ = pieces := by
    rw [← hrounds (payload + 2) (le_refl _)]
    unfold splitAboutEqually splitRounds
    dsimp only
    rw [if_neg (by omega), if_neg (by omega), if_neg (by omega),
      if_neg (by
        rw [toSize_of_nonneg (by omega) (by omega), toSize_of_nonneg (by omega) (by omega)]
        omega),
      htotal', if_neg (by omega)]
  rw [heq]
  exact ⟨hspread, hlen, hhead, hrounds⟩

theorem packetsNeeded_le (h : SizesFit payload limits) (hpayload : 3 ≤ payload)
    (hfirst : 0 ≤ limits.firstPacketReductionSize) (hlast : 0 ≤ limits.lastPacketReductionSize)
    (hfirst' : limits.firstPacketReductionSize < limits.maxPayloadSize)
    (hlast' : limits.lastPacketReductionSize < limits.maxPayloadSize) :
    packetsNeeded payload limits ≤ payload := by
  have hsum := h.total hfirst hlast
  obtain ⟨cap, first, last, single⟩ := limits
  dsimp only at *
  obtain ⟨f, rfl⟩ := Int.eq_ofNat_of_zero_le hfirst
  obtain ⟨l, rfl⟩ := Int.eq_ofNat_of_zero_le hlast
  have htotal : toSize ((payload : Int) + f + l) = payload + f + l :=
    toSize_natCast (n := payload + f + l) (by omega)
  unfold packetsNeeded
  dsimp only
  rw [htotal]
  obtain ⟨-, -, hround⟩ :=
    numOfPackets_spec (show 0 < cap by omega) (show 0 < payload + f + l by omega) (by omega)
  by_contra hlt
  rcases hround with hround | hround
  · omega
  · have hmul := Nat.mul_le_mul_right cap
      (show payload + 1 ≤ numOfPackets (payload + f + l) cap by omega)
    have hsplit : (payload + 1) * cap = (payload - 2) * cap + 3 * cap := by
      rw [← Nat.add_mul]
      congr 1
      omega
    have hone : payload - 2 ≤ (payload - 2) * cap := Nat.le_mul_of_pos_right _ (by omega)
    omega

/-! ## Every input -/

/-- A reduction leaves no room for a byte, or there are fewer bytes than packets. -/
def NothingToSplit (payload : Nat) (limits : PayloadSizeLimits) : Prop :=
  payload = 0 ∨ limits.maxPayloadSize - limits.firstPacketReductionSize < 1 ∨
    limits.maxPayloadSize - limits.lastPacketReductionSize < 1 ∨
    payload < packetsNeeded payload limits

/-- What the caller may rely on when there are pieces. -/
structure Respects (payload : Nat) (limits : PayloadSizeLimits) (l : List Nat) : Prop where
  sum : l.sum = payload
  positive : ∀ c ∈ l, 0 < c
  single : ∀ c : Nat, l = [c] → c + limits.singlePacketReductionSize ≤ limits.maxPayloadSize
  first : 2 ≤ l.length → ∀ c ∈ l.head?, c + limits.firstPacketReductionSize ≤ limits.maxPayloadSize
  last : 2 ≤ l.length → ∀ c ∈ l.getLast?, c + limits.lastPacketReductionSize ≤ limits.maxPayloadSize
  piece : 2 ≤ l.length → ∀ c ∈ l, c ≤ limits.maxPayloadSize

/-- **The split respects the limits.**  The pieces sum to the payload and respect the limit of
their position; there are none only where there is nothing to split or a reduction is negative,
which is not supported; and the loop ends. -/
theorem splitAboutEqually_respects (h : SizesFit payload limits) :
    (splitAboutEqually payload limits = [] ∧
        (limits.firstPacketReductionSize < 0 ∨ limits.lastPacketReductionSize < 0 ∨
          NothingToSplit payload limits) ∨
      splitAboutEqually payload limits ≠ [] ∧
        Respects payload limits (splitAboutEqually payload limits)) ∧
    (2 ≤ (splitAboutEqually payload limits).length → ∀ fuel, payload + 2 ≤ fuel →
      splitRounds payload limits fuel = splitAboutEqually payload limits) := by
  by_cases hzero : payload = 0
  · refine ⟨Or.inl ⟨?_, Or.inr (Or.inr (Or.inl hzero))⟩, fun hlen => ?_⟩ <;>
      simp [splitAboutEqually, hzero] at *
  by_cases hneg : limits.firstPacketReductionSize < 0 ∨ limits.lastPacketReductionSize < 0
  · have hnil : splitAboutEqually payload limits = [] := by
      simp [splitAboutEqually, hzero, hneg]
    rw [hnil]
    refine ⟨Or.inl ⟨rfl, hneg.imp_right Or.inl⟩, fun hlen => by simp at hlen⟩
  have hsmall := h.single
  have hmax := h.maxPayloadSize
  by_cases hone : toSize (limits.singlePacketReductionSize + payload) ≤ limits.maxPayloadSize
  · have hsingle : splitAboutEqually payload limits = [payload] := by
      simp [splitAboutEqually, hzero, hneg, hone]
    rw [hsingle]
    refine ⟨Or.inr ⟨List.cons_ne_nil _ _, ⟨by simp, by simp; omega, ?_, ?_, ?_, ?_⟩⟩, ?_⟩
    · intro c hc
      obtain rfl : payload = c := by simpa using hc
      unfold toSize at hone
      omega
    all_goals
      intro hlen
      simp at hlen
  have hfirst := h.first
  have hlast := h.last
  by_cases hroom : limits.maxPayloadSize - limits.firstPacketReductionSize < 1 ∨
      limits.maxPayloadSize - limits.lastPacketReductionSize < 1
  · have hroom' : toSize (limits.maxPayloadSize - limits.firstPacketReductionSize) < 1 ∨
        toSize (limits.maxPayloadSize - limits.lastPacketReductionSize) < 1 := by
      rw [toSize_of_nonneg (by omega) (by omega), toSize_of_nonneg (by omega) (by omega)]
      omega
    have hnil : splitAboutEqually payload limits = [] := by
      unfold splitAboutEqually
      rw [if_neg hzero, if_neg hneg, if_neg hone, if_pos hroom']
    rw [hnil]
    refine ⟨Or.inl ⟨rfl, Or.inr (Or.inr (Or.inr ?_))⟩, fun hlen => by simp at hlen⟩
    exact hroom.imp_right Or.inl
  have hroom' : ¬ (toSize (limits.maxPayloadSize - limits.firstPacketReductionSize) < 1 ∨
      toSize (limits.maxPayloadSize - limits.lastPacketReductionSize) < 1) := by
    rw [toSize_of_nonneg (by omega) (by omega), toSize_of_nonneg (by omega) (by omega)]
    omega
  by_cases hfew : payload < packetsNeeded payload limits
  · have hnil : splitAboutEqually payload limits = [] := by
      unfold splitAboutEqually
      rw [if_neg hzero, if_neg hneg, if_neg hone, if_neg hroom']
      exact if_pos hfew
    rw [hnil]
    exact ⟨Or.inl ⟨rfl, Or.inr (Or.inr (Or.inr (Or.inr (Or.inr hfew))))⟩, fun hlen => by simp at hlen⟩
  · obtain ⟨hspread, hlen, hhead, hrounds⟩ := splitAboutEqually_entered h (by omega) (by omega)
      (by omega) (by omega) (by omega) (by omega) (by omega)
    generalize splitAboutEqually payload limits = l at *
    refine ⟨Or.inr ⟨fun hnil => by simp [hnil] at hlen, hspread.sum,
      fun c hc => (hspread.piece c hc).1, fun c hc => by simp [hc] at hlen, fun _ c hc => ?_,
      fun _ c hc => ?_, fun _ c hc => (hspread.piece c hc).2⟩, fun _ => hrounds⟩
    · have := hhead c hc
      omega
    · have := hspread.last c hc
      omega

end Split

/-- Ten bytes in packets of six, of which the first gives up one and the last two. -/
theorem splitAboutEqually_ten :
    Respects 10 ⟨6, 1, 2, 1⟩ (splitAboutEqually 10 ⟨6, 1, 2, 1⟩) := by
  have hfit : SizesFit 10 ⟨6, 1, 2, 1⟩ := by constructor <;> decide
  exact ((splitAboutEqually_respects hfit).1.resolve_left fun h => absurd h.1 (by decide)).2

/-- **A first packet that may be larger than the others is refused**: five bytes go into packets
of four, of which the first takes five, but nothing is produced. -/
theorem splitAboutEqually_negative :
    ¬ ∀ (payload : Nat) (limits : PayloadSizeLimits), payload < 2 ^ 64 →
      limits.maxPayloadSize < 2 ^ 64 →
      (∀ r ∈ [limits.firstPacketReductionSize, limits.lastPacketReductionSize,
        limits.singlePacketReductionSize], -2 ^ 63 ≤ r ∧ r < 2 ^ 63) →
      splitAboutEqually payload limits = [] ∧ NothingToSplit payload limits ∨
        splitAboutEqually payload limits ≠ [] ∧
          Respects payload limits (splitAboutEqually payload limits) := by
  intro h
  rcases h 5 ⟨4, -1, 0, 0⟩ (by decide) (by decide) (by decide) with ⟨-, hnothing⟩ | ⟨hne, -⟩
  · revert hnothing
    unfold NothingToSplit
    decide
  · exact hne (by decide)

end NaiveRtc.Rtp
