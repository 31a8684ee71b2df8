import NaiveRtc.Lib.Counted

/-!
# Merging histograms

`rtc/base/numerics/histogram_percentile_counter.cpp`: values below a boundary are counted in a
table, the others in a map.  The rank that a fraction stands for, which is computed in floating
point, is an argument.

* `HistogramPercentileCounter`, `add`, `addCounter`, `getPercentile` — the class.
* `Sound` — the totals are in step; `add_sound` keeps it.
* `Represents` — a counter stands for a multiset; `Sound.represents`.
* `addCounter_represents_iff` — **when merging adds the multisets.**
* `own_map_merged` — the map that is merged is the counter's own.
-/

namespace NaiveRtc

open Counted

/-- `HistogramPercentileCounter`; the map is a list in the order of its keys. -/
structure HistogramPercentileCounter where
  histogramLow : List Nat
  histogramHigh : List (Nat × Nat)
  longTailBoundary : Nat
  totalElements : Nat
  totalElementsLow : Nat
  deriving DecidableEq

namespace HistogramPercentileCounter

/-- `size_t` wraps around. -/
def sizeBound : Nat := 2 ^ 64

/-- `HistogramPercentileCounter(long_tail_boundary)`. -/
def create (longTailBoundary : Nat) : HistogramPercentileCounter :=
  ⟨List.replicate longTailBoundary 0, [], longTailBoundary, 0, 0⟩

/-- The table from a value on, as values with their counts. -/
def entriesFrom : Nat → List Nat → List (Nat × Nat)
  | _, [] => []
  | value, count :: counts => (value, count) :: entriesFrom (value + 1) counts

/-- The table as values with their counts. -/
def lowEntries (c : HistogramPercentileCounter) : List (Nat × Nat) := entriesFrom 0 c.histogramLow

/-- `Add(value, count)`. -/
def add (c : HistogramPercentileCounter) (value count : Nat) : HistogramPercentileCounter :=
  if value < c.longTailBoundary then
    { c with
      histogramLow :=
        c.histogramLow.set value ((c.histogramLow.getD value 0 + count) % sizeBound)
      totalElementsLow := (c.totalElementsLow + count) % sizeBound
      totalElements := (c.totalElements + count) % sizeBound }
  else
    { c with
      histogramHigh := bump sizeBound value count c.histogramHigh
      totalElements := (c.totalElements + count) % sizeBound }

/-- `Add(value, count)` for each of these. -/
def addAll (c : HistogramPercentileCounter) (l : List (Nat × Nat)) : HistogramPercentileCounter :=
  l.foldl (fun c p => c.add p.1 p.2) c

/-- `Add(other)`.  The second loop goes over the map of `this`; each turn counts up the value it
has come to, and no other. -/
def addCounter (c other : HistogramPercentileCounter) : HistogramPercentileCounter :=
  let c := c.addAll other.lowEntries
  c.addAll c.histogramHigh

/-- `GetPercentile(fraction)`, once the fraction has become a number of elements to skip. -/
def getPercentile (c : HistogramPercentileCounter) (elementsToSkip : Nat) : Option Nat :=
  if c.totalElements = 0 then none
  else
    let elementsToSkip :=
      if c.totalElements ≤ elementsToSkip then c.totalElements - 1 else elementsToSkip
    if elementsToSkip < c.totalElementsLow then select c.lowEntries elementsToSkip
    else select c.histogramHigh (elementsToSkip - c.totalElementsLow)

/-- What the table counts. -/
def lowElements (c : HistogramPercentileCounter) : Multiset Nat := expand c.lowEntries

/-- What the map counts. -/
def highElements (c : HistogramPercentileCounter) : Multiset Nat := expand c.histogramHigh

/-- The multiset of a counter. -/
def elements (c : HistogramPercentileCounter) : Multiset Nat := c.lowElements + c.highElements

/-- The tables are where they belong and the totals are in step. -/
structure Sound (c : HistogramPercentileCounter) : Prop where
  table : c.histogramLow.length = c.longTailBoundary
  keys : (c.histogramHigh.map Prod.fst).Pairwise (· < ·)
  high : ∀ value ∈ c.histogramHigh.map Prod.fst, c.longTailBoundary ≤ value
  total : c.totalElements = c.elements.card
  totalLow : c.totalElementsLow = c.lowElements.card
  fits : c.totalElements < sizeBound

/-- A counter stands for a multiset: its contents, both totals, and the element of every rank. -/
def Represents (c : HistogramPercentileCounter) (m : Multiset Nat) : Prop :=
  c.elements = m ∧ c.totalElements = m.card ∧
    c.totalElementsLow = (m.filter (· < c.longTailBoundary)).card ∧
    ∀ k < m.card, c.getPercentile k = (m.sort (· ≤ ·))[k]?

/-! ## Tables -/

theorem mem_keys_entriesFrom {value first : Nat} {counts : List Nat}
    (h : value ∈ (entriesFrom first counts).map Prod.fst) :
    first ≤ value ∧ value < first + counts.length := by
  induction counts generalizing first with
  | nil => cases h
  | cons count counts ih =>
    rw [List.length_cons]
    rcases List.mem_cons.1 h with rfl | h
    · exact ⟨Nat.le_refl _, Nat.lt_add_of_pos_right (Nat.succ_pos _)⟩
    · have := ih h
      omega

theorem sorted_entriesFrom (first : Nat) (counts : List Nat) :
    ((entriesFrom first counts).map Prod.fst).Pairwise (· < ·) := by
  induction counts generalizing first with
  | nil => exact .nil
  | cons count counts ih =>
    exact List.pairwise_cons.2 ⟨fun value h => (mem_keys_entriesFrom h).1, ih (first + 1)⟩

theorem getD_le_length_expand (first : Nat) (counts : List Nat) (i : Nat) :
    counts.getD i 0 ≤ (expand (entriesFrom first counts)).length := by
  induction counts generalizing first i with
  | nil => exact Nat.zero_le _
  | cons count counts ih =>
    rw [entriesFrom, expand_cons, List.length_append, List.length_replicate]
    cases i with
    | zero => exact Nat.le_add_right _ _
    | succ i => exact (ih (first + 1) i).trans (Nat.le_add_left _ _)

theorem coe_expand_set (first : Nat) {counts : List Nat} {i : Nat} (hi : i < counts.length)
    (count : Nat) :
    (expand (entriesFrom first (counts.set i (counts.getD i 0 + count))) : Multiset Nat) =
      (expand (entriesFrom first counts) : Multiset Nat) +
        Multiset.replicate count (first + i) := by
  induction counts generalizing first i with
  | nil => exact absurd hi (Nat.not_lt_zero i)
  | cons head counts ih =>
    cases i with
    | zero =>
      rw [List.set_cons_zero, entriesFrom, entriesFrom, expand_cons, expand_cons,
        ← Multiset.coe_add, ← Multiset.coe_add, List.getD_cons_zero, List.replicate_add,
        ← Multiset.coe_add, Multiset.coe_replicate, Multiset.coe_replicate, add_right_comm]
      rfl
    | succ i =>
      have hplace : first + 1 + i = first + (i + 1) := by omega
      rw [List.set_cons_succ, entriesFrom, entriesFrom, expand_cons, expand_cons,
        ← Multiset.coe_add, ← Multiset.coe_add, List.getD_cons_succ,
        ih (first + 1) (Nat.lt_of_succ_lt_succ hi), hplace, add_assoc]

/-! ## Counting up -/

section

variable {c : HistogramPercentileCounter}

theorem lt_of_mem_lowElements (h : c.histogramLow.length = c.longTailBoundary) {value : Nat}
    (hvalue : value ∈ c.lowElements) : value < c.longTailBoundary := by
  have := mem_keys_entriesFrom (mem_of_mem_expand (Multiset.mem_coe.1 hvalue))
  omega

theorem Sound.le_of_mem_highElements (h : c.Sound) {value : Nat}
    (hvalue : value ∈ c.highElements) : c.longTailBoundary ≤ value :=
  h.high value (mem_of_mem_expand (Multiset.mem_coe.1 hvalue))

/-- What one call does to the two parts. -/
structure Adds (c c' : HistogramPercentileCounter) (m : Multiset Nat) : Prop where
  boundary : c'.longTailBoundary = c.longTailBoundary
  low : c'.lowElements = c.lowElements + m.filter (· < c.longTailBoundary)
  high : c'.highElements = c.highElements + m.filter (¬· < c.longTailBoundary)

theorem Adds.elements {c' : HistogramPercentileCounter} {m : Multiset Nat} (h : Adds c c' m) :
    c'.elements = c.elements + m := by
  have hm := Multiset.filter_add_not (· < c.longTailBoundary) m
  rw [HistogramPercentileCounter.elements, h.low, h.high, add_add_add_comm, hm]
  rfl

theorem create_sound (longTailBoundary : Nat) :
    (create longTailBoundary).Sound ∧ (create longTailBoundary).elements = 0 := by
  have hlow : ∀ first n : Nat, expand (entriesFrom first (List.replicate n 0)) = [] := by
    intro first n
    induction n generalizing first with
    | zero => rfl
    | succ n ih => exact ih (first + 1)
  have hzero : (create longTailBoundary).lowElements = 0 :=
    congrArg (fun l : List Nat => (l : Multiset Nat)) (hlow 0 longTailBoundary)
  have helements : (create longTailBoundary).elements = 0 := by
    rw [elements, hzero]
    rfl
  refine ⟨⟨List.length_replicate, .nil, fun value h => absurd h List.not_mem_nil, ?_, ?_,
    (by decide : 0 < sizeBound)⟩, helements⟩
  · rw [helements]
    rfl
  · rw [hzero]
    rfl

theorem add_sound (h : c.Sound) (value count : Nat)
    (hfits : c.totalElements + count < sizeBound) :
    (c.add value count).Sound ∧ (c.add value count).totalElements = c.totalElements + count ∧
      Adds c (c.add value count) (Multiset.replicate count value) := by
  have htotal := h.total
  rw [elements, Multiset.card_add] at htotal
  have hmod : (c.totalElements + count) % sizeBound = c.totalElements + count :=
    Nat.mod_eq_of_lt hfits
  have hadds : Adds c (c.add value count) (Multiset.replicate count value) ∧
      (c.add value count).totalElementsLow = (c.add value count).lowElements.card := by
    unfold add
    split
    case isTrue hlow =>
      have hcell : c.histogramLow.getD value 0 ≤ c.lowElements.card :=
        getD_le_length_expand 0 c.histogramLow value
      have hset := coe_expand_set 0 (h.table ▸ hlow) count
      rw [Nat.zero_add] at hset
      have hall : (Multiset.replicate count value).filter (· < c.longTailBoundary) =
          Multiset.replicate count value :=
        Multiset.filter_eq_self.2 fun v hv => Multiset.eq_of_mem_replicate hv ▸ hlow
      have hnone : (Multiset.replicate count value).filter (¬· < c.longTailBoundary) = 0 :=
        Multiset.filter_eq_nil.2 fun v hv hnot => hnot (Multiset.eq_of_mem_replicate hv ▸ hlow)
      rw [Nat.mod_eq_of_lt (by omega : c.histogramLow.getD value 0 + count < sizeBound)]
      refine ⟨⟨rfl, ?_, ?_⟩, ?_⟩
      · rw [hall]
        exact hset
      · rw [hnone, add_zero]
        rfl
      · have hcard := congrArg Multiset.card hset
        rw [Multiset.card_add, Multiset.card_replicate] at hcard
        refine Eq.trans ?_ hcard.symm
        have hlowCard := h.totalLow
        show (c.totalElementsLow + count) % sizeBound = c.lowElements.card + count
        rw [hlowCard]
        exact Nat.mod_eq_of_lt (by omega)
    case isFalse hhigh =>
      have hnone : (Multiset.replicate count value).filter (· < c.longTailBoundary) = 0 :=
        Multiset.filter_eq_nil.2 fun v hv hlt => hhigh (Multiset.eq_of_mem_replicate hv ▸ hlt)
      have hall : (Multiset.replicate count value).filter (¬· < c.longTailBoundary) =
          Multiset.replicate count value :=
        Multiset.filter_eq_self.2 fun v hv => Multiset.eq_of_mem_replicate hv ▸ hhigh
      have hcard : (expand c.histogramHigh).length = c.highElements.card := rfl
      have hbump : (expand (bump sizeBound value count c.histogramHigh) : Multiset Nat) =
          c.highElements + Multiset.replicate count value := coe_expand_bump (by omega)
      refine ⟨⟨rfl, ?_, ?_⟩, h.totalLow⟩
      · rw [hnone, add_zero]
        rfl
      · rw [hall]
        exact hbump
  obtain ⟨hadds, htotalLow⟩ := hadds
  have hnew : (c.add value count).totalElements = c.totalElements + count := by
    unfold add
    split <;> exact hmod
  refine ⟨⟨?_, ?_, ?_, ?_, htotalLow, ?_⟩, hnew, hadds⟩
  · have htable := h.table
    unfold add
    split
    · exact List.length_set.trans htable
    · exact htable
  · unfold add
    split
    · exact h.keys
    · exact sorted_bump h.keys value count
  · have hhigh := h.high
    unfold add
    split
    · exact hhigh
    case isFalse hge =>
      intro v hv
      rcases mem_keys_bump hv with rfl | hv
      · exact Nat.not_lt.1 hge
      · exact hhigh v hv
  · rw [hnew, hadds.elements, Multiset.card_add, Multiset.card_replicate, h.total]
  · rw [hnew]
    exact hfits

theorem Adds.trans {c' c'' : HistogramPercentileCounter} {m m' : Multiset Nat} (h : Adds c c' m)
    (h' : Adds c' c'' m') : Adds c c'' (m + m') := by
  refine ⟨h'.boundary.trans h.boundary, ?_, ?_⟩
  · rw [h'.low, h.low, h.boundary, Multiset.filter_add, add_assoc]
  · rw [h'.high, h.high, h.boundary, Multiset.filter_add, add_assoc]

theorem addAll_sound (h : c.Sound) {l : List (Nat × Nat)}
    (hfits : c.totalElements + (expand l).length < sizeBound) :
    (c.addAll l).Sound ∧ (c.addAll l).totalElements = c.totalElements + (expand l).length ∧
      Adds c (c.addAll l) (expand l) := by
  induction l generalizing c with
  | nil => exact ⟨h, rfl, rfl, (add_zero _).symm, (add_zero _).symm⟩
  | cons p l ih =>
    rw [expand_cons, List.length_append, List.length_replicate] at hfits ⊢
    obtain ⟨hsound, htotal, hadds⟩ := add_sound h p.1 p.2 (by omega)
    obtain ⟨hsound', htotal', hadds'⟩ := ih hsound (by omega)
    refine ⟨hsound', ?_, ?_⟩
    · rw [addAll, List.foldl_cons]
      exact htotal'.trans (by omega)
    · rw [← Multiset.coe_add, Multiset.coe_replicate]
      exact hadds.trans hadds'

theorem addAll_total_lt (h : c.totalElements < sizeBound) (l : List (Nat × Nat)) :
    (c.addAll l).totalElements < sizeBound := by
  induction l generalizing c with
  | nil => exact h
  | cons p l ih =>
    have hadd : (c.add p.1 p.2).totalElements < sizeBound := by
      unfold add
      split <;> exact Nat.mod_lt _ (by decide)
    exact ih hadd

/-! ## The second loop -/

/-- A value that is counted twice. -/
def twice (p : Nat × Nat) : Nat × Nat := (p.1, (p.2 + p.2) % sizeBound)

theorem addAll_own (done rest : List (Nat × Nat)) (c : HistogramPercentileCounter)
    (hmap : c.histogramHigh = done.map twice ++ rest)
    (hkeys : (c.histogramHigh.map Prod.fst).Pairwise (· < ·))
    (hhigh : ∀ value ∈ c.histogramHigh.map Prod.fst, c.longTailBoundary ≤ value) :
    (c.addAll rest).histogramHigh = (done ++ rest).map twice ∧
      (c.addAll rest).histogramLow = c.histogramLow ∧
      (c.addAll rest).longTailBoundary = c.longTailBoundary := by
  induction rest generalizing done c with
  | nil =>
    rw [List.append_nil] at hmap ⊢
    exact ⟨hmap, rfl, rfl⟩
  | cons p rest ih =>
    have hp : ¬p.1 < c.longTailBoundary := Nat.not_lt.2 (hhigh p.1 (by rw [hmap]; simp))
    have hadd : c.add p.1 p.2 = { c with
        histogramHigh := bump sizeBound p.1 p.2 c.histogramHigh
        totalElements := (c.totalElements + p.2) % sizeBound } := if_neg hp
    have hbump : bump sizeBound p.1 p.2 c.histogramHigh =
        (done ++ [p]).map twice ++ rest := by
      rw [hmap] at hkeys ⊢
      rw [bump_of_mem p.2 hkeys, List.map_append, List.append_assoc]
      rfl
    have hsame : (bump sizeBound p.1 p.2 c.histogramHigh).map Prod.fst =
        c.histogramHigh.map Prod.fst := by
      rw [hbump, hmap]
      simp [twice]
    obtain ⟨hfinal, hlow, hboundary⟩ := ih (done ++ [p]) (c.add p.1 p.2)
      (by rw [hadd]; exact hbump) (by rw [hadd]; exact hsame ▸ hkeys)
      (by rw [hadd]; exact fun value hvalue => hhigh value (hsame ▸ hvalue))
    refine ⟨hfinal.trans ?_, hlow.trans (by rw [hadd]), hboundary.trans (by rw [hadd])⟩
    rw [List.append_assoc, List.singleton_append]

theorem count_expand_twice {l : List (Nat × Nat)} (h : (l.map Prod.fst).Pairwise (· < ·))
    (value : Nat) :
    (expand (l.map twice) : Multiset Nat).count value =
      ((expand l : Multiset Nat).count value + (expand l : Multiset Nat).count value) %
        sizeBound := by
  rw [Multiset.coe_count, Multiset.coe_count]
  have hkeys : (l.map twice).map Prod.fst = l.map Prod.fst := by
    rw [List.map_map]
    rfl
  by_cases hmem : value ∈ l.map Prod.fst
  · obtain ⟨p, hp, rfl⟩ := List.mem_map.1 hmem
    rw [count_expand h hp]
    exact count_expand (hkeys ▸ h) (List.mem_map_of_mem hp : twice p ∈ l.map twice)
  · have hnone : (expand l).count value = 0 :=
      List.count_eq_zero.2 fun hvalue => hmem (mem_of_mem_expand hvalue)
    have hnone' : (expand (l.map twice)).count value = 0 :=
      List.count_eq_zero.2 fun hvalue => hmem (hkeys ▸ mem_of_mem_expand hvalue)
    rw [hnone, hnone']
    rfl

/-! ## Ranks -/

theorem Sound.getPercentile (h : c.Sound) {k : Nat} (hk : k < c.elements.card) :
    c.getPercentile k = (c.elements.sort (· ≤ ·))[k]? := by
  have hkeys : ((c.lowEntries ++ c.histogramHigh).map Prod.fst).Pairwise (· < ·) := by
    rw [List.map_append]
    refine List.pairwise_append.2 ⟨sorted_entriesFrom 0 _, h.keys, fun v hv w hw => ?_⟩
    have hlow := (mem_keys_entriesFrom hv).2
    have hhigh := h.high w hw
    have := h.table
    omega
  have hsort := expand_eq_sort (sorted_expand hkeys)
  rw [expand_append, ← Multiset.coe_add] at hsort
  have hlow : c.totalElementsLow = (expand c.lowEntries).length := h.totalLow
  have htotal := h.total
  unfold HistogramPercentileCounter.getPercentile
  have helements : c.elements =
      (expand c.lowEntries : Multiset Nat) + (expand c.histogramHigh : Multiset Nat) := rfl
  have hskip : ¬c.totalElements ≤ k := by omega
  rw [if_neg (by omega), helements, ← hsort]
  simp only [if_neg hskip]
  split
  case isTrue hlt =>
    rw [select_eq, List.getElem?_append_left (by omega)]
  case isFalse hge =>
    rw [select_eq, List.getElem?_append_right (by omega), hlow]

theorem Sound.filter_elements (h : c.Sound) :
    c.elements.filter (· < c.longTailBoundary) = c.lowElements := by
  rw [elements, Multiset.filter_add,
    Multiset.filter_eq_self.2 fun v hv => lt_of_mem_lowElements h.table hv,
    Multiset.filter_eq_nil.2 fun v hv hlt => Nat.not_lt.2 (h.le_of_mem_highElements hv) hlt,
    add_zero]

theorem Sound.represents (h : c.Sound) : c.Represents c.elements :=
  ⟨rfl, h.total, by rw [h.filter_elements, h.totalLow], fun _ hk => h.getPercentile hk⟩

end

/-! ## Merging -/

section

variable {a b : HistogramPercentileCounter}

theorem addLow_sound (ha : a.Sound) (hb : b.Sound)
    (hfits : a.totalElements + b.totalElements < sizeBound) :
    (a.addAll b.lowEntries).Sound ∧
      (a.addAll b.lowEntries).totalElements = a.totalElements + b.lowElements.card ∧
      Adds a (a.addAll b.lowEntries) b.lowElements := by
  have htotal := hb.total
  rw [elements, Multiset.card_add] at htotal
  have hcard : (expand b.lowEntries).length = b.lowElements.card := rfl
  exact addAll_sound ha (by omega)

theorem count_high_addLow (ha : a.Sound) (hb : b.Sound)
    (hfits : a.totalElements + b.totalElements < sizeBound) (value : Nat) :
    (a.addAll b.lowEntries).highElements.count value = a.highElements.count value +
      if a.longTailBoundary ≤ value then b.lowElements.count value else 0 := by
  rw [(addLow_sound ha hb hfits).2.2.high, Multiset.count_add, Multiset.count_filter]
  simp only [Nat.not_lt]

theorem count_le_total (ha : a.Sound) (value : Nat) : a.elements.count value ≤ a.totalElements := by
  rw [ha.total]
  exact Multiset.count_le_card value _

theorem count_elements_addCounter (ha : a.Sound) (hb : b.Sound)
    (hfits : a.totalElements + b.totalElements < sizeBound) (value : Nat) :
    (a.addCounter b).elements.count value =
      (a.addAll b.lowEntries).lowElements.count value +
        ((a.addAll b.lowEntries).highElements.count value +
          (a.addAll b.lowEntries).highElements.count value) % sizeBound := by
  obtain ⟨hsound, -, -⟩ := addLow_sound ha hb hfits
  obtain ⟨hhigh, hlow, -⟩ := addAll_own [] (a.addAll b.lowEntries).histogramHigh _ rfl
    hsound.keys hsound.high
  have helements : (a.addCounter b).elements =
      (expand (entriesFrom 0 (a.addCounter b).histogramLow) : Multiset Nat) +
        (expand (a.addCounter b).histogramHigh : Multiset Nat) := rfl
  unfold addCounter at helements ⊢
  dsimp only at helements ⊢
  rw [helements, hhigh, hlow, List.nil_append, Multiset.count_add, count_expand_twice hsound.keys]
  rfl

theorem addCounter_sound (ha : a.Sound) (hb : b.Sound)
    (hfits : a.totalElements + b.totalElements < sizeBound)
    (hmaps : (a.addAll b.lowEntries).highElements = b.highElements) :
    (a.addCounter b).Sound ∧ (a.addCounter b).elements = a.elements + b.elements := by
  obtain ⟨hsound, htotal, hadds⟩ := addLow_sound ha hb hfits
  have hbtotal := hb.total
  rw [elements, Multiset.card_add] at hbtotal
  have hcard : (expand (a.addAll b.lowEntries).histogramHigh).length = b.highElements.card :=
    congrArg Multiset.card hmaps
  obtain ⟨hfinal, -, hown⟩ := addAll_sound hsound
    (l := (a.addAll b.lowEntries).histogramHigh) (by omega)
  refine ⟨hfinal, hown.elements.trans ?_⟩
  rw [hadds.elements, add_assoc]
  exact congrArg (a.elements + ·) (congrArg (b.lowElements + ·) hmaps)

/-- **Merging adds the multisets** — contents, totals and ranks — exactly when both together have
fewer elements than `size_t` can count and the map of the other counter holds every value as often
as the own one does once the other table is in it. -/
theorem addCounter_represents_iff (ha : a.Sound) (hb : b.Sound) :
    (a.addCounter b).Represents (a.elements + b.elements) ↔
      a.totalElements + b.totalElements < sizeBound ∧
        ∀ value, b.highElements.count value = a.highElements.count value +
          if a.longTailBoundary ≤ value then b.lowElements.count value else 0 := by
  constructor
  · rintro ⟨helements, htotal, -, -⟩
    have hfits : a.totalElements + b.totalElements < sizeBound := by
      have hlt : (a.addCounter b).totalElements < sizeBound :=
        addAll_total_lt (addAll_total_lt ha.fits _) _
      rw [Multiset.card_add, ← ha.total, ← hb.total] at htotal
      omega
    refine ⟨hfits, fun value => ?_⟩
    obtain ⟨-, -, hadds⟩ := addLow_sound ha hb hfits
    have hcount := congrArg (Multiset.count value) helements
    have hhigh := count_high_addLow ha hb hfits value
    have hle := count_le_total ha value
    have hle' := count_le_total hb value
    rw [count_elements_addCounter ha hb hfits, hadds.low, Multiset.count_add,
      Multiset.count_filter, Multiset.count_add, elements, elements, Multiset.count_add,
      Multiset.count_add] at hcount
    rw [elements, Multiset.count_add] at hle hle'
    unfold sizeBound at hcount hfits
    split_ifs at hcount hhigh ⊢ <;> omega
  · rintro ⟨hfits, hmaps⟩
    obtain ⟨hsound, helements⟩ := addCounter_sound ha hb hfits
      (Multiset.ext.2 fun value => (count_high_addLow ha hb hfits value).trans (hmaps value).symm)
    exact helements ▸ hsound.represents

/-- Two tables without a map. -/
theorem addCounter_represents_tables :
    let a := (create 10).add 3 1
    let b := (create 10).add 5 1
    (a.addCounter b).Represents (a.elements + b.elements) := by
  intro a b
  have ha : a.Sound := (add_sound (create_sound 10).1 3 1 (by decide)).1
  have hb : b.Sound := (add_sound (create_sound 10).1 5 1 (by decide)).1
  refine (addCounter_represents_iff ha hb).2 ⟨by decide, fun value => ?_⟩
  have hnone : (if 10 ≤ value then b.lowElements.count value else 0) = 0 := by
    split
    case isTrue hge =>
      exact Multiset.count_eq_zero.2 fun hmem =>
        absurd (lt_of_mem_lowElements hb.table hmem) (Nat.not_lt.2 hge)
    case isFalse => rfl
  have hmaps : a.highElements = 0 ∧ b.highElements = 0 := ⟨rfl, rfl⟩
  rw [hmaps.1, hmaps.2, Multiset.count_zero, zero_add]
  exact hnone.symm

/-- The value of the other map is lost, and the one of the own map is doubled. -/
theorem own_map_merged :
    let a := (create 10).add 12 1
    let b := (create 10).add 15 1
    (a.addCounter b).elements = {12, 12} ∧
      ¬(a.addCounter b).Represents (a.elements + b.elements) := by
  intro a b
  have helements : (a.addCounter b).elements = {12, 12} := by decide +kernel
  have hne : (a.addCounter b).elements ≠ a.elements + b.elements := by decide +kernel
  exact ⟨helements, fun h => hne h.1⟩

end

end HistogramPercentileCounter

end NaiveRtc
