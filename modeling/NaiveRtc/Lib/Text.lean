import Mathlib.Data.List.Infix
import Mathlib.Data.List.TakeWhile

/-!
# Texts

Texts as lists of characters, cut at separators and read from the left, the way the functions
`find`, `substr` and `strtol` of a string library do it.

* `before`, `after` — what stands in front of the first separator and behind it; without one,
  both are the whole text.
* `afterText` — what stands behind the first occurrence of a pattern.
* `decimal`, `readInteger` — integers, printed and read.
* `before_append`, `after_append`, `readInteger_decimal` — **a text that was put together is taken
  apart again.**
-/

/-- A text. -/
abbrev Text : Type := List Char

namespace Text

/-! ## Separators -/

/-- `s.substr(0, s.find(c))`. -/
def before (c : Char) (s : Text) : Text := s.takeWhile (· ≠ c)

/-- `s.substr(s.find(c) + 1)`: what is not found ends at the last position there is, and the next
one is zero again. -/
def after (c : Char) (s : Text) : Text := if c ∈ s then (s.dropWhile (· ≠ c)).tail else s

section Separators

variable {c : Char} {a b : Text}

theorem before_append (h : c ∉ a) : before c (a ++ c :: b) = a := by
  have hall : ∀ x ∈ a, decide (x ≠ c) = true := fun x hx =>
    decide_eq_true fun heq => h (heq ▸ hx)
  rw [before, List.takeWhile_append_of_pos hall, List.takeWhile_cons_of_neg (by simp),
    List.append_nil]

theorem after_append (h : c ∉ a) : after c (a ++ c :: b) = b := by
  have hall : ∀ x ∈ a, decide (x ≠ c) = true := fun x hx =>
    decide_eq_true fun heq => h (heq ▸ hx)
  rw [after, if_pos (List.mem_append_right _ List.mem_cons_self),
    List.dropWhile_append_of_pos hall, List.dropWhile_cons_of_neg (by simp), List.tail_cons]

end Separators

/-! ## Patterns -/

/-- `s.substr(s.find(pattern) + pattern.size())`; `none` is not found. -/
def afterText (pattern : Text) : Text → Option Text
  | [] => none
  | c :: s =>
    if pattern <+: c :: s then some ((c :: s).drop pattern.length) else afterText pattern s

section Patterns

variable {p : Char} {pattern s : Text}

/-- A pattern begins nowhere but at its first character. -/
theorem afterText_append {a : Text} (h : p ∉ a) :
    afterText (p :: pattern) (a ++ s) = afterText (p :: pattern) s := by
  induction a with
  | nil => rfl
  | cons c a ih =>
    have hc : ¬(p :: pattern <+: c :: (a ++ s)) := by
      rw [List.cons_prefix_cons]
      exact fun hpre => h (hpre.1 ▸ List.mem_cons_self)
    rw [List.cons_append, afterText, if_neg hc]
    exact ih fun hmem => h (List.mem_cons_of_mem _ hmem)

theorem afterText_self : afterText (p :: pattern) (p :: pattern ++ s) = some s := by
  have hpre : p :: pattern <+: p :: (pattern ++ s) := List.prefix_append (p :: pattern) s
  rw [List.cons_append, afterText, if_pos hpre]
  exact congrArg some List.drop_left

theorem afterText_mem {r : Text} (h : afterText pattern s = some r) {c : Char} (hc : c ∈ r) :
    c ∈ s := by
  induction s with
  | nil => cases h
  | cons d s ih =>
    rw [afterText] at h
    by_cases hpre : pattern <+: d :: s
    · rw [if_pos hpre] at h
      obtain rfl := Option.some.inj h
      exact List.mem_of_mem_drop hc
    · rw [if_neg hpre] at h
      exact List.mem_cons_of_mem _ (ih h)

theorem prefix_append_sep {c : Char} {a b : Text} (hc : c ∉ pattern) :
    pattern <+: a ++ c :: b ↔ pattern <+: a := by
  refine ⟨fun h => ?_, fun h => h.trans (List.prefix_append _ _)⟩
  induction pattern generalizing a with
  | nil => exact List.nil_prefix
  | cons x pattern ih =>
    cases a with
    | nil =>
      rw [List.nil_append, List.cons_prefix_cons] at h
      exact absurd (h.1 ▸ List.mem_cons_self) hc
    | cons d a =>
      rw [List.cons_append, List.cons_prefix_cons] at h
      rw [List.cons_prefix_cons]
      exact ⟨h.1, ih (fun hmem => hc (List.mem_cons_of_mem _ hmem)) h.2⟩

/-- **A pattern without the separator lies on one side of it.** -/
theorem afterText_sep {c : Char} {a b : Text} (hc : c ∉ p :: pattern) :
    afterText (p :: pattern) (a ++ c :: b) =
      ((afterText (p :: pattern) a).map (· ++ c :: b)).or (afterText (p :: pattern) b) := by
  induction a with
  | nil =>
    have hpc : p ∉ [c] := fun hmem => hc (List.mem_singleton.1 hmem ▸ List.mem_cons_self)
    exact @afterText_append p pattern b [c] hpc
  | cons d a ih =>
    have hside : p :: pattern <+: d :: (a ++ c :: b) ↔ p :: pattern <+: d :: a :=
      @prefix_append_sep (p :: pattern) c (d :: a) b hc
    by_cases hpre : p :: pattern <+: d :: a
    · rw [List.cons_append, afterText, afterText, if_pos hpre, if_pos (hside.2 hpre)]
      exact congrArg some (@List.drop_append_of_le_length _ (d :: a) (c :: b) _ hpre.length_le)
    · rw [List.cons_append, afterText, afterText, if_neg hpre, if_neg (mt hside.1 hpre), ih]

end Patterns

/-! ## Integers -/

/-- The characters that `isspace` knows. -/
def isSpace (c : Char) : Bool := c ∈ [' ', '\t', '\n', '\x0b', '\x0c', '\r']

/-- An integer as a stream prints it. -/
def decimal (i : Int) : Text :=
  if i < 0 then '-' :: Nat.toDigits 10 i.natAbs else Nat.toDigits 10 i.natAbs

/-- The digits a text begins with, as a number. -/
def readDigits (s : Text) : Option Nat :=
  if s.takeWhile Char.isDigit = [] then none
  else some (Nat.ofDigitChars 10 (s.takeWhile Char.isDigit) 0)

/-- The integer a text begins with, before any bound is put on it: blanks and a sign in front are
taken, and whatever follows is left. -/
def readInteger (s : Text) : Option Int :=
  match s.dropWhile isSpace with
  | '-' :: rest => (readDigits rest).map fun n => -Int.ofNat n
  | '+' :: rest => (readDigits rest).map Int.ofNat
  | rest => (readDigits rest).map Int.ofNat

theorem isSpace_of_isDigit {c : Char} (h : c.isDigit = true) : isSpace c = false := by
  have hblanks : ∀ x ∈ [' ', '\t', '\n', '\x0b', '\x0c', '\r'], Char.isDigit x = false := by
    intro x hx
    simp only [List.mem_cons, List.not_mem_nil, or_false] at hx
    rcases hx with rfl | rfl | rfl | rfl | rfl | rfl <;> rfl
  refine decide_eq_false fun hmem => ?_
  rw [hblanks c hmem] at h
  cases h

theorem readDigits_append (n : Nat) {rest : Text} (hrest : ∀ c ∈ rest.head?, c.isDigit = false) :
    readDigits (Nat.toDigits 10 n ++ rest) = some n := by
  have hall : ∀ c ∈ Nat.toDigits 10 n, Char.isDigit c = true := fun c hc =>
    Nat.isDigit_of_mem_toDigits (by decide) (le_refl 10) hc
  have hstop : rest.takeWhile Char.isDigit = [] := by
    cases rest with
    | nil => rfl
    | cons c rest => exact List.takeWhile_cons_of_neg (by rw [hrest c rfl]; decide)
  have hdigits : (Nat.toDigits 10 n ++ rest).takeWhile Char.isDigit = Nat.toDigits 10 n := by
    rw [List.takeWhile_append_of_pos hall, hstop, List.append_nil]
  rw [readDigits, hdigits, if_neg Nat.toDigits_ne_nil, Nat.ofDigitChars_ten_toDigits]

theorem isDigit_of_mem_decimal {i : Int} {c : Char} (hc : c ∈ decimal i) :
    c = '-' ∨ c.isDigit = true := by
  unfold decimal at hc
  by_cases hi : i < 0
  · rw [if_pos hi] at hc
    rcases List.mem_cons.1 hc with heq | hmem
    · exact Or.inl heq
    · exact Or.inr (Nat.isDigit_of_mem_toDigits (by decide) (le_refl 10) hmem)
  · rw [if_neg hi] at hc
    exact Or.inr (Nat.isDigit_of_mem_toDigits (by decide) (le_refl 10) hc)

/-- **An integer that was printed is read back**, whatever follows that is no digit. -/
theorem readInteger_decimal (i : Int) {rest : Text} (hrest : ∀ c ∈ rest.head?, c.isDigit = false) :
    readInteger (decimal i ++ rest) = some i := by
  have hread := readDigits_append i.natAbs hrest
  unfold decimal
  by_cases hi : i < 0
  · rw [if_pos hi, List.cons_append]
    unfold readInteger
    rw [List.dropWhile_cons_of_neg (by decide)]
    show (readDigits (Nat.toDigits 10 i.natAbs ++ rest)).map _ = some i
    rw [hread, Option.map_some]
    exact congrArg some (by rw [Int.ofNat_eq_natCast]; omega)
  · rw [if_neg hi]
    obtain ⟨d, ds, hds⟩ := List.exists_cons_of_ne_nil (@Nat.toDigits_ne_nil i.natAbs 10)
    have hd : Char.isDigit d = true :=
      Nat.isDigit_of_mem_toDigits (by decide) (le_refl 10) (hds ▸ List.mem_cons_self)
    have hminus : d ≠ '-' := fun heq => absurd hd (by rw [heq]; decide)
    have hplus : d ≠ '+' := fun heq => absurd hd (by rw [heq]; decide)
    rw [hds] at hread ⊢
    unfold readInteger
    rw [List.cons_append, List.dropWhile_cons_of_neg (by rw [isSpace_of_isDigit hd]; decide)]
    split
    · next heq => exact absurd (List.cons.inj heq).1 hminus
    · next heq => exact absurd (List.cons.inj heq).1 hplus
    · rw [← List.cons_append, hread, Option.map_some]
      exact congrArg some (by rw [Int.ofNat_eq_natCast]; omega)

end Text
