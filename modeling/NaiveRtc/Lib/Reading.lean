import Mathlib.Data.List.Range
import Mathlib.Data.Vector.Basic

/-!
# Programs that read a memory

A program over a byte memory is a tree: it ends with a result, or reads an address and goes on
with the byte it found there.  The memory is not an argument of the program, so that a run
depends on the bytes it reads and on nothing else.

* `Reading` — the programs, a monad; `value` and `reads` are the result of a run and the
  addresses it reads.
* `byte`, `bytes`, `collect` — one byte, consecutive bytes, one program after the other.
* `Safe` — a run reads inside an interval and its result meets a condition; `safe_bind` and its
  companions are the rules by which a program is taken apart.
-/

/-- A program that reads bytes and ends with a result. -/
inductive Reading (α : Type) : Type where
  | done (result : α)
  | read (address : Nat) (next : UInt8 → Reading α)

namespace Reading

variable {α β : Type}

/-- The result of a run over a memory. -/
def value (mem : Nat → UInt8) : Reading α → α
  | done result => result
  | read address next => value mem (next (mem address))

/-- The addresses a run over a memory reads, in order. -/
def reads (mem : Nat → UInt8) : Reading α → List Nat
  | done _ => []
  | read address next => address :: reads mem (next (mem address))

/-- One program, and then another that is told the result. -/
def andThen : Reading α → (α → Reading β) → Reading β
  | done result, f => f result
  | read address next, f => read address fun found => andThen (next found) f

instance : Monad Reading where
  pure := done
  bind := andThen

/-- The byte at an address. -/
def byte (address : Nat) : Reading UInt8 := read address done

/-- `count` bytes from an address on. -/
def bytes (address : Nat) : (count : Nat) → Reading (List.Vector UInt8 count)
  | 0 => pure List.Vector.nil
  | count + 1 => do
    let first ← byte address
    let rest ← bytes (address + 1) count
    pure (first ::ᵥ rest)

/-- The programs `f 0`, …, `f (count - 1)`, one after the other. -/
def collect (f : Nat → Reading α) : (count : Nat) → Reading (List.Vector α count)
  | 0 => pure List.Vector.nil
  | count + 1 => do
    let first ← f 0
    let rest ← collect (fun i => f (i + 1)) count
    pure (first ::ᵥ rest)

/-! ## Results -/

variable {mem : Nat → UInt8}

@[simp] theorem value_pure (a : α) : (pure a : Reading α).value mem = a := rfl

@[simp] theorem value_byte (address : Nat) : (byte address).value mem = mem address := by
  rw [byte, value, value]

@[simp] theorem value_bind (x : Reading α) (f : α → Reading β) :
    (x >>= f).value mem = (f (x.value mem)).value mem := by
  induction x with
  | done result => rfl
  | read address next ih => exact ih (mem address)

theorem value_ite {c : Prop} [Decidable c] (x y : Reading α) :
    (if c then x else y).value mem = if c then x.value mem else y.value mem := by
  by_cases h : c
  · rw [if_pos h, if_pos h]
  · rw [if_neg h, if_neg h]

theorem value_bytes (address count : Nat) :
    ((bytes address count).value mem).toList =
      (List.range count).map fun i => mem (address + i) := by
  induction count generalizing address with
  | zero => rfl
  | succ count ih =>
    rw [bytes, value_bind, value_bind, value_pure, value_byte, List.Vector.toList_cons, ih,
      List.range_succ_eq_map, List.map_cons, List.map_map, Nat.add_zero]
    refine congrArg (mem address :: ·) (List.map_congr_left fun i _ => ?_)
    exact congrArg mem (by rw [Nat.succ_eq_add_one]; omega)

theorem value_collect (f : Nat → Reading α) (count : Nat) :
    ((collect f count).value mem).toList = (List.range count).map fun i => (f i).value mem := by
  induction count generalizing f with
  | zero => rfl
  | succ count ih =>
    rw [collect, value_bind, value_bind, value_pure, List.Vector.toList_cons, ih,
      List.range_succ_eq_map, List.map_cons, List.map_map]
    rfl

/-! ## Reads -/

@[simp] theorem reads_pure (a : α) : (pure a : Reading α).reads mem = [] := rfl

@[simp] theorem reads_byte (address : Nat) : (byte address).reads mem = [address] := rfl

@[simp] theorem reads_bind (x : Reading α) (f : α → Reading β) :
    (x >>= f).reads mem = x.reads mem ++ (f (x.value mem)).reads mem := by
  induction x with
  | done result => rfl
  | read address next ih => exact congrArg (address :: ·) (ih (mem address))

theorem reads_bytes (address count : Nat) :
    (bytes address count).reads mem = (List.range count).map (address + ·) := by
  induction count generalizing address with
  | zero => rfl
  | succ count ih =>
    rw [bytes, reads_bind, reads_bind, reads_byte, reads_pure, List.append_nil, ih,
      List.range_succ_eq_map, List.map_cons, List.map_map, List.singleton_append, Nat.add_zero]
    refine congrArg (address :: ·) (List.map_congr_left fun i _ => ?_)
    show address + 1 + i = address + (i + 1)
    omega

theorem reads_collect (f : Nat → Reading α) (count : Nat) :
    (collect f count).reads mem = (List.range count).flatMap fun i => (f i).reads mem := by
  induction count generalizing f with
  | zero => rfl
  | succ count ih =>
    rw [collect, reads_bind, reads_bind, reads_pure, List.append_nil, ih, List.range_succ_eq_map,
      List.flatMap_cons, List.flatMap_map]

/-! ## Where a run reads -/

/-- Every address read is at `low` or above and below `high`, and the result meets the
condition. -/
def Safe (mem : Nat → UInt8) (low high : Nat) : Reading α → (α → Prop) → Prop
  | done result, post => post result
  | read address next, post =>
    (low ≤ address ∧ address < high) ∧ Safe mem low high (next (mem address)) post

variable {low high : Nat} {post : α → Prop} {x : Reading α}

theorem safe_iff : x.Safe mem low high post ↔
    (∀ address ∈ x.reads mem, low ≤ address ∧ address < high) ∧ post (x.value mem) := by
  induction x with
  | done result => simp [Safe, reads, value]
  | read address next ih =>
    rw [Safe, reads, value, ih (mem address), List.forall_mem_cons]
    exact and_assoc.symm

theorem safe_pure {a : α} : (pure a : Reading α).Safe mem low high post ↔ post a := Iff.rfl

theorem safe_byte {address : Nat} {post : UInt8 → Prop} :
    (byte address).Safe mem low high post ↔
      (low ≤ address ∧ address < high) ∧ post (mem address) := Iff.rfl

theorem safe_bind {f : α → Reading β} {post : β → Prop} :
    (x >>= f).Safe mem low high post ↔
      x.Safe mem low high fun a => (f a).Safe mem low high post := by
  induction x with
  | done result => exact Iff.rfl
  | read address next ih => exact and_congr_right fun _ => ih (mem address)

theorem safe_ite {c : Prop} [Decidable c] {x y : Reading α} :
    (if c then x else y).Safe mem low high post ↔
      (c → x.Safe mem low high post) ∧ (¬ c → y.Safe mem low high post) := by
  by_cases h : c
  · simp [h]
  · simp [h]

theorem Safe.imp {post' : α → Prop} (h : x.Safe mem low high post)
    (himp : ∀ a, post a → post' a) : x.Safe mem low high post' :=
  safe_iff.2 ⟨(safe_iff.1 h).1, himp _ (safe_iff.1 h).2⟩

/-- What is read in an interval is read in a larger one. -/
theorem Safe.mono {low' high' : Nat} (h : x.Safe mem low high post)
    (hlow : low' ≤ low) (hhigh : high ≤ high') : x.Safe mem low' high' post := by
  obtain ⟨hreads, hpost⟩ := safe_iff.1 h
  refine safe_iff.2 ⟨fun address haddress => ?_, hpost⟩
  obtain ⟨habove, hbelow⟩ := hreads address haddress
  exact ⟨le_trans hlow habove, lt_of_lt_of_le hbelow hhigh⟩

/-- A result is known by the bytes it was made of. -/
theorem safe_value :
    x.Safe mem low high post ↔ x.Safe mem low high fun a => a = x.value mem ∧ post a := by
  rw [safe_iff, safe_iff]
  simp

theorem safe_bytes {address count : Nat} {post : List.Vector UInt8 count → Prop} :
    (bytes address count).Safe mem low high post ↔
      (∀ i < count, low ≤ address + i ∧ address + i < high) ∧
        post ((bytes address count).value mem) := by
  rw [safe_iff, reads_bytes]
  simp

theorem safe_collect {f : Nat → Reading α} {count : Nat} {post : List.Vector α count → Prop}
    (hstep : ∀ i < count, (f i).Safe mem low high fun _ => True)
    (hpost : post ((collect f count).value mem)) : (collect f count).Safe mem low high post := by
  refine safe_iff.2 ⟨fun address haddress => ?_, hpost⟩
  rw [reads_collect] at haddress
  obtain ⟨i, hi, haddress⟩ := List.mem_flatMap.1 haddress
  exact (safe_iff.1 (hstep i (List.mem_range.1 hi))).1 address haddress

end Reading
