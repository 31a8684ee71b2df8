import NaiveRtc.Lib.Keyed

/-!
# Lists with stable iterators

A doubly linked list whose iterators outlive changes elsewhere in the list.  An iterator is the
number of the node it points to; a number is never given twice.

* `StableList` — the nodes in order, with the first number that is not in use.
* `find?` — what an iterator points to, which is nothing once the node is erased.
* `pushBack`, `modify`, `erase`, `popFront` — the changes, and which nodes there are after them.
-/

/-- A linked list: numbered nodes in order. -/
structure StableList (α : Type*) where
  nodes : List (Nat × α)
  nextNode : Nat
  fresh : ∀ node ∈ nodes, node.1 < nextNode
  nodup : (nodes.map Prod.fst).Nodup

namespace StableList

variable {α : Type*} {l : StableList α} {it it' : Nat} {a b : α}

/-- The list without nodes. -/
def empty : StableList α := ⟨[], 0, by simp, List.nodup_nil⟩

/-- The values in order. -/
def values (l : StableList α) : List α := l.nodes.map Prod.snd

/-- The number of nodes. -/
def size (l : StableList α) : Nat := l.nodes.length

/-- The value an iterator points to. -/
def find? (l : StableList α) (it : Nat) : Option α :=
  (l.nodes.find? fun node => decide (node.1 = it)).map Prod.snd

/-- The first value. -/
def front? (l : StableList α) : Option α := l.nodes.head?.map Prod.snd

/-- Append a node; the iterator to it is the number that was not in use. -/
def pushBack (l : StableList α) (a : α) : StableList α where
  nodes := l.nodes ++ [(l.nextNode, a)]
  nextNode := l.nextNode + 1
  fresh := by
    intro node hnode
    rcases List.mem_append.1 hnode with hnode | hnode
    · exact Nat.lt_succ_of_lt (l.fresh node hnode)
    · rw [List.mem_singleton.1 hnode]
      exact Nat.lt_succ_self _
  nodup := by
    rw [List.map_append]
    refine List.nodup_append.2 ⟨l.nodup, List.nodup_singleton _, fun it hit it' hit' heq => ?_⟩
    obtain ⟨node, hnode, rfl⟩ := List.mem_map.1 hit
    rw [List.mem_singleton.1 hit'] at heq
    exact absurd heq (Nat.ne_of_lt (l.fresh node hnode))

/-- Change the value an iterator points to. -/
def modify (l : StableList α) (it : Nat) (f : α → α) : StableList α where
  nodes := l.nodes.map fun node => if node.1 = it then (node.1, f node.2) else node
  nextNode := l.nextNode
  fresh := by
    intro changed hchanged
    obtain ⟨node, hnode, rfl⟩ := List.mem_map.1 hchanged
    have hlt := l.fresh node hnode
    split <;> exact hlt
  nodup := by
    have hkeys : (Prod.fst ∘ fun node : Nat × α => if node.1 = it then (node.1, f node.2) else node)
        = Prod.fst := by
      funext node
      by_cases hit : node.1 = it <;> simp [hit]
    rw [List.map_map, hkeys]
    exact l.nodup

/-- Erase the node an iterator points to. -/
def erase (l : StableList α) (it : Nat) : StableList α where
  nodes := l.nodes.filter fun node => decide (node.1 ≠ it)
  nextNode := l.nextNode
  fresh node hnode := l.fresh node (List.mem_of_mem_filter hnode)
  nodup := l.nodup.sublist (List.filter_sublist.map _)

/-- Erase the first node. -/
def popFront (l : StableList α) : StableList α where
  nodes := l.nodes.tail
  nextNode := l.nextNode
  fresh node hnode := l.fresh node (List.mem_of_mem_tail hnode)
  nodup := l.nodup.sublist ((List.tail_sublist _).map _)

/-! ## Nodes -/

theorem find?_eq_some_iff : l.find? it = some a ↔ (it, a) ∈ l.nodes := by
  unfold find?
  rw [Option.map_eq_some_iff]
  constructor
  · rintro ⟨node, hfind, rfl⟩
    obtain ⟨hmem, hit⟩ := (Keyed.find?_key_iff l.nodup).1 hfind
    rw [← hit]
    exact hmem
  · exact fun hmem => ⟨(it, a), (Keyed.find?_key_iff l.nodup).2 ⟨hmem, rfl⟩, rfl⟩

theorem value_unique (h : (it, a) ∈ l.nodes) (h' : (it, b) ∈ l.nodes) : a = b := by
  have hsome := find?_eq_some_iff.2 h
  rw [find?_eq_some_iff.2 h'] at hsome
  exact (Option.some.inj hsome).symm

theorem mem_values_iff : a ∈ l.values ↔ ∃ it, (it, a) ∈ l.nodes := by
  unfold values
  rw [List.mem_map]
  constructor
  · rintro ⟨node, hmem, rfl⟩
    exact ⟨node.1, hmem⟩
  · rintro ⟨it, hmem⟩
    exact ⟨(it, a), hmem, rfl⟩

@[simp] theorem length_values : l.values.length = l.size := List.length_map _

/-! ## Changes -/

theorem mem_pushBack : (it, b) ∈ (l.pushBack a).nodes ↔
    (it, b) ∈ l.nodes ∨ it = l.nextNode ∧ b = a := by
  unfold pushBack
  rw [List.mem_append, List.mem_singleton, Prod.mk.injEq]

@[simp] theorem values_pushBack : (l.pushBack a).values = l.values ++ [a] :=
  List.map_append

@[simp] theorem size_pushBack : (l.pushBack a).size = l.size + 1 := List.length_append

theorem mem_modify {f : α → α} : (it', b) ∈ (l.modify it f).nodes ↔
    (it' ≠ it ∧ (it', b) ∈ l.nodes) ∨ it' = it ∧ ∃ a, (it, a) ∈ l.nodes ∧ f a = b := by
  unfold modify
  rw [List.mem_map]
  constructor
  · rintro ⟨node, hmem, heq⟩
    by_cases hit : node.1 = it
    · rw [if_pos hit] at heq
      obtain ⟨rfl, rfl⟩ := Prod.mk.inj heq
      exact Or.inr ⟨hit, node.2, hit ▸ hmem, rfl⟩
    · rw [if_neg hit] at heq
      subst heq
      exact Or.inl ⟨hit, hmem⟩
  · rintro (⟨hit, hmem⟩ | ⟨rfl, a, hmem, rfl⟩)
    · exact ⟨(it', b), hmem, if_neg hit⟩
    · exact ⟨(it', a), hmem, if_pos rfl⟩

@[simp] theorem size_modify {f : α → α} : (l.modify it f).size = l.size := List.length_map _

/-- What a change keeps of the values is the same in the same order. -/
theorem map_values_modify {β : Type*} {f : α → α} {g : α → β} (h : ∀ a, g (f a) = g a) :
    (l.modify it f).values.map g = l.values.map g := by
  unfold modify values
  rw [List.map_map, List.map_map, List.map_map]
  refine List.map_congr_left fun node _ => ?_
  show g (if node.1 = it then (node.1, f node.2) else node).2 = g node.2
  split
  · exact h node.2
  · rfl

theorem mem_erase : (it', b) ∈ (l.erase it).nodes ↔ (it', b) ∈ l.nodes ∧ it' ≠ it := by
  unfold erase
  rw [List.mem_filter, decide_eq_true_iff]

theorem values_erase_sublist : (l.erase it).values.Sublist l.values :=
  List.filter_sublist.map _

/-- Nothing is in front of an empty list; otherwise the first node is erased. -/
theorem popFront_cases : (l.front? = none ∧ l.nodes = []) ∨
    ∃ it a, l.front? = some a ∧ l.nodes = (it, a) :: l.popFront.nodes ∧
      ∀ b, (it, b) ∉ l.popFront.nodes := by
  cases hnodes : l.nodes with
  | nil => exact Or.inl ⟨by rw [front?, hnodes]; rfl, rfl⟩
  | cons node nodes =>
    have htail : l.popFront.nodes = nodes := congrArg List.tail hnodes
    refine Or.inr ⟨node.1, node.2, by rw [front?, hnodes]; rfl, by rw [htail], fun b hmem => ?_⟩
    have hnodup := l.nodup
    rw [hnodes, List.map_cons, List.nodup_cons] at hnodup
    rw [htail] at hmem
    exact hnodup.1 (List.mem_map.2 ⟨(node.1, b), hmem, rfl⟩)

end StableList
