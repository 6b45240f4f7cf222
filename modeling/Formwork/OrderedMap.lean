/-!
# Maps that remember the order of insertion

Attributes, name indexes and template stores are all listed to a reader in the
order in which their keys first appeared, while a later value for a key replaces
the earlier one in place.  This module builds that container: a list of entries
whose keys are pairwise distinct.  The distinctness travels with the value, so
no operation has to assume it.

`get?` is the view of a map as a partial function, `toList` its view as a list.
Two maps agree (`sameEntries`) when they hold the same entries in any order.
-/

namespace Formwork

set_option autoImplicit false

/-- A finite map whose entries stay in the order their keys were first inserted. -/
structure OrderedMap (κ α : Type) where
  /-- The entries, oldest key first. -/
  toList : List (κ × α)
  /-- No key occurs twice. -/
  distinct : (toList.map Prod.fst).Nodup

namespace OrderedMap

variable {κ α : Type}

/-! ## Looking up -/

/-- The map without entries. -/
def empty : OrderedMap κ α := ⟨[], List.nodup_nil⟩

instance : Inhabited (OrderedMap κ α) := ⟨empty⟩

instance : EmptyCollection (OrderedMap κ α) := ⟨empty⟩

/-- The keys, oldest first. -/
def keys (m : OrderedMap κ α) : List κ := m.toList.map Prod.fst

/-- The values, in the order of their keys. -/
def values (m : OrderedMap κ α) : List α := m.toList.map Prod.snd

/-- How many keys the map holds. -/
def size (m : OrderedMap κ α) : Nat := m.toList.length

/-- Whether the map holds no key. -/
def isEmpty (m : OrderedMap κ α) : Bool := m.toList.isEmpty

variable [DecidableEq κ]

/-- The value of the first entry for a key. -/
def find? (k : κ) : List (κ × α) → Option α
  | [] => none
  | e :: es => if e.1 = k then some e.2 else find? k es

/-- The value stored under a key. -/
def get? (m : OrderedMap κ α) (k : κ) : Option α := find? k m.toList

/-- Whether a key has a value. -/
def contains (m : OrderedMap κ α) (k : κ) : Bool := (m.get? k).isSome

/-! ## Changing -/

/-- Replace the value of a listed key, or add the key at the end. -/
def put (k : κ) (v : α) : List (κ × α) → List (κ × α)
  | [] => [(k, v)]
  | e :: es => if e.1 = k then (k, v) :: es else e :: put k v es

omit [DecidableEq κ] in
/-- Leaving entries out keeps the keys distinct. -/
theorem nodup_keys_filter {es : List (κ × α)} (p : κ × α → Bool)
    (h : (es.map Prod.fst).Nodup) : ((es.filter p).map Prod.fst).Nodup :=
  h.sublist (List.filter_sublist.map Prod.fst)

/-- Putting a key adds at most that key. -/
theorem mem_keys_put {k x : κ} {v : α} {es : List (κ × α)} :
    x ∈ (put k v es).map Prod.fst ↔ x = k ∨ x ∈ es.map Prod.fst := by
  induction es with
  | nil => simp [put]
  | cons e es ih =>
    by_cases h : e.1 = k
    · simp [put, h]
    · simp only [put, h, if_false, List.map_cons, List.mem_cons, ih]
      grind

/-- Putting a key keeps the keys distinct. -/
theorem nodup_keys_put {k : κ} {v : α} {es : List (κ × α)}
    (h : (es.map Prod.fst).Nodup) : ((put k v es).map Prod.fst).Nodup := by
  induction es with
  | nil => simp [put]
  | cons e es ih =>
    simp only [List.map_cons, List.nodup_cons] at h
    by_cases hk : e.1 = k
    · subst hk
      simpa only [put, if_true, List.map_cons, List.nodup_cons] using h
    · simp only [put, hk, if_false, List.map_cons, List.nodup_cons]
      refine ⟨fun hm => ?_, ih h.2⟩
      rcases mem_keys_put.1 hm with hm | hm
      · exact hk hm
      · exact h.1 hm

/-- Store a value: a listed key keeps its place, a new key goes to the end. -/
def insert (m : OrderedMap κ α) (k : κ) (v : α) : OrderedMap κ α :=
  ⟨put k v m.toList, nodup_keys_put m.distinct⟩

/-- Forget a key; the others keep their order. -/
def erase (m : OrderedMap κ α) (k : κ) : OrderedMap κ α :=
  ⟨m.toList.filter fun e => e.1 ≠ k, nodup_keys_filter _ m.distinct⟩

/-- Collect entries in order: the first place and the last value of a key count. -/
def ofList (es : List (κ × α)) : OrderedMap κ α :=
  es.foldl (fun m e => m.insert e.1 e.2) empty

/-- Whether two maps hold the same entries, in any order. -/
def sameEntries [DecidableEq α] (m n : OrderedMap κ α) : Bool :=
  m.size == n.size && m.toList.all fun e => n.get? e.1 = some e.2

end OrderedMap

end Formwork
