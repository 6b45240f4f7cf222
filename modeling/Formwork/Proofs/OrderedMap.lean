import Mathlib.Logic.Basic
import Formwork.OrderedMap

/-!
# Laws of ordered maps

A map is determined by its list of entries.  Storing a value is seen by looking its key up and
by nothing else; storing under a key twice is storing once; a key that is erased might as well
not have been stored before.
-/

namespace Formwork.OrderedMap

set_option autoImplicit false

variable {κ α : Type}

@[ext]
theorem ext {m n : OrderedMap κ α} (h : m.toList = n.toList) : m = n := by
  cases m
  cases n
  cases h
  rfl

variable [DecidableEq κ]

/-! ## Looking up -/

theorem find?_put (k x : κ) (v : α) : ∀ es : List (κ × α),
    find? x (put k v es) = if k = x then some v else find? x es
  | [] => rfl
  | e :: es => by
    by_cases same : e.1 = k
    · rw [put, if_pos same]
      by_cases asked : k = x
      · simp only [find?, if_pos asked]
      · simp only [find?, if_neg asked]
        rw [if_neg (by rw [same]; exact asked)]
    · rw [put, if_neg same, find?, find?, find?_put k x v es]
      by_cases asked : e.1 = x
      · rw [if_pos asked, if_pos asked, if_neg fun h => same (by rw [asked, h])]
      · rw [if_neg asked, if_neg asked]

@[simp]
theorem get?_empty (k : κ) : (empty : OrderedMap κ α).get? k = none := rfl

theorem get?_insert (m : OrderedMap κ α) (k x : κ) (v : α) :
    (m.insert k v).get? x = if k = x then some v else m.get? x := find?_put k x v m.toList

@[simp]
theorem get?_insert_self (m : OrderedMap κ α) (k : κ) (v : α) :
    (m.insert k v).get? k = some v := by rw [get?_insert, if_pos rfl]

theorem get?_insert_of_ne (m : OrderedMap κ α) {k x : κ} (v : α) (h : k ≠ x) :
    (m.insert k v).get? x = m.get? x := by rw [get?_insert, if_neg h]

theorem find?_eq_none {x : κ} : ∀ {es : List (κ × α)}, find? x es = none ↔ x ∉ es.map Prod.fst
  | [] => by simp [find?]
  | e :: es => by
    by_cases same : e.1 = x
    · simp [find?, same]
    · rw [find?, if_neg same, find?_eq_none, List.map_cons, List.mem_cons, not_or]
      exact ⟨fun h => ⟨fun h' => same h'.symm, h⟩, fun h => h.2⟩

theorem get?_eq_none {m : OrderedMap κ α} {k : κ} : m.get? k = none ↔ k ∉ m.keys := find?_eq_none

theorem mem_of_find? {x : κ} {v : α} : ∀ {es : List (κ × α)}, find? x es = some v → (x, v) ∈ es
  | [], h => by cases h
  | e :: es, h => by
    by_cases same : e.1 = x
    · rw [find?, if_pos same] at h
      cases h
      rw [← same]
      exact List.mem_cons_self
    · rw [find?, if_neg same] at h
      exact List.mem_cons_of_mem _ (mem_of_find? h)

theorem mem_of_get? {m : OrderedMap κ α} {k : κ} {v : α} (h : m.get? k = some v) :
    (k, v) ∈ m.toList := mem_of_find? h

theorem find?_of_mem {x : κ} {v : α} : ∀ {es : List (κ × α)}, (es.map Prod.fst).Nodup →
    (x, v) ∈ es → find? x es = some v
  | [], _, h => by cases h
  | e :: es, distinct, h => by
    rw [List.map_cons, List.nodup_cons] at distinct
    rcases List.mem_cons.1 h with here | there
    · rw [find?, if_pos (by rw [← here]), ← here]
    · have other : e.1 ≠ x := by
        intro same
        exact distinct.1 (same ▸ List.mem_map_of_mem there)
      rw [find?, if_neg other]
      exact find?_of_mem distinct.2 there

theorem get?_eq_some {m : OrderedMap κ α} {k : κ} {v : α} :
    m.get? k = some v ↔ (k, v) ∈ m.toList := ⟨mem_of_get?, find?_of_mem m.distinct⟩

/-! ## Storing and erasing -/

theorem put_put (k : κ) (v w : α) : ∀ es : List (κ × α), put k w (put k v es) = put k w es
  | [] => by rw [put, put, put, if_pos rfl]
  | e :: es => by
    by_cases same : e.1 = k
    · rw [put, if_pos same, put, put, if_pos rfl, if_pos same]
    · rw [put, if_neg same, put, put, if_neg same, if_neg same, put_put k v w es]

@[simp]
theorem insert_insert (m : OrderedMap κ α) (k : κ) (v w : α) :
    (m.insert k v).insert k w = m.insert k w := ext (put_put k v w m.toList)

theorem put_of_not_mem {k : κ} (v : α) : ∀ {es : List (κ × α)}, k ∉ es.map Prod.fst →
    put k v es = es ++ [(k, v)]
  | [], _ => rfl
  | e :: es, absent => by
    rw [List.map_cons, List.mem_cons, not_or] at absent
    rw [put, if_neg (Ne.symm absent.1), put_of_not_mem v absent.2, List.cons_append]

/-- A new key goes to the end. -/
theorem toList_insert_of_not_mem {m : OrderedMap κ α} {k : κ} (absent : k ∉ m.keys) (v : α) :
    (m.insert k v).toList = m.toList ++ [(k, v)] := put_of_not_mem v absent

theorem filter_put (k : κ) (v : α) : ∀ es : List (κ × α),
    (put k v es).filter (fun e => e.1 ≠ k) = es.filter fun e => e.1 ≠ k
  | [] => by simp [put]
  | e :: es => by
    by_cases same : e.1 = k
    · rw [put, if_pos same, List.filter_cons_of_neg (by simp),
        List.filter_cons_of_neg (by simpa using same)]
    · rw [put, if_neg same, List.filter_cons_of_pos (by simpa using same),
        List.filter_cons_of_pos (by simpa using same), filter_put k v es]

theorem find?_filter (k x : κ) : ∀ es : List (κ × α),
    find? x (es.filter fun e => e.1 ≠ k) = if k = x then none else find? x es
  | [] => by simp [find?]
  | e :: es => by
    by_cases same : e.1 = k
    · rw [List.filter_cons_of_neg (by simpa using same), find?_filter k x es, find?]
      by_cases asked : k = x
      · rw [if_pos asked, if_pos asked]
      · rw [if_neg asked, if_neg asked, if_neg fun h => asked (same.symm.trans h)]
    · rw [List.filter_cons_of_pos (by simpa using same), find?, find?, find?_filter k x es]
      by_cases asked : e.1 = x
      · rw [if_pos asked, if_pos asked, if_neg fun h => same (asked.trans h.symm)]
      · rw [if_neg asked, if_neg asked]

theorem get?_erase (m : OrderedMap κ α) (k x : κ) :
    (m.erase k).get? x = if k = x then none else m.get? x := find?_filter k x m.toList

@[simp]
theorem erase_insert (m : OrderedMap κ α) (k : κ) (v : α) :
    (m.insert k v).erase k = m.erase k := ext (filter_put k v m.toList)

@[simp]
theorem erase_erase (m : OrderedMap κ α) (k : κ) : (m.erase k).erase k = m.erase k := by
  have twice : (m.toList.filter fun e => decide (e.1 ≠ k)).filter (fun e => decide (e.1 ≠ k)) =
      m.toList.filter fun e => decide (e.1 ≠ k) := by
    rw [List.filter_filter]
    simp only [Bool.and_self]
  exact ext twice

/-! ## Collecting entries -/

/-- Collecting entries keeps all of their keys. -/
theorem mem_keys_foldl_insert (es : List (κ × α)) (m : OrderedMap κ α) {k : κ} :
    k ∈ (es.foldl (fun m e => m.insert e.1 e.2) m).keys ↔ k ∈ es.map Prod.fst ∨ k ∈ m.keys := by
  induction es generalizing m with
  | nil => simp
  | cons e es ih =>
    have put : k ∈ (m.insert e.1 e.2).keys ↔ k = e.1 ∨ k ∈ m.keys := mem_keys_put
    rw [List.foldl_cons, ih, put, List.map_cons, List.mem_cons]
    grind

theorem isSome_get?_iff {m : OrderedMap κ α} {k : κ} : (m.get? k).isSome ↔ k ∈ m.keys := by
  rw [← not_iff_not, Bool.not_eq_true, Option.isSome_eq_false_iff, Option.isNone_iff_eq_none]
  exact get?_eq_none

theorem get?_foldl_insert_of_not_mem {k : κ} : ∀ {es : List (κ × α)} (m : OrderedMap κ α),
    k ∉ es.map Prod.fst → (es.foldl (fun m e => m.insert e.1 e.2) m).get? k = m.get? k
  | [], _, _ => rfl
  | e :: es, m, absent => by
    rw [List.map_cons, List.mem_cons, not_or] at absent
    rw [List.foldl_cons, get?_foldl_insert_of_not_mem _ absent.2,
      get?_insert_of_ne _ _ (Ne.symm absent.1)]

/-- Entries with different keys are all found. -/
theorem get?_foldl_insert_of_mem {k : κ} {v : α} : ∀ {es : List (κ × α)} (m : OrderedMap κ α),
    (es.map Prod.fst).Nodup → (k, v) ∈ es →
      (es.foldl (fun m e => m.insert e.1 e.2) m).get? k = some v
  | e :: es, m, distinct, mem => by
    rw [List.map_cons, List.nodup_cons] at distinct
    rw [List.foldl_cons]
    rcases List.mem_cons.1 mem with rfl | later
    · rw [get?_foldl_insert_of_not_mem _ distinct.1, get?_insert_self]
    · exact get?_foldl_insert_of_mem _ distinct.2 later

theorem get?_foldl_insert {k : κ} : ∀ (es : List (κ × α)) (m : OrderedMap κ α),
    (es.foldl (fun m e => m.insert e.1 e.2) m).get? k =
      ((es.filter fun e => e.1 = k).getLast?.map Prod.snd).or (m.get? k)
  | [], _ => rfl
  | e :: es, m => by
    rw [List.foldl_cons, get?_foldl_insert es, get?_insert]
    by_cases same : e.1 = k
    · rw [if_pos same, List.filter_cons_of_pos (by simpa using same), List.getLast?_cons]
      cases (es.filter fun e => e.1 = k).getLast? <;> rfl
    · rw [if_neg same, List.filter_cons_of_neg (by simpa using same)]

/-- The last value of a key counts. -/
theorem get?_ofList (es : List (κ × α)) (k : κ) :
    (ofList es).get? k = (es.filter fun e => e.1 = k).getLast?.map Prod.snd := by
  rw [ofList, get?_foldl_insert, get?_empty, Option.or_none]

/-- Entries with new and distinct keys are added behind the others. -/
theorem toList_foldl_insert {es : List (κ × α)} {m : OrderedMap κ α}
    (distinct : (m.keys ++ es.map Prod.fst).Nodup) :
    (es.foldl (fun m e => m.insert e.1 e.2) m).toList = m.toList ++ es := by
  induction es generalizing m with
  | nil => exact (List.append_nil _).symm
  | cons e es ih =>
    have absent : e.1 ∉ m.keys := fun mem =>
      (List.nodup_append.1 distinct).2.2 _ mem _ List.mem_cons_self rfl
    have added := toList_insert_of_not_mem absent e.2
    rw [List.foldl_cons, ih]
    · rw [added, List.append_assoc]
      rfl
    · rw [keys, added, List.map_append, List.append_assoc]
      exact distinct

/-- **The entries of a map** collect to the map. -/
theorem ofList_toList (m : OrderedMap κ α) : ofList m.toList = m := by
  refine ext ((toList_foldl_insert ?_).trans (List.nil_append _))
  exact m.distinct

section Values

variable {β : Type} (g : α → β)

theorem find?_map (k : κ) : ∀ es : List (κ × α),
    find? k (es.map (Prod.map id g)) = (find? k es).map g
  | [] => rfl
  | e :: es => by
    by_cases same : e.1 = k
    · simp [find?, same]
    · simp [find?, same, find?_map k es]

theorem put_map (k : κ) (v : α) : ∀ es : List (κ × α),
    put k (g v) (es.map (Prod.map id g)) = (put k v es).map (Prod.map id g)
  | [] => rfl
  | e :: es => by
    by_cases same : e.1 = k
    · simp [put, same]
    · simp [put, same, put_map k v es]

end Values

end Formwork.OrderedMap
