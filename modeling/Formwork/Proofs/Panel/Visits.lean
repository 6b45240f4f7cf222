import Formwork.Proofs.Panel.Ancestry

/-!
# What a walk over fields visits

Where no field lies above itself, a walk from a field visits the field and those that it lies above, each of them
once, and below a field it visits what the field lists, content in front (`FieldTable.Visits`).  This is what the
walks over a panel whose fields form a hierarchy come to (`FieldTable.Booked.visits_subtree`).
-/

namespace Formwork

set_option autoImplicit false

/-- What steps answer for the members of a list, one after the other. -/
theorem forall₂_of_mapM {ε α β : Type} {f : α → Except ε β} : ∀ {xs : List α} {ys : List β},
    xs.mapM f = .ok ys → List.Forall₂ (fun x y => f x = .ok y) xs ys
  | [], _, run => by
    cases run
    exact .nil
  | x :: xs, _, run => by
    rw [List.mapM_cons] at run
    cases first : f x with
    | error e =>
      rw [first] at run
      cases run
    | ok y =>
      rw [first] at run
      cases rest : xs.mapM f with
      | error e =>
        rw [rest] at run
        cases run
      | ok ys =>
        rw [rest] at run
        cases run
        exact .cons first (forall₂_of_mapM rest)

namespace FieldTable

variable {t : FieldTable} {f g : FieldId} {field : Field} {fs visited : List FieldId}

/-- A walk from a list of fields ends in one way. -/
theorem Walks.unique {r r' : Except FieldError (List FieldId)} (h : t.Walks fs r) (h' : t.Walks fs r') :
    r' = r := by
  induction h generalizing r' with
  | done =>
    cases h'
    rfl
  | missing absent =>
    cases h' with
    | missing => rfl
    | visit found => cases absent.symm.trans found
  | visit found _ ih =>
    cases h' with
    | missing absent => cases absent.symm.trans found
    | visit found' rest =>
      cases found.symm.trans found'
      rw [ih rest]

/-- A field lies above another if it is the parent of the other, or lies above the parent. -/
theorem above_iff_parent : t.Above f g ↔ ∃ p, t.parent? g = some p ∧ (f = p ∨ t.Above f p) := by
  unfold Above
  rw [Relation.TransGen.head'_iff]
  refine exists_congr fun p => and_congr_right fun _ => ?_
  rw [Relation.reflTransGen_iff_eq_or_transGen]

namespace Booked

/-- A field lies above another if it lists the other, or a field above it. -/
theorem above_iff_contents (h : t.Booked) (found : t.field? f = some field) :
    t.Above f g ↔ ∃ c ∈ field.contents, g = c ∨ t.Above c g := by
  unfold Above
  rw [Relation.TransGen.tail'_iff]
  refine exists_congr fun c => ?_
  rw [h.mem_contents found, and_comm, Relation.reflTransGen_iff_eq_or_transGen, eq_comm (a := g)]

/-- **What a walk visits** is the fields that it is to visit and those below them. -/
theorem mem_visited (h : t.Booked) {r : Except FieldError (List FieldId)} (walk : t.Walks fs r)
    (is : r = .ok visited) : g ∈ visited ↔ ∃ f ∈ fs, g = f ∨ t.Above f g := by
  induction walk generalizing visited with
  | done =>
    cases is
    simp
  | missing => cases is
  | @visit f fs field r found _ ih =>
    cases r with
    | error e => cases is
    | ok later =>
      cases is
      simp only [List.mem_cons, ih rfl, List.mem_append, or_and_right, exists_or, exists_eq_left,
        h.above_iff_contents found, or_assoc]

/-- What lies above a field that is listed is the field that lists it, or lies above that. -/
theorem above_of_listed (h : t.Booked) (found : t.field? f = some field) {c : FieldId}
    (listed : c ∈ field.contents) (above : t.Above g c) : g = f ∨ t.Above g f := by
  obtain ⟨p, lies, is⟩ := above_iff_parent.1 above
  cases ((h.mem_contents found).1 listed).symm.trans lies
  exact is

/-- Of the fields to visit none lies above another, also when the first of them has been visited. -/
theorem apart_visit (h : t.Booked) (acyclic : t.Acyclic) (found : t.field? f = some field) (absent : f ∉ fs)
    (apart : ∀ c ∈ f :: fs, ∀ d ∈ f :: fs, ¬ t.Above c d) :
    ∀ c ∈ field.contents ++ fs, ∀ d ∈ field.contents ++ fs, ¬ t.Above c d := by
  have here : f ∈ f :: fs := List.mem_cons_self
  have rest : ∀ {d}, d ∈ fs → d ∈ f :: fs := List.mem_cons_of_mem f
  have below : ∀ {c}, c ∈ field.contents → t.Above f c := fun listed =>
    .single ((h.mem_contents found).1 listed)
  intro c mem d mem' above
  rcases List.mem_append.1 mem with listed | other <;>
    rcases List.mem_append.1 mem' with listed' | other'
  · rcases h.above_of_listed found listed' above with rfl | above
    · exact acyclic c (below listed)
    · exact acyclic f (above.trans (below listed))
  · exact apart f here d (rest other') (above.trans (below listed))
  · rcases h.above_of_listed found listed' above with rfl | above
    · exact absent other
    · exact apart c (rest other) f here above
  · exact apart c (rest other) d (rest other') above

/-- **A walk visits nothing twice**, if it is to visit fields none of which lies above another. -/
theorem nodup_visited (h : t.Booked) (acyclic : t.Acyclic) {r : Except FieldError (List FieldId)}
    (walk : t.Walks fs r) (is : r = .ok visited) (distinct : fs.Nodup)
    (apart : ∀ f ∈ fs, ∀ g ∈ fs, ¬ t.Above f g) : visited.Nodup := by
  induction walk generalizing visited with
  | done =>
    cases is
    exact List.nodup_nil
  | missing => cases is
  | @visit f fs field r found walk ih =>
    cases r with
    | error e => cases is
    | ok later =>
      cases is
      obtain ⟨absent, distinct⟩ := List.nodup_cons.1 distinct
      have below : ∀ {c}, c ∈ field.contents → t.Above f c := fun listed =>
        .single ((h.mem_contents found).1 listed)
      have here : f ∈ f :: fs := List.mem_cons_self
      have rest : ∀ {d}, d ∈ fs → d ∈ f :: fs := List.mem_cons_of_mem f
      refine List.nodup_cons.2 ⟨fun mem => ?_, ih rfl ?_ (h.apart_visit acyclic found absent apart)⟩
      · obtain ⟨c, listed, is⟩ := (h.mem_visited walk rfl).1 mem
        rcases List.mem_append.1 listed with listed | listed
        · rcases is with rfl | above
          · exact acyclic f (below listed)
          · exact acyclic f (above.trans (below listed))
        · rcases is with rfl | above
          · exact absent listed
          · exact apart c (rest listed) f here above
      · refine List.nodup_append'.2 ⟨h.nodup_contents found, distinct, fun c listed other => ?_⟩
        exact apart f here c (rest other) (below listed)

end Booked

/-- A walk from a field visits the field and all below it, each of them once: the field itself, and then what a
walk from each of the fields that it lists visits. -/
structure Visits (t : FieldTable) (f : FieldId) (field : Field) (visited : List FieldId) : Prop where
  members : ∀ g, g ∈ visited ↔ g = f ∨ t.Above f g
  once : visited.Nodup
  order : ∃ parts, visited = f :: parts.flatten ∧
    List.Forall₂ (fun c part => t.subtree c = .ok part) field.contents parts

/-- **The fields below a field** are visited, each of them once, and the walk does not fail. -/
theorem Booked.visits_subtree (h : t.Booked) (acyclic : t.Acyclic) (found : t.field? f = some field) :
    ∃ visited, t.subtree f = .ok visited ∧ t.Visits f field visited := by
  have each : ∀ c ∈ field.contents, ∃ visited, t.subtree c = .ok visited ∧
      ∀ fs r, t.Walks fs r → t.Walks (c :: fs) (r.map fun later => visited ++ later) := fun c listed => by
    obtain ⟨child, there, _⟩ := h.exists_of_mem_contents found listed
    exact h.walks_subtreeUpTo acyclic t.slots.size there List.nodup_nil nofun (Nat.le_refl _)
  obtain ⟨parts, run, go⟩ := walks_mapM field.contents each
  have walk : t.Walks [f] (.ok (f :: parts.flatten)) := by
    have visit := Walks.visit found (go [] _ .done)
    simpa [Except.map] using visit
  have subtree := walk.unique (h.walks_subtree acyclic found)
  refine ⟨_, subtree, fun g => ?_, ?_, parts, rfl, ?_⟩
  · rw [h.mem_visited walk rfl]
    simp
  · refine h.nodup_visited acyclic walk rfl (List.nodup_singleton f) ?_
    simp only [List.mem_singleton, forall_eq]
    exact acyclic f
  · exact forall₂_of_mapM run

end FieldTable

end Formwork
