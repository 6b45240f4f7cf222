import Formwork.Proofs.Template.Capture

/-!
# Identifiers that were drawn

The markers of a template have identifiers that are drawn one after the other from the same numbers,
so they are different (`Sketch.drawnFrom_ofNodes`).  Elements of the template that were written with
other identifiers are not taken for markers (`Sketch.DrawnFrom.clear`).
-/

namespace Formwork

set_option autoImplicit false

/-! ## The identifiers of fields -/

namespace Sketch

mutual
/-- The identifiers of the fields of a sketch, at any depth. -/
def identifiers : Sketch → List String
  | .text _ => []
  | .element _ inner => identifiersOf inner
  | .field m inner => m.identifier :: identifiersOf inner

/-- The identifiers of the fields of some sketches, at any depth. -/
def identifiersOf : List Sketch → List String
  | [] => []
  | x :: xs => x.identifiers ++ identifiersOf xs
end

mutual
theorem sublist_marks (isPart : FieldId → Bool) : ∀ (x : Sketch) (start : Nat),
    ((x.marks isPart start).map Prod.fst).Sublist x.identifiers
  | .text _, _ => List.nil_sublist _
  | .element _ inner, start => sublist_marksOf isPart inner start
  | .field m inner, start => by
    rw [marks, identifiers]
    split
    · exact List.nil_sublist _
    · exact List.singleton_sublist.2 List.mem_cons_self

/-- Markers have the identifiers of their fields. -/
theorem sublist_marksOf (isPart : FieldId → Bool) : ∀ (xs : List Sketch) (start : Nat),
    ((marksOf isPart start xs).map Prod.fst).Sublist (identifiersOf xs)
  | [], _ => List.nil_sublist _
  | x :: xs, start => by
    rw [marksOf, List.map_append, identifiersOf]
    exact (sublist_marks isPart x start).append (sublist_marksOf isPart xs _)
end

end Sketch

/-! ## Drawing -/

/-- What stands before the number in an identifier. -/
def Counters.Purpose.stem : Purpose → String
  | .placeholder => "__tmps_"
  | .field => "field"
  | .button => "Button-"

/-- Identifiers made for different purposes or of different numbers are different. -/
theorem Counters.Purpose.identifier_injective {purpose other : Purpose} {m n : Nat}
    (same : purpose.identifier m = other.identifier n) : purpose = other ∧ m = n := by
  have chars : ∀ (purpose : Purpose) n,
      (purpose.identifier n).toList = purpose.stem.toList ++ Nat.toDigits 10 n := by
    intro purpose n
    cases purpose <;> simp [identifier, stem, toString, Nat.repr]
  have lists := congrArg String.toList same
  rw [chars, chars] at lists
  have alike : purpose = other := by
    have first := congrArg List.head? lists
    cases purpose <;> cases other <;> first | rfl | simp [stem] at first
  subst alike
  have digits : Nat.toDigits 10 m = Nat.toDigits 10 n := List.append_cancel_left lists
  refine ⟨rfl, ?_⟩
  rw [← Nat.ofDigitChars_toDigits (b := 10) (n := m) (by decide) (Nat.le_refl _), digits,
    Nat.ofDigitChars_toDigits (by decide) (Nat.le_refl _)]

namespace CounterPool

variable {c : CounterPool} {series : SeriesId}

theorem size_next (c : CounterPool) (series : SeriesId) (purpose : Counters.Purpose) :
    (c.next series purpose).2.sets.size = c.sets.size := Array.size_modify

theorem get_next (known : series.index < c.sets.size) (purpose : Counters.Purpose) :
    (c.next series purpose).2.get series = ((c.get series).next purpose).2 := by
  unfold next get
  simp [known, Array.getElem_modify_self]

theorem size_nameField (c : CounterPool) (series : SeriesId) (kind : FieldKind)
    (attributes : Attributes) : (c.nameField series kind attributes).2.sets.size = c.sets.size := by
  unfold nameField
  split
  · rfl
  · exact size_next ..

/-- Names are not drawn from the numbers of placeholders. -/
theorem placeholder_nameField (known : series.index < c.sets.size) (kind : FieldKind)
    (attributes : Attributes) :
    ((c.nameField series kind attributes).2.get series).placeholder = (c.get series).placeholder := by
  unfold nameField
  split
  · rfl
  · rw [get_next known]
    cases kind.isButton <;> rfl

end CounterPool

/-- What is made draws one number for its marker. -/
theorem Piece.make_counters {c : CounterPool} {series : SeriesId} (known : series.index < c.sets.size)
    (kind : FieldKind) (attributes : Attributes) :
    (make series c kind attributes).2.sets.size = c.sets.size ∧
      ((make series c kind attributes).2.get series).placeholder =
        (c.get series).placeholder + 1 ∧
      (make series c kind attributes).1.identifier =
        Counters.Purpose.identifier .placeholder (c.get series).placeholder := by
  have number := CounterPool.placeholder_nameField known kind attributes
  have known' : series.index < (c.nameField series kind attributes).2.sets.size := by
    rwa [CounterPool.size_nameField]
  unfold make
  dsimp only
  rw [CounterPool.size_next, CounterPool.size_nameField, CounterPool.get_next known', ← number]
  exact ⟨rfl, rfl, rfl⟩

namespace Sketch

/-- Some sketches have identifiers that were drawn one after the other, with numbers from one number
up to another. -/
structure DrawnFrom (low high : Nat) (xs : List Sketch) : Prop where
  le : low ≤ high
  numbers : ∃ ns : List Nat, identifiersOf xs = ns.map (Counters.Purpose.identifier .placeholder) ∧
    ns.Pairwise (· < ·) ∧ ∀ n ∈ ns, low ≤ n ∧ n < high

theorem identifiersOf_append : ∀ xs ys : List Sketch,
    identifiersOf (xs ++ ys) = identifiersOf xs ++ identifiersOf ys
  | [], _ => rfl
  | x :: xs, ys => by
    rw [List.cons_append, identifiersOf, identifiersOf, identifiersOf_append xs ys, List.append_assoc]

namespace DrawnFrom

variable {low middle high : Nat} {xs ys : List Sketch}

theorem nil (n : Nat) : DrawnFrom n n [] := ⟨Nat.le_refl n, [], rfl, .nil, nofun⟩

theorem append (first : DrawnFrom low middle xs) (second : DrawnFrom middle high ys) :
    DrawnFrom low high (xs ++ ys) := by
  obtain ⟨ns, same, increasing, range⟩ := first.numbers
  obtain ⟨ms, same', increasing', range'⟩ := second.numbers
  have le := first.le
  have le' := second.le
  refine ⟨le.trans le', ns ++ ms, ?_, ?_, fun n mem => ?_⟩
  · rw [identifiersOf_append, same, same', List.map_append]
  · rw [List.pairwise_append]
    exact ⟨increasing, increasing', fun n hn m hm => (range n hn).2.trans_le (range' m hm).1⟩
  · rcases List.mem_append.1 mem with mem | mem
    · have bounds := range n mem
      omega
    · have bounds := range' n mem
      omega

theorem mono {lower : Nat} (h : DrawnFrom low high xs) (le : lower ≤ low) :
    DrawnFrom lower high xs := by
  obtain ⟨ns, same, increasing, range⟩ := h.numbers
  exact ⟨le.trans h.le, ns, same, increasing, fun n mem =>
    ⟨le.trans (range n mem).1, (range n mem).2⟩⟩

theorem element {tag : Markup.Tag} (h : DrawnFrom low high xs) :
    DrawnFrom low high [.element tag xs] := by
  obtain ⟨ns, same, rest⟩ := h.numbers
  refine ⟨h.le, ns, ?_, rest⟩
  rw [identifiersOf, identifiersOf, List.append_nil]
  exact same

/-- A field draws a number first. -/
theorem field {m : Made} (identifier : m.identifier = Counters.Purpose.identifier .placeholder low)
    (h : DrawnFrom (low + 1) high xs) : DrawnFrom low high [.field m xs] := by
  obtain ⟨ns, same, increasing, range⟩ := h.numbers
  have le := h.le
  refine ⟨by omega, low :: ns, ?_, List.pairwise_cons.2 ⟨fun n mem => (range n mem).1, increasing⟩,
    fun n mem => ?_⟩
  · rw [identifiersOf, identifiersOf, List.append_nil, identifiers, same, List.map_cons, identifier]
  · rcases List.mem_cons.1 mem with rfl | later
    · omega
    · have bounds := range n later
      omega

/-- The identifiers are different. -/
theorem nodup (h : DrawnFrom low high xs) : (identifiersOf xs).Nodup := by
  obtain ⟨ns, same, increasing, _⟩ := h.numbers
  rw [same]
  exact (increasing.imp fun less => Nat.ne_of_lt less).map _
    fun _ _ ne eq => ne (Counters.Purpose.identifier_injective eq).2

theorem exists_number (h : DrawnFrom low high xs) {identifier : String}
    (mem : identifier ∈ identifiersOf xs) :
    ∃ n, low ≤ n ∧ n < high ∧ identifier = Counters.Purpose.identifier .placeholder n := by
  obtain ⟨ns, same, _, range⟩ := h.numbers
  rw [same, List.mem_map] at mem
  obtain ⟨n, listed, rfl⟩ := mem
  exact ⟨n, (range n listed).1, (range n listed).2, rfl⟩

end DrawnFrom

section Drawing

variable (registry : Registry) {series : SeriesId}

mutual
theorem drawnFrom_ofNode : ∀ (n : Markup.Node) {c : CounterPool}, series.index < c.sets.size →
    (ofNode registry series c n).2.sets.size = c.sets.size ∧
      DrawnFrom (c.get series).placeholder ((ofNode registry series c n).2.get series).placeholder
        (ofNode registry series c n).1
  | .text content, c, _ => ⟨rfl, Nat.le_refl _, [], rfl, .nil, nofun⟩
  | .element tag children, c, known => by
    rw [ofNode]
    cases registry.lookupUri? tag.uri with
    | none =>
      obtain ⟨size, below⟩ := drawnFrom_ofNodes children known
      dsimp only
      split
      · exact ⟨size, below.element⟩
      · exact ⟨size, below⟩
    | some factory =>
      dsimp only
      cases factory.makes with
      | none =>
        have size := CounterPool.size_next c series .placeholder
        obtain ⟨size', below⟩ := drawnFrom_ofNodes children (size ▸ known)
        refine ⟨size'.trans size, below.mono ?_⟩
        rw [CounterPool.get_next known]
        exact Nat.le_succ _
      | some kind =>
        obtain ⟨size, number, identifier⟩ := Piece.make_counters known kind
          (Blueprint.ofTag (some factory) tag).attributes
        obtain ⟨size', below⟩ := drawnFrom_ofNodes children (size ▸ known)
        rw [number] at below
        exact ⟨size'.trans size, below.field identifier⟩

theorem drawnFrom_ofNodes : ∀ (ns : List Markup.Node) {c : CounterPool},
    series.index < c.sets.size →
      (ofNodes registry series c ns).2.sets.size = c.sets.size ∧
        DrawnFrom (c.get series).placeholder ((ofNodes registry series c ns).2.get series).placeholder
          (ofNodes registry series c ns).1
  | [], c, _ => ⟨rfl, DrawnFrom.nil _⟩
  | n :: ns, c, known => by
    obtain ⟨size, first⟩ := drawnFrom_ofNode n known
    obtain ⟨size', rest⟩ := drawnFrom_ofNodes ns (c := (ofNode registry series c n).2) (by omega)
    rw [ofNodes]
    exact ⟨size'.trans size, first.append rest⟩
end

end Drawing

end Sketch


/-! ## Elements with other identifiers -/

namespace Markup.Node

mutual
/-- The tags of all elements of a node. -/
def tags : Node → List Tag
  | .text _ => []
  | .element tag children => tag :: tagsOf children

/-- The tags of all elements of some nodes. -/
def tagsOf : List Node → List Tag
  | [] => []
  | n :: ns => n.tags ++ tagsOf ns
end

end Markup.Node

namespace Sketch

theorem tagsOf_append : ∀ xs ys : List Sketch, tagsOf (xs ++ ys) = tagsOf xs ++ tagsOf ys
  | [], _ => rfl
  | x :: xs, ys => by
    rw [List.cons_append, tagsOf, tagsOf, tagsOf_append xs ys, List.append_assoc]

theorem fieldsOf_append : ∀ (xs ys : List Sketch) (start : Nat),
    fieldsOf start (xs ++ ys) = fieldsOf start xs ++ fieldsOf (start + countOf xs) ys
  | [], _, _ => rfl
  | x :: xs, ys, start => by
    rw [List.cons_append, fieldsOf, fieldsOf, fieldsOf_append xs ys, List.append_assoc, countOf,
      Nat.add_assoc]

/-- Some sketches, and what lies in their fields, have no other elements than those with some tags. -/
structure TagsAmong (tags : List Markup.Tag) (xs : List Sketch) : Prop where
  here : ∀ tag ∈ tagsOf xs, tag ∈ tags
  inside : ∀ {start e}, e ∈ fieldsOf start xs → ∀ tag ∈ tagsOf e.2.2, tag ∈ tags

namespace TagsAmong

variable {tags more : List Markup.Tag} {xs ys : List Sketch}

theorem mono (h : TagsAmong tags xs) (sub : ∀ tag ∈ tags, tag ∈ more) : TagsAmong more xs where
  here tag mem := sub tag (h.here tag mem)
  inside mem tag mem' := sub tag (h.inside mem tag mem')

theorem append (first : TagsAmong tags xs) (second : TagsAmong tags ys) :
    TagsAmong tags (xs ++ ys) where
  here tag mem := by
    rw [tagsOf_append, List.mem_append] at mem
    exact mem.elim (first.here tag) (second.here tag)
  inside mem := by
    rw [fieldsOf_append, List.mem_append] at mem
    exact mem.elim first.inside second.inside

end TagsAmong

mutual
theorem tagsAmong_ofNode (registry : Registry) (series : SeriesId) : ∀ (n : Markup.Node)
    (c : CounterPool), TagsAmong n.tags (ofNode registry series c n).1
  | .text _, _ => ⟨nofun, nofun⟩
  | .element tag children, c => by
    have below : ∀ c, TagsAmong (Markup.Node.element tag children).tags
        (ofNodes registry series c children).1 := fun c =>
      (tagsAmong_ofNodes registry series children c).mono fun tag => List.mem_cons_of_mem _
    rw [ofNode]
    cases registry.lookupUri? tag.uri with
    | none =>
      dsimp only
      split
      · obtain ⟨here, inside⟩ := below c
        refine ⟨fun tag' mem => ?_, fun mem => ?_⟩
        · rw [tagsOf, tagsOf, List.append_nil] at mem
          rcases List.mem_cons.1 mem with rfl | mem
          · exact List.mem_cons_self
          · exact here tag' mem
        · rw [fieldsOf, fieldsOf, List.append_nil] at mem
          exact inside mem
      · exact below c
    | some factory =>
      dsimp only
      cases factory.makes with
      | none => exact below _
      | some kind =>
        refine ⟨nofun, fun mem => ?_⟩
        rw [fieldsOf, fieldsOf, List.append_nil] at mem
        rcases List.mem_cons.1 mem with rfl | mem
        · exact (below _).here
        · exact (below _).inside mem

/-- What a template says has no other elements than the template. -/
theorem tagsAmong_ofNodes (registry : Registry) (series : SeriesId) : ∀ (ns : List Markup.Node)
    (c : CounterPool), TagsAmong (Markup.Node.tagsOf ns) (ofNodes registry series c ns).1
  | [], _ => ⟨nofun, nofun⟩
  | n :: ns, c => by
    rw [ofNodes]
    exact ((tagsAmong_ofNode registry series n c).mono fun tag => List.mem_append_left _).append
      ((tagsAmong_ofNodes registry series ns _).mono fun tag => List.mem_append_right _)
end

mutual
theorem identifiersOf_inner {e : FieldId × Made × List Sketch} {identifier : String} :
    ∀ {x : Sketch} {start : Nat}, e ∈ x.fields start → identifier ∈ identifiersOf e.2.2 →
      identifier ∈ x.identifiers
  | .text _, _, mem, _ => by cases mem
  | .element _ inner, _, mem, there => @identifiersOf_inners _ _ inner _ mem there
  | .field m inner, start, mem, there => by
    rw [identifiers]
    rcases List.mem_cons.1 mem with rfl | mem
    · exact List.mem_cons_of_mem _ there
    · exact List.mem_cons_of_mem _ (identifiersOf_inners mem there)

theorem identifiersOf_inners {e : FieldId × Made × List Sketch} {identifier : String} :
    ∀ {xs : List Sketch} {start : Nat}, e ∈ fieldsOf start xs → identifier ∈ identifiersOf e.2.2 →
      identifier ∈ identifiersOf xs
  | [], _, mem, _ => by cases mem
  | x :: xs, start, mem, there => by
    rw [identifiersOf, List.mem_append]
    exact (List.mem_append.1 mem).imp (fun mem => identifiersOf_inner mem there)
      fun mem => identifiersOf_inners mem there
end

/-- No element of some sketches has the identifier of a marker beside it. -/
structure Clear (xs : List Sketch) : Prop where
  panel : Apart (identifiersIn none 0 xs) (tagsOf xs)
  field : ∀ e ∈ fieldsOf 0 xs, e.2.1.kind.acceptsPanel = true →
    Apart (identifiersIn (some e.2.1.kind) (e.1.index + 1) e.2.2) (tagsOf e.2.2)

/-- Elements that have none of the identifiers with some numbers. -/
def Foreign (low high : Nat) (tags : List Markup.Tag) : Prop :=
  ∀ tag ∈ tags, ∀ n, low ≤ n → n < high →
    tag.plainAttributes.get? "id" ≠ some (Counters.Purpose.identifier .placeholder n)

/-- **Elements without drawn identifiers** have none of those of the markers. -/
theorem DrawnFrom.clear {low high : Nat} {xs : List Sketch} (h : DrawnFrom low high xs)
    {tags : List Markup.Tag} (among : TagsAmong tags xs) (foreign : Foreign low high tags) :
    Clear xs := by
  have apart : ∀ {identifiers : List String} {own : List Markup.Tag},
      (∀ identifier ∈ identifiers, identifier ∈ identifiersOf xs) → (∀ tag ∈ own, tag ∈ tags) →
        Apart identifiers own := by
    intro identifiers own drawn sub tag mem identifier written marked
    obtain ⟨n, least, most, rfl⟩ := h.exists_number (drawn _ marked)
    exact foreign tag (sub tag mem) n least most written
  refine ⟨apart (fun identifier mem => ?_) among.here, fun e mem _ =>
    apart (fun identifier mem' => ?_) (among.inside mem)⟩
  · exact (sublist_marksOf _ xs 0).subset mem
  · exact identifiersOf_inners mem ((sublist_marksOf _ e.2.2 _).subset mem')

end Sketch

end Formwork
