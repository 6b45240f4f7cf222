import Mathlib.Data.List.DropRight
import Formwork.Markup.Name

/-!
# URIs of names

The URI of a name is a namespace followed by a local name, and nothing marks where the one ends and the
other begins but the separator between them, a `#` or a `/`.

**Building.**  A local name without separators (`NameUri.Simple`) begins behind the last separator of its
URI, so names have the same URI only if they are the same name in the same namespace; an empty one is
none here, and a missing `#` is added (`NameUri.make_eq_make_iff`).

**Splitting.**  A URI is not cut behind its last separator, though, but behind its last `#`, and behind its
last `/` only when it has no `#`; and no cut leaves a namespace of one character.  So the parts of a URI
are read back exactly from namespaces that are more than a separator and do not end in a `/` with a `#`
before it (`NameUri.split_make`).
-/

namespace Formwork.Markup.NameUri

set_option autoImplicit false

/-! ## Separators -/

/-- The two characters between a namespace and a local name. -/
def IsSeparator (c : Char) : Prop := c = '#' ∨ c = '/'

instance (c : Char) : Decidable (IsSeparator c) := inferInstanceAs (Decidable (_ ∨ _))

/-- A local name without separators. -/
def Simple (localName : String) : Prop := ∀ c ∈ localName.toList, ¬ IsSeparator c

instance (localName : String) : Decidable (Simple localName) :=
  List.decidableBAll _ _

/-- A text that ends in a character. -/
def EndsIn (mark : Char) (space : String) : Prop := ∃ before, space.toList = before ++ [mark]

/-- A namespace that ends in a separator. -/
def Separated (space : String) : Prop := ∃ mark, IsSeparator mark ∧ EndsIn mark space

theorem endsIn_iff {mark : Char} {space : String} :
    EndsIn mark space ↔ space.toList.getLast? = some mark := by
  rw [List.getLast?_eq_some_iff]
  exact Iff.rfl

instance (mark : Char) (space : String) : Decidable (EndsIn mark space) :=
  decidable_of_iff' _ endsIn_iff

theorem separated_iff {space : String} : Separated space ↔ endsInSeparator space.toList = true := by
  simp [Separated, IsSeparator, endsInSeparator, endsIn_iff]

instance (space : String) : Decidable (Separated space) := decidable_of_iff' _ separated_iff

/-- A namespace as it stands in a URI: a missing separator is added. -/
def written (space : String) : String := if Separated space then space else space ++ "#"

/-- The namespace that stands in a URI, if one does: an empty one does not. -/
def normal : Option String → Option String
  | none => none
  | some space => if space = "" then none else some (written space)

/-! ## Building -/

/-- A URI is the namespace as it stands there, if there is one, and the local name. -/
theorem make_eq (space : Option String) (localName : String) :
    make space localName = (normal space).getD "" ++ localName := by
  cases space with
  | none => simp [make, normal]
  | some space =>
    by_cases empty : space = ""
    · simp [make, normal, empty]
    · simp [make, normal, written, empty, separated_iff]
      split <;> rfl

theorem separated_written (space : String) : Separated (written space) := by
  unfold written
  split
  · assumption
  · exact ⟨'#', .inl rfl, space.toList, by simp⟩

/-- The namespace that stands in a URI ends in a separator. -/
theorem separated_of_normal {space : Option String} {written : String}
    (stands : normal space = some written) : Separated written := by
  cases space with
  | none => cases stands
  | some space =>
    obtain ⟨_, same⟩ := Option.ite_none_left_eq_some.1 stands
    cases same
    exact separated_written space

theorem ne_empty_of_separated {space : String} (separated : Separated space) : space ≠ "" := by
  rintro rfl
  obtain ⟨mark, _, before, split⟩ := separated
  simp at split

/-- A simple local name is what stands behind the last separator of its URI. -/
theorem rtakeWhile_make (space : Option String) {localName : String} (simple : Simple localName) :
    (make space localName).toList.rtakeWhile (fun c => ¬ IsSeparator c) = localName.toList := by
  rw [make_eq]
  cases stands : normal space with
  | none => simpa [Simple] using simple
  | some written =>
    obtain ⟨mark, ends, before, split⟩ := separated_of_normal stands
    have simple' : ∀ c ∈ localName.toList.reverse, decide (¬ IsSeparator c) = true := by
      simpa [Simple] using simple
    simp only [Option.getD_some, String.toList_append, split, List.rtakeWhile, List.reverse_append]
    rw [List.takeWhile_append_of_pos simple']
    simp [ends]

/-- **Names have the same URI** exactly if they are the same local name in the same namespace. -/
theorem make_eq_make_iff (space space' : Option String) {localName localName' : String}
    (simple : Simple localName) (simple' : Simple localName') :
    make space localName = make space' localName' ↔
      localName = localName' ∧ normal space = normal space' := by
  constructor
  · intro same
    have names : localName = localName' := by
      rw [← String.toList_inj, ← rtakeWhile_make space simple, ← rtakeWhile_make space' simple', same]
    subst names
    rw [make_eq, make_eq, String.append_left_inj] at same
    refine ⟨rfl, ?_⟩
    cases stands : normal space with
    | none =>
      cases stands' : normal space' with
      | none => rfl
      | some written =>
        rw [stands, stands'] at same
        exact absurd same.symm (ne_empty_of_separated (separated_of_normal stands'))
    | some written =>
      cases stands' : normal space' with
      | none =>
        rw [stands, stands'] at same
        exact absurd same (ne_empty_of_separated (separated_of_normal stands))
      | some written' =>
        rw [stands, stands'] at same
        exact congrArg some same
  · rintro ⟨rfl, same⟩
    rw [make_eq, make_eq, same]

/-! ## Splitting -/

theorem cutAtLast_eq_none {mark : Char} {cs : List Char} (absent : mark ∉ cs) :
    cutAtLast mark cs = none := by
  induction cs with
  | nil => rfl
  | cons c cs ih =>
    rw [List.mem_cons, not_or] at absent
    simp [cutAtLast, ih absent.2, Ne.symm absent.1]

theorem cutAtLast_append {mark : Char} {behind : List Char} (last : mark ∉ behind)
    (before : List Char) : cutAtLast mark (before ++ mark :: behind) = some (before, behind) := by
  induction before with
  | nil => simp [cutAtLast, cutAtLast_eq_none last]
  | cons c before ih => simp [cutAtLast, ih]

/-- The parts of a URI that is cut behind a mark: none if the mark is its first character. -/
def partsAt (before : List Char) (mark : Char) (behind : List Char) : Option (String × String) :=
  if before = [] then none else some (String.ofList (before ++ [mark]), String.ofList behind)

/-- A URI is cut behind its last `#`. -/
theorem split?_hash {uri : String} {before behind : List Char}
    (cut : uri.toList = before ++ '#' :: behind) (last : '#' ∉ behind) :
    split? uri = partsAt before '#' behind := by
  have found := cutAtLast_append last before
  rw [← cut] at found
  simp only [split?, found]
  cases before <;> rfl

/-- A URI without `#` is cut behind its last `/`. -/
theorem split?_slash {uri : String} {before behind : List Char}
    (cut : uri.toList = before ++ '/' :: behind) (unmarked : '#' ∉ uri.toList)
    (last : '/' ∉ behind) : split? uri = partsAt before '/' behind := by
  have found := cutAtLast_append last before
  rw [← cut] at found
  simp only [split?, cutAtLast_eq_none unmarked, found]
  cases before <;> rfl

theorem Simple.notMem {localName : String} (simple : Simple localName) {mark : Char}
    (separator : IsSeparator mark) : mark ∉ localName.toList :=
  fun mem => simple mark mem separator

theorem toList_make {space : String} (given : space ≠ "") (localName : String) :
    (make (some space) localName).toList = (written space).toList ++ localName.toList := by
  simp [make_eq, normal, given]

/-- A namespace that can be read back: it is more than a separator, and has no `#` if it ends in `/`. -/
def Recoverable (space : String) : Prop :=
  space ≠ "#" ∧ space ≠ "/" ∧ ¬ (EndsIn '/' space ∧ '#' ∈ space.toList)

instance (space : String) : Decidable (Recoverable space) := inferInstanceAs (Decidable (_ ∧ _))

theorem written_of_separated {space : String} (separated : Separated space) :
    written space = space := if_pos separated

theorem toList_written_of_not_separated {space : String} (bare : ¬ Separated space) :
    (written space).toList = space.toList ++ ['#'] := by
  simp [written, bare]

/-- A namespace that ends in `#` is cut off, unless nothing stands before the `#`. -/
theorem split?_make_hash {space localName : String} {before : List Char} (given : space ≠ "")
    (simple : Simple localName) (stands : (written space).toList = before ++ ['#']) :
    split? (make (some space) localName) = partsAt before '#' localName.toList := by
  apply split?_hash _ (simple.notMem (.inl rfl))
  rw [toList_make given, stands, List.append_assoc]
  rfl

/-- So is a namespace that ends in `/`, if it has no `#`. -/
theorem split?_make_slash {space localName : String} {before : List Char} (given : space ≠ "")
    (simple : Simple localName) (stands : space.toList = before ++ ['/'])
    (unmarked : '#' ∉ space.toList) :
    split? (make (some space) localName) = partsAt before '/' localName.toList := by
  have same : written space = space := written_of_separated ⟨'/', .inr rfl, before, stands⟩
  apply split?_slash _ _ (simple.notMem (.inr rfl))
  · rw [toList_make given, same, stands, List.append_assoc]
    rfl
  · rw [toList_make given, same, List.mem_append, not_or]
    exact ⟨unmarked, simple.notMem (.inl rfl)⟩

/-- If it has a `#`, the URI is cut there, and the rest of the namespace goes to the local name. -/
theorem split?_make_nested {space localName : String} {before behind : List Char}
    (simple : Simple localName) (stands : space.toList = before ++ '#' :: (behind ++ ['/']))
    (last : '#' ∉ behind) :
    split? (make (some space) localName) = partsAt before '#' (behind ++ '/' :: localName.toList) := by
  have given : space ≠ "" := by
    rintro rfl
    simp at stands
  have same : written space = space :=
    written_of_separated ⟨'/', .inr rfl, before ++ '#' :: behind, by simp [stands]⟩
  apply split?_hash
  · rw [toList_make given, same, stands]
    simp
  · simp [last, simple.notMem (.inl rfl)]

/-- What is cut off is the whole namespace, unless it is the mark alone. -/
theorem partsAt_eq {space localName : String} {before : List Char} {mark : Char}
    (stands : space.toList = before ++ [mark]) :
    partsAt before mark localName.toList =
      if before = [] then none else some (space, localName) := by
  rw [partsAt, ← stands, String.ofList_toList, String.ofList_toList]

theorem split?_eq_some_iff {uri space localName : String} :
    split? uri = some (space, localName) ↔
      localName? uri = some localName ∧ namespace? uri = some space := by
  cases parts : split? uri with
  | none => simp [localName?, namespace?, parts]
  | some both => simp [localName?, namespace?, parts, Prod.ext_iff, and_comm]

/-- A namespace that can be read back is. -/
theorem split?_make_of_recoverable {space localName : String} (given : space ≠ "")
    (simple : Simple localName) (recoverable : Recoverable space) :
    split? (make (some space) localName) = some (written space, localName) := by
  obtain ⟨notHash, notSlash, unhidden⟩ := recoverable
  by_cases separated : Separated space
  · obtain ⟨mark, separator, before, stands⟩ := separated
    have same : written space = space := written_of_separated ⟨mark, separator, before, stands⟩
    have long : before ≠ [] := by
      rintro rfl
      rcases separator with rfl | rfl
      · exact notHash (String.toList_inj.1 stands)
      · exact notSlash (String.toList_inj.1 stands)
    rcases separator with rfl | rfl
    · rw [split?_make_hash given simple (same ▸ stands), partsAt_eq stands, if_neg long, same]
    · have unmarked : '#' ∉ space.toList := fun mem => unhidden ⟨⟨before, stands⟩, mem⟩
      rw [split?_make_slash given simple stands unmarked, partsAt_eq stands, if_neg long, same]
  · have stands := toList_written_of_not_separated separated
    have long : space.toList ≠ [] := by simpa using given
    rw [split?_make_hash given simple stands, partsAt_eq stands, if_neg long]

/-- A single separator is not read back: the URI has no parts. -/
theorem split?_make_separator {space localName : String} (simple : Simple localName)
    (single : space = "#" ∨ space = "/") : split? (make (some space) localName) = none := by
  rcases single with rfl | rfl
  · exact @split?_make_hash _ _ [] (by decide) simple rfl
  · exact @split?_make_slash _ _ [] (by decide) simple rfl (by decide)

/-- The last `#` of a namespace that ends in `/`. -/
theorem exists_nested {space : String} (ends : EndsIn '/' space) (mem : '#' ∈ space.toList) :
    ∃ before behind, space.toList = before ++ '#' :: (behind ++ ['/']) ∧ '#' ∉ behind := by
  obtain ⟨whole, stands⟩ := ends
  have inside : '#' ∈ whole := by simpa [stands] using mem
  obtain ⟨before, behind, split, last⟩ := List.eq_append_cons_of_mem (List.mem_reverse.2 inside)
  refine ⟨behind.reverse, before.reverse, ?_, by simpa using last⟩
  rw [stands, ← List.reverse_reverse whole, split]
  simp

/-- A namespace with a `#` before the `/` it ends in is not read back: the local name has that `/`. -/
theorem split?_make_of_nested {space localName : String} (simple : Simple localName)
    (ends : EndsIn '/' space) (mem : '#' ∈ space.toList) (whole : String) :
    split? (make (some space) localName) ≠ some (whole, localName) := by
  obtain ⟨before, behind, stands, last⟩ := exists_nested ends mem
  rw [split?_make_nested simple stands last, partsAt]
  split
  · simp
  · intro same
    have names : String.ofList (behind ++ '/' :: localName.toList) = localName := by
      simpa using congrArg (Option.map Prod.snd) same
    apply simple.notMem (.inr rfl : IsSeparator '/')
    rw [← names]
    simp

/-- **Splitting a URI undoes building it** exactly for the namespaces that can be read back.  With a
single separator as its namespace a URI has no parts; with a `#` before the `/` that ends its namespace
it is cut behind that `#`. -/
theorem split_make {space localName uri : String} (given : space ≠ "") (simple : Simple localName)
    (built : make (some space) localName = uri) :
    (localName? uri = some localName ∧ namespace? uri = some (written space) ↔ Recoverable space) ∧
      (space = "#" ∨ space = "/" → localName? uri = none ∧ namespace? uri = none) ∧
      ∀ before behind, space.toList = before ++ '#' :: (behind ++ ['/']) → '#' ∉ behind →
        split? uri =
          if before = [] then none
          else some (String.ofList (before ++ ['#']),
            String.ofList (behind ++ '/' :: localName.toList)) := by
  subst built
  refine ⟨?_, ?_, fun before behind stands last => split?_make_nested simple stands last⟩
  · rw [← split?_eq_some_iff]
    constructor
    · intro back
      refine ⟨?_, ?_, ?_⟩
      · rintro rfl
        rw [split?_make_separator simple (.inl rfl)] at back
        cases back
      · rintro rfl
        rw [split?_make_separator simple (.inr rfl)] at back
        cases back
      · rintro ⟨ends, mem⟩
        exact split?_make_of_nested simple ends mem _ back
    · exact split?_make_of_recoverable given simple
  · intro single
    simp [localName?, namespace?, split?_make_separator simple single]

/-- A namespace of each kind: one that is read back, one that is a separator, and one that is cut. -/
theorem split_make_kinds :
    (localName? "http://a/b#c#d" = some "d" ∧ namespace? "http://a/b#c#d" = some "http://a/b#c#") ∧
      (localName? "#d" = none ∧ namespace? "#d" = none) ∧ split? "a#b/d" = some ("a#", "b/d") :=
  ⟨(@split_make "http://a/b#c" "d" _ (by decide) (by decide) rfl).1.2 (by decide),
    (@split_make "#" "d" _ (by decide) (by decide) rfl).2.1 (.inl rfl),
    (@split_make "a#b/" "d" _ (by decide) (by decide) rfl).2.2 ['a'] ['b'] rfl (by decide)⟩

/-- Not every namespace is read back: one that ends in `/` and has a `#` loses what stands behind it. -/
theorem not_split_make :
    ¬ ∀ space localName uri : String, space ≠ "" → localName ≠ "" → Simple localName →
      make (some space) localName = uri →
        localName? uri = some localName ∧ namespace? uri = some (written space) := by
  intro back
  have cut := (back "a#b/" "c" _ (by decide) (by decide) (by decide) rfl).1
  revert cut
  decide

end Formwork.Markup.NameUri
