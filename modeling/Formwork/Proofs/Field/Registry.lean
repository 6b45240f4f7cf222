import Mathlib.Data.List.Induction
import Formwork.Field.Registry
import Formwork.Proofs.OrderedMap
import Formwork.Proofs.Markup.Uris

/-!
# What a registry finds

A registry keeps its factories by the URIs of elements, so a name finds the factory that was registered
last under its URI.  Among simple local names that is the last registration of the same local name in an
equivalent namespace (`Registry.lookup?_registerAll_iff`): a URI never leads to the factory of another
element.
-/

namespace Formwork

set_option autoImplicit false

open Markup

namespace Registry

/-- What one call registers. -/
structure Call where
  space : Option String
  localName : String
  makes : Option FieldKind

namespace Call

/-- The URI an element is registered under. -/
def uri (call : Call) : String := NameUri.make call.space call.localName

/-- A registration of the element with a name: the local name is the same, and so is the namespace as it
stands in a URI. -/
def Names (call : Call) (space : Option String) (localName : String) : Prop :=
  call.localName = localName ∧ NameUri.normal call.space = NameUri.normal space

/-- Calls of simple local names. -/
def AllSimple (calls : List Call) : Prop :=
  ∀ call ∈ calls, NameUri.Simple call.localName

theorem names_iff {call : Call} (simple : NameUri.Simple call.localName)
    {localName : String} (simple' : NameUri.Simple localName) (space : Option String) :
    call.Names space localName ↔ call.uri = NameUri.make space localName :=
  (NameUri.make_eq_make_iff call.space space simple simple').symm

/-- The registrations of the built-in elements. -/
def builtins : List Call :=
  FieldKind.builtinTags.map fun (localName, kind) =>
    ⟨some Vocabulary.templateNamespace, localName, some kind⟩

theorem allSimple_builtins : AllSimple builtins := by
  have names : ∀ tag ∈ FieldKind.builtinTags, NameUri.Simple tag.1 := by decide
  intro call mem
  obtain ⟨tag, listed, rfl⟩ := List.mem_map.1 mem
  exact names tag listed

theorem AllSimple.append {calls calls' : List Call} (simple : AllSimple calls)
    (simple' : AllSimple calls') : AllSimple (calls ++ calls') := by
  intro call mem
  rcases List.mem_append.1 mem with mem | mem
  · exact simple call mem
  · exact simple' call mem

end Call

open Call

/-- Register one element after another. -/
def registerAll (r : Registry) (calls : List Call) : Registry :=
  calls.foldl (fun r call => r.register call.space call.localName call.makes) r

@[simp]
theorem registerAll_append (r : Registry) (calls calls' : List Call) :
    r.registerAll (calls ++ calls') = (r.registerAll calls).registerAll calls' :=
  List.foldl_append

theorem builtin_eq (first : Nat) : builtin first = (empty first).registerAll builtins := by
  rw [builtin, registerAll, builtins, List.foldl_map]

@[simp]
theorem nextLabel_registerAll (r : Registry) (calls : List Call) :
    (r.registerAll calls).nextLabel = r.nextLabel + calls.length := by
  induction calls using List.reverseRecOn with
  | nil => rfl
  | append_singleton calls call ih =>
    rw [registerAll_append, List.length_append, ← Nat.add_assoc, ← ih]
    rfl

/-- One more registration is found under its own URI and leaves every other one as it was. -/
theorem lookupUri?_registerAll_concat (r : Registry) (calls : List Call)
    (call : Call) (uri : String) :
    (r.registerAll (calls ++ [call])).lookupUri? uri =
      if call.uri = uri then some ⟨r.nextLabel + calls.length, call.makes⟩
      else (r.registerAll calls).lookupUri? uri := by
  rw [registerAll_append, ← nextLabel_registerAll]
  exact OrderedMap.get?_insert _ _ _ _

/-- The factory of the last registration under a URI, for labels that begin at `first`. -/
def LastUnder (first : Nat) (calls : List Call) (uri : String) (factory : Factory) : Prop :=
  ∃ before call after, calls = before ++ call :: after ∧ call.uri = uri ∧
    (∀ later ∈ after, later.uri ≠ uri) ∧ factory = ⟨first + before.length, call.makes⟩

theorem lastUnder_concat_of_eq {first : Nat} {calls : List Call} {last : Call}
    {uri : String} {factory : Factory} (same : last.uri = uri) :
    LastUnder first (calls ++ [last]) uri factory ↔
      factory = ⟨first + calls.length, last.makes⟩ := by
  constructor
  · rintro ⟨before, call, after, split, -, unlike, rfl⟩
    rcases List.eq_nil_or_concat after with rfl | ⟨after, final, rfl⟩
    · obtain ⟨rfl, ends⟩ := List.append_inj' split rfl
      cases ends
      rfl
    · -- Behind any other call the last one would stand among the later ones.
      rw [List.concat_eq_append, ← List.cons_append, ← List.append_assoc] at split
      obtain ⟨-, ends⟩ := List.append_inj' split rfl
      cases ends
      exact absurd same (unlike last (by simp))
  · rintro rfl
    exact ⟨calls, last, [], rfl, same, by simp, rfl⟩

theorem lastUnder_concat_of_ne {first : Nat} {calls : List Call} {last : Call}
    {uri : String} {factory : Factory} (other : last.uri ≠ uri) :
    LastUnder first (calls ++ [last]) uri factory ↔ LastUnder first calls uri factory := by
  constructor
  · rintro ⟨before, call, after, split, same, unlike, rfl⟩
    rcases List.eq_nil_or_concat after with rfl | ⟨after, final, rfl⟩
    · obtain ⟨-, ends⟩ := List.append_inj' split rfl
      cases ends
      exact absurd same other
    · rw [List.concat_eq_append, ← List.cons_append, ← List.append_assoc] at split
      obtain ⟨rfl, -⟩ := List.append_inj' split rfl
      exact ⟨before, call, after, rfl, same, fun later mem => unlike later (by simp [mem]), rfl⟩
  · rintro ⟨before, call, after, rfl, same, unlike, rfl⟩
    refine ⟨before, call, after ++ [last], by simp, same, ?_, rfl⟩
    intro later mem
    rcases List.mem_append.1 mem with mem | mem
    · exact unlike later mem
    · rwa [List.mem_singleton.1 mem]

/-- A URI finds the factory that was registered last under it. -/
theorem lookupUri?_registerAll_eq_some_iff {first : Nat} {calls : List Call} {uri : String}
    {factory : Factory} :
    ((empty first).registerAll calls).lookupUri? uri = some factory ↔
      LastUnder first calls uri factory := by
  induction calls using List.reverseRecOn with
  | nil => simp [LastUnder, registerAll, lookupUri?, empty, OrderedMap.get?_empty]
  | append_singleton calls last ih =>
    rw [lookupUri?_registerAll_concat]
    split
    case isTrue same =>
      rw [lastUnder_concat_of_eq same, Option.some_inj]
      exact eq_comm
    case isFalse other => rw [lastUnder_concat_of_ne other, ih]

/-- Nothing is found under a URI that nothing was registered under. -/
theorem lookupUri?_registerAll_eq_none_iff {first : Nat} {calls : List Call} {uri : String} :
    ((empty first).registerAll calls).lookupUri? uri = none ↔ ∀ call ∈ calls, call.uri ≠ uri := by
  induction calls using List.reverseRecOn with
  | nil => simp [registerAll, lookupUri?, empty, OrderedMap.get?_empty]
  | append_singleton calls last ih =>
    rw [lookupUri?_registerAll_concat]
    split
    case isTrue same => simp [same]
    case isFalse other => simp [ih, or_imp, forall_and, other]

/-- **A name finds** the factory that was registered last under an equivalent namespace and the same local
name, and nothing if there is none; for names have the same URI exactly if they are equivalent.  The
built-in elements are registered before any other one. -/
theorem lookup?_registerAll_iff :
    (∀ (space space' : Option String) (localName localName' : String),
      NameUri.Simple localName → NameUri.Simple localName' →
        (NameUri.make space localName = NameUri.make space' localName' ↔
          localName = localName' ∧ NameUri.normal space = NameUri.normal space')) ∧
    (∀ (first : Nat) (calls : List Call) (space : Option String) (localName : String),
      AllSimple calls → NameUri.Simple localName →
        (∀ factory, ((empty first).registerAll calls).lookup? space localName = some factory ↔
          ∃ before call after, calls = before ++ call :: after ∧ call.Names space localName ∧
            (∀ later ∈ after, ¬ later.Names space localName) ∧
            factory = ⟨first + before.length, call.makes⟩) ∧
        (((empty first).registerAll calls).lookup? space localName = none ↔
          ∀ call ∈ calls, ¬ call.Names space localName)) ∧
    ∀ (first : Nat) (calls : List Call),
      (builtin first).registerAll calls = (empty first).registerAll (builtins ++ calls) ∧
        (AllSimple calls → AllSimple (builtins ++ calls)) := by
  refine ⟨fun space space' _ _ => NameUri.make_eq_make_iff space space', ?_, ?_⟩
  · intro first calls space localName simple simple'
    have same {call : Call} (mem : call ∈ calls) :
        call.uri = NameUri.make space localName ↔ call.Names space localName :=
      (names_iff (simple call mem) simple' space).symm
    constructor
    · intro factory
      rw [lookup?, lookupUri?_registerAll_eq_some_iff]
      constructor
      · rintro ⟨before, call, after, rfl, named, unlike, rfl⟩
        refine ⟨before, call, after, rfl, (same (by simp)).1 named, ?_, rfl⟩
        exact fun later mem names => unlike later mem ((same (by simp [mem])).2 names)
      · rintro ⟨before, call, after, rfl, names, unlike, rfl⟩
        refine ⟨before, call, after, rfl, (same (by simp)).2 names, ?_, rfl⟩
        exact fun later mem named => unlike later mem ((same (by simp [mem])).1 named)
    · rw [lookup?, lookupUri?_registerAll_eq_none_iff]
      exact forall₂_congr fun call mem => not_congr (same mem)
  · intro first calls
    exact ⟨by rw [builtin_eq, registerAll_append], allSimple_builtins.append⟩

/-- The same element in three spellings of its namespace: the last registration counts. -/
theorem lookup?_registerAll_respelled :
    ((empty 5).registerAll
        [⟨some "urn:a", "x", some .label⟩, ⟨some "urn:a#", "x", none⟩, ⟨none, "x", some .html⟩]).lookup?
          (some "urn:a") "x" = some ⟨6, none⟩ ∧
      ((empty 5).registerAll [⟨some "urn:a", "x", some .label⟩]).lookup? (some "urn:a/") "x" =
        none := by
  have found := lookup?_registerAll_iff.2.1
  constructor
  · refine ((found 5 _ _ _ ?_ (by decide)).1 _).2
      ⟨[⟨some "urn:a", "x", some .label⟩], ⟨some "urn:a#", "x", none⟩,
        [⟨none, "x", some .html⟩], rfl, ?_, ?_, rfl⟩
    · simp [AllSimple]; decide
    · simp [Names]; decide
    · simp [Names]; decide
  · refine (found 5 _ _ _ ?_ (by decide)).2.2 ?_
    · simp [AllSimple]; decide
    · simp [Names]; decide

end Registry

end Formwork
