import Mathlib.Data.List.Pairwise
import Formwork.Proofs.Panel.Booking
import Formwork.Proofs.Panel.Create
import Formwork.Proofs.Template.Identifiers

/-!
# Generated names

Panels draw the names of fields that are created without a name from counters that they may share.  A roll lists the
fields that were created in the panels of a page (`Roll`): panels are opened, fields are created in them, with a name
or without, and others draw from the counters as well (`Roll.Act`).

Whatever is entered in a roll, two generated names are different, also when they are the names of fields of different
panels, and no field without a name of its own is listed under the generated name of another.  A field that is given a
name may be given one that is generated, before or after, and fields with one name are all listed under it.  So the
fields that a panel lists under a generated name are the one it was generated for and those to which it was given, and
this is one field just if it was given to none (`Roll.generated_names`).
-/

namespace Formwork

set_option autoImplicit false

/-! ## Counting -/

namespace Counters

variable {c : Counters} {purpose : Purpose}

/-- The number that is given out next. -/
def number (c : Counters) : Purpose → Nat
  | .placeholder => c.placeholder
  | .field => c.field
  | .button => c.button

theorem identifier_next (c : Counters) (purpose : Purpose) :
    (c.next purpose).1 = purpose.identifier (c.number purpose) := by cases purpose <;> rfl

theorem lt_number_next (c : Counters) (purpose : Purpose) :
    c.number purpose < (c.next purpose).2.number purpose := by cases purpose <;> exact Nat.lt_succ_self _

theorem number_le_next (c : Counters) (purpose other : Purpose) :
    c.number other ≤ (c.next purpose).2.number other := by
  cases purpose <;> cases other <;> first | exact Nat.le_refl _ | exact Nat.le_succ _

end Counters

/-! ## Rolls -/

/-- A field that was created: in which panel, of which kind and with which attributes, and what was answered. -/
structure Roll.Entry where
  panel : Nat
  kind : FieldKind
  attributes : Attributes
  answer : Except FieldError FieldId

/-- Panels that share counters, and the fields that were created in them. -/
structure Roll where
  page : Page
  counters : CounterPool
  panels : List Panel
  entries : List Roll.Entry

namespace Roll

open Counters (Purpose)

variable {series : SeriesId} {r : Roll} {e e' : Entry} {p : Panel} {f g : FieldId} {field : Field}

/-- A roll without panels. -/
def blank (page : Page) (counters : CounterPool) : Roll := ⟨page, counters, [], []⟩

/-- What is done to a roll: a panel is opened, a field is created in one of the panels, or others draw from the
counters of the panels. -/
inductive Act where
  | opens (messages : Messages)
  | creates (panel : Nat) (kind : FieldKind) (attributes : Attributes)
  | draws (purpose : Purpose)

/-- A roll after a field was created in the panel at some place. -/
def create (r : Roll) (place : Nat) (panel : Panel) (kind : FieldKind) (attributes : Attributes) : Roll :=
  let (answer, s) := exec (PanelM.createField kind attributes) ⟨panel, r.page, r.counters⟩
  ⟨s.page, s.counters, r.panels.set place s.panel, r.entries ++ [⟨place, kind, attributes, answer⟩]⟩

/-- A roll after an act. -/
def after (series : SeriesId) (r : Roll) : Act → Roll
  | .opens messages =>
    let (panel, page) := Panel.create r.page series messages
    { r with page := page, panels := r.panels ++ [panel] }
  | .creates place kind attributes =>
    match r.panels[place]? with
    | none => r
    | some panel => r.create place panel kind attributes
  | .draws purpose => { r with counters := (r.counters.next series purpose).2 }

/-- A roll after some acts. -/
def run (series : SeriesId) (r : Roll) (acts : List Act) : Roll := acts.foldl (after series) r

/-- The name that the field was given. -/
def Entry.given? (e : Entry) : Option String := e.attributes.get? Vocabulary.nameKey

/-- What a name of the field would be drawn for. -/
def Entry.purpose (e : Entry) : Purpose := if e.kind.isButton then .button else .field

/-- The field of an entry, as its panel keeps it. -/
def field? (r : Roll) (e : Entry) : Option Field :=
  r.panels[e.panel]?.bind fun panel => e.answer.toOption.bind panel.field?

/-- The name under which the field of an entry is kept. -/
def name? (r : Roll) (e : Entry) : Option String := (r.field? e).map Field.name

/-- The names in a roll.  A field has the name that it was given; generated names are different; and under a generated
name its panel lists the field and those to which the name was given. -/
structure Names (r : Roll) : Prop where
  created : ∀ e ∈ r.entries, ∃ field, r.field? e = some field ∧ e.answer = .ok field.id ∧
    field.kind = e.kind ∧ field.attributes = e.attributes ∧ ∀ name, e.given? = some name → field.name = name
  apart : r.entries.Pairwise fun e e' => e.given? = none → e'.given? = none → r.name? e ≠ r.name? e'
  listed : ∀ {e p field}, e ∈ r.entries → e.given? = none → r.panels[e.panel]? = some p →
    r.field? e = some field → ∀ g, g ∈ p.table.named field.name ↔
      g = field.id ∨ ∃ e' ∈ r.entries, e'.panel = e.panel ∧ e'.given? = some field.name ∧ e'.answer = .ok g
  alone : ∀ {e p field}, e ∈ r.entries → e.given? = none → r.panels[e.panel]? = some p →
    r.field? e = some field → (p.table.named field.name = [field.id] ↔
      ∀ e' ∈ r.entries, e'.panel = e.panel → e'.given? ≠ some field.name)

/-! ## What is so in every roll -/

/-- A name that a field may have when some counters are left: the one it was given or one that was drawn. -/
def Entry.Carries (e : Entry) (c : Counters) (name : String) : Prop :=
  match e.given? with
  | some given => name = given
  | none => ∃ n < c.number e.purpose, name = e.purpose.identifier n

/-- Entries and fields belong together one by one, and the names that were not given were drawn, each of them once. -/
structure Sound (series : SeriesId) (r : Roll) : Prop where
  known : series.index < r.counters.sets.size
  booked : ∀ p ∈ r.panels, p.series = series ∧ p.table.Booked
  kept : ∀ e ∈ r.entries, ∃ field, r.field? e = some field ∧ e.answer = .ok field.id ∧ field.kind = e.kind ∧
    field.attributes = e.attributes ∧ e.Carries (r.counters.get series) field.name
  entered : ∀ {i p g}, r.panels[i]? = some p → (p.field? g).isSome →
    ∃ e ∈ r.entries, e.panel = i ∧ e.answer = .ok g
  apart : r.entries.Pairwise fun e e' => e.given? = none → e'.given? = none → r.name? e ≠ r.name? e'

theorem Entry.Carries.mono {c c' : Counters} {name : String} (h : e.Carries c name)
    (le : ∀ purpose, c.number purpose ≤ c'.number purpose) : e.Carries c' name := by
  unfold Carries at h ⊢
  cases given : e.given? with
  | some _ =>
    rw [given] at h
    exact h
  | none =>
    rw [given] at h
    obtain ⟨n, lt, same⟩ := h
    exact ⟨n, lt.trans_le (le _), same⟩

/-- A name that was not given was drawn. -/
theorem Entry.Carries.drawn {c : Counters} {name : String} (h : e.Carries c name) (anonymous : e.given? = none) :
    ∃ n < c.number e.purpose, name = e.purpose.identifier n := by
  unfold Carries at h
  rwa [anonymous] at h

theorem Entry.Carries.given {c : Counters} {name given : String} (h : e.Carries c name)
    (is : e.given? = some given) : name = given := by
  unfold Carries at h
  rwa [is] at h

theorem field?_eq (here : r.panels[e.panel]? = some p) (answered : e.answer = .ok f) :
    r.field? e = p.field? f := by
  unfold field?
  rw [here, Option.bind_some, answered]
  rfl

theorem sound_blank (page : Page) {counters : CounterPool} (known : series.index < counters.sets.size) :
    (blank page counters).Sound series where
  known := known
  booked _ mem := nomatch mem
  kept _ mem := nomatch mem
  entered here := nomatch here
  apart := .nil

namespace Sound

/-- A panel without fields joins the others. -/
theorem opens (h : r.Sound series) (messages : Messages) : (r.after series (.opens messages)).Sound series := by
  have same : ∀ e ∈ r.entries, (r.after series (.opens messages)).field? e = r.field? e := by
    intro e mem
    obtain ⟨field, found, _⟩ := h.kept e mem
    obtain ⟨p, here, _⟩ := Option.bind_eq_some_iff.1 found
    unfold field? after
    dsimp only
    rw [List.getElem?_append_left (List.getElem?_eq_some_iff.1 here).1]
  refine ⟨h.known, fun p mem => ?_, fun e mem => ?_, fun {i p g} here is => ?_, ?_⟩
  · rcases List.mem_append.1 mem with mem | mem
    · exact h.booked p mem
    · rw [List.mem_singleton.1 mem]
      exact ⟨rfl, FieldTable.Booked.empty⟩
  · rw [same e mem]
    exact h.kept e mem
  · change (r.panels ++ [_])[i]? = some p at here
    rw [List.getElem?_append] at here
    split at here
    · exact h.entered here is
    · rw [List.getElem?_singleton] at here
      split at here
      · cases here
        cases is
      · cases here
  · refine h.apart.imp_of_mem fun mem mem' apart => ?_
    unfold name?
    rw [same _ mem, same _ mem']
    exact apart

/-- Numbers are given out to others. -/
theorem draws (h : r.Sound series) (purpose : Purpose) : (r.after series (.draws purpose)).Sound series where
  known := (CounterPool.size_next ..).symm ▸ h.known
  booked := h.booked
  kept e mem := by
    obtain ⟨field, found, answered, kind, attributes, carries⟩ := h.kept e mem
    refine ⟨field, found, answered, kind, attributes, carries.mono fun other => ?_⟩
    unfold after
    dsimp only
    rw [CounterPool.get_next h.known]
    exact Counters.number_le_next _ _ _
  entered := h.entered
  apart := h.apart

end Sound

/-! ## Creating a field -/

section Creating

variable {place : Nat} {kind : FieldKind} {attributes : Attributes}

/-- The field that is created next in a panel. -/
def next (r : Roll) (panel : Panel) (kind : FieldKind) (attributes : Attributes) : Field :=
  .create ⟨panel.table.slots.size⟩ kind (r.counters.nameField panel.series kind attributes).1 attributes

theorem create_eq (r : Roll) (place : Nat) (panel : Panel) (kind : FieldKind) (attributes : Attributes) :
    r.create place panel kind attributes =
      ⟨r.page, (r.counters.nameField panel.series kind attributes).2,
        r.panels.set place { panel with table := panel.table.add (r.next panel kind attributes) },
        r.entries ++ [⟨place, kind, attributes, .ok ⟨panel.table.slots.size⟩⟩]⟩ := by
  unfold create
  rw [PanelM.exec_createField]
  rfl

theorem entries_create (r : Roll) (place : Nat) (panel : Panel) (kind : FieldKind) (attributes : Attributes) :
    (r.create place panel kind attributes).entries =
      r.entries ++ [⟨place, kind, attributes, .ok ⟨panel.table.slots.size⟩⟩] := by rw [create_eq]

theorem counters_create (r : Roll) (place : Nat) (panel : Panel) (kind : FieldKind) (attributes : Attributes) :
    (r.create place panel kind attributes).counters =
      (r.counters.nameField panel.series kind attributes).2 := by rw [create_eq]

theorem panels_create (r : Roll) (place : Nat) (panel : Panel) (kind : FieldKind) (attributes : Attributes) :
    (r.create place panel kind attributes).panels =
      r.panels.set place { panel with table := panel.table.add (r.next panel kind attributes) } := by
  rw [create_eq]

/-- The name of the field that is created next is the one it is given or the one that is drawn next. -/
theorem carries_next (known : p.series.index < r.counters.sets.size) (e : Entry) :
    e.Carries ((r.counters.nameField p.series e.kind e.attributes).2.get p.series)
      (r.next p e.kind e.attributes).name := by
  unfold next Entry.Carries Entry.given? CounterPool.nameField
  cases e.attributes.get? Vocabulary.nameKey with
  | some name => rfl
  | none =>
    dsimp only
    rw [CounterPool.get_next known]
    exact ⟨_, Counters.lt_number_next _ _, Counters.identifier_next _ _⟩

theorem name_next_of_none (anonymous : attributes.get? Vocabulary.nameKey = none) :
    (r.next p kind attributes).name = (if kind.isButton then Purpose.button else .field).identifier
      ((r.counters.get p.series).number (if kind.isButton then .button else .field)) := by
  unfold next CounterPool.nameField
  rw [anonymous]
  exact Counters.identifier_next _ _

/-- The name that is drawn next has a number that is left, and all names before have numbers that were given out. -/
theorem Entry.Carries.ne_name_next {name : String} (h : e.Carries (r.counters.get p.series) name)
    (old : e.given? = none) (anonymous : attributes.get? Vocabulary.nameKey = none) :
    name ≠ (r.next p kind attributes).name := by
  obtain ⟨n, lt, rfl⟩ := h.drawn old
  intro same
  rw [name_next_of_none anonymous] at same
  obtain ⟨purpose, rfl⟩ := Counters.Purpose.identifier_injective same
  rw [purpose] at lt
  exact Nat.lt_irrefl _ lt

theorem number_le_nameField {c : CounterPool} (known : series.index < c.sets.size) (kind : FieldKind)
    (attributes : Attributes) (purpose : Purpose) :
    (c.get series).number purpose ≤ ((c.nameField series kind attributes).2.get series).number purpose := by
  unfold CounterPool.nameField
  cases attributes.get? Vocabulary.nameKey with
  | some name => exact Nat.le_refl _
  | none =>
    dsimp only
    rw [CounterPool.get_next known]
    exact Counters.number_le_next _ _ _

/-- What was created stays as it is. -/
theorem field?_create (here : r.panels[place]? = some p) (found : r.field? e = some field) :
    (r.create place p kind attributes).field? e = some field := by
  obtain ⟨q, there, found⟩ := Option.bind_eq_some_iff.1 found
  obtain ⟨f, answered, found⟩ := Option.bind_eq_some_iff.1 found
  unfold field?
  rw [panels_create, List.getElem?_set]
  split
  · case isTrue same =>
    rw [same, there] at here
    cases here
    rw [if_pos (same ▸ (List.getElem?_eq_some_iff.1 there).1), Option.bind_some, answered, Option.bind_some]
    unfold Panel.field?
    dsimp only
    rw [FieldTable.field?_add, if_neg, ← Panel.field?, found]
    rintro rfl
    exact Nat.lt_irrefl _ (FieldTable.lt_size_of_field? found)
  · rw [there, Option.bind_some, answered, Option.bind_some, found]

theorem field?_create_new (here : r.panels[place]? = some p) (kind : FieldKind) (attributes : Attributes) :
    (r.create place p kind attributes).field? ⟨place, kind, attributes, .ok ⟨p.table.slots.size⟩⟩ =
      some (r.next p kind attributes) := by
  unfold field?
  dsimp only
  rw [panels_create, List.getElem?_set_self (List.getElem?_eq_some_iff.1 here).1, Option.bind_some]
  exact (FieldTable.field?_add _ _ _).trans (if_pos rfl)

/-- The fields of the panels are those that were there and the new one, and all are entered. -/
theorem Sound.entered_create (h : r.Sound series) (here : r.panels[place]? = some p) {i : Nat} {q : Panel}
    (there : (r.create place p kind attributes).panels[i]? = some q) (is : (q.field? g).isSome) :
    ∃ e ∈ (r.create place p kind attributes).entries, e.panel = i ∧ e.answer = .ok g := by
  have old : ∀ {q}, r.panels[i]? = some q → (q.field? g).isSome →
      ∃ e ∈ (r.create place p kind attributes).entries, e.panel = i ∧ e.answer = .ok g := by
    intro q there is
    obtain ⟨e, mem, entered⟩ := h.entered there is
    rw [entries_create]
    exact ⟨e, List.mem_append_left _ mem, entered⟩
  rw [panels_create, List.getElem?_set] at there
  split at there
  · case isTrue same =>
    subst same
    rw [if_pos (List.getElem?_eq_some_iff.1 here).1] at there
    cases there
    unfold Panel.field? at is
    dsimp only at is
    rw [FieldTable.field?_add] at is
    split at is
    · case isTrue last =>
      rw [entries_create]
      exact ⟨_, List.mem_append_right _ List.mem_cons_self, rfl, by rw [last]⟩
    · exact old here is
  · exact old there is

/-- A field joins the others of its panel. -/
theorem Sound.create (h : r.Sound series) (here : r.panels[place]? = some p) (kind : FieldKind)
    (attributes : Attributes) : (r.create place p kind attributes).Sound series := by
  obtain ⟨rfl, booked⟩ := h.booked p (List.mem_of_getElem? here)
  have old : ∀ e ∈ r.entries, (r.create place p kind attributes).field? e = r.field? e := by
    intro e mem
    obtain ⟨field, found, _⟩ := h.kept e mem
    rw [field?_create here found, found]
  have new := field?_create_new here kind attributes
  refine ⟨?_, fun q mem => ?_, fun e mem => ?_, h.entered_create here, ?_⟩
  · rw [counters_create, CounterPool.size_nameField]
    exact h.known
  · rw [panels_create] at mem
    rcases List.mem_or_eq_of_mem_set mem with mem | rfl
    · exact h.booked q mem
    · exact ⟨rfl, booked.add rfl rfl rfl⟩
  · rw [entries_create] at mem
    rw [counters_create]
    rcases List.mem_append.1 mem with mem | mem
    · obtain ⟨field, found, answered, same, same', carries⟩ := h.kept e mem
      exact ⟨field, (old e mem).trans found, answered, same, same',
        carries.mono fun purpose => number_le_nameField h.known kind attributes purpose⟩
    · cases List.mem_singleton.1 mem
      exact ⟨_, new, rfl, rfl, rfl, carries_next h.known ⟨place, kind, attributes, _⟩⟩
  · rw [entries_create, List.pairwise_append]
    refine ⟨h.apart.imp_of_mem fun mem mem' apart => ?_, List.pairwise_singleton _ _, ?_⟩
    · unfold name?
      rw [old _ mem, old _ mem']
      exact apart
    · intro e mem e' mem' anonymous anonymous' alike
      cases List.mem_singleton.1 mem'
      obtain ⟨field, found, _, _, _, carries⟩ := h.kept e mem
      unfold name? at alike
      rw [old e mem, found, new, Option.map_some, Option.map_some] at alike
      exact carries.ne_name_next anonymous anonymous' (Option.some.inj alike)

end Creating

/-! ## Names in a roll -/

theorem Sound.after (h : r.Sound series) (act : Act) : (r.after series act).Sound series := by
  cases act with
  | opens messages => exact h.opens messages
  | creates place kind attributes =>
    unfold Roll.after
    dsimp only
    split
    · exact h
    · case h_2 p here => exact h.create here kind attributes
  | draws purpose => exact h.draws purpose

theorem Sound.run (h : r.Sound series) (acts : List Act) : (r.run series acts).Sound series := by
  induction acts generalizing r with
  | nil => exact h
  | cons act acts ih => exact ih (h.after act)

namespace Sound

/-- What is kept of the field of an entry. -/
theorem kept_of_found (h : r.Sound series) (mem : e ∈ r.entries) (found : r.field? e = some field) :
    e.answer = .ok field.id ∧ field.kind = e.kind ∧ field.attributes = e.attributes ∧
      e.Carries (r.counters.get series) field.name := by
  obtain ⟨field', found', kept⟩ := h.kept e mem
  cases found.symm.trans found'
  exact kept

/-- What a panel lists under a name has an entry with this name. -/
theorem mem_named (h : r.Sound series) {i : Nat} (here : r.panels[i]? = some p) {name : String} :
    g ∈ p.table.named name ↔
      ∃ e ∈ r.entries, e.panel = i ∧ e.answer = .ok g ∧ r.name? e = some name := by
  rw [(h.booked p (List.mem_of_getElem? here)).2.named]
  constructor
  · rintro ⟨field, found, rfl⟩
    obtain ⟨e, mem, rfl, answered⟩ := h.entered here (Option.isSome_iff_exists.2 ⟨field, found⟩)
    refine ⟨e, mem, rfl, answered, ?_⟩
    unfold name?
    rw [field?_eq here answered, Panel.field?, found]
    rfl
  · rintro ⟨e, mem, rfl, answered, named⟩
    obtain ⟨field, found, name⟩ := Option.map_eq_some_iff.1 named
    rw [field?_eq here answered] at found
    exact ⟨field, found, name⟩

/-- An entry with the generated name of another is this entry, or it was given the name. -/
theorem given_of_name? (h : r.Sound series) (mem : e ∈ r.entries) (mem' : e' ∈ r.entries)
    (anonymous : e.given? = none) {name : String} (is : r.name? e = some name) (is' : r.name? e' = some name) :
    e' = e ∨ e'.given? = some name := by
  obtain ⟨field', found', rfl⟩ := Option.map_eq_some_iff.1 is'
  cases given : e'.given? with
  | some own =>
    rw [(h.kept_of_found mem' found').2.2.2.given given]
    exact .inr rfl
  | none =>
    by_contra other
    have : Std.Symm fun e e' : Entry => e.given? = none → e'.given? = none → r.name? e ≠ r.name? e' :=
      ⟨fun _ _ apart no no' same => apart no' no same.symm⟩
    have apart := h.apart.forall mem mem' fun same => other (.inl same.symm)
    exact apart anonymous given (is.trans is'.symm)

/-- **The fields under a generated name** are the one that it was generated for and those to which it was given. -/
theorem mem_named_generated (h : r.Sound series) (mem : e ∈ r.entries) (anonymous : e.given? = none)
    (here : r.panels[e.panel]? = some p) (found : r.field? e = some field) :
    g ∈ p.table.named field.name ↔
      g = field.id ∨ ∃ e' ∈ r.entries, e'.panel = e.panel ∧ e'.given? = some field.name ∧ e'.answer = .ok g := by
  have answered := (h.kept_of_found mem found).1
  have named : r.name? e = some field.name := congrArg (Option.map Field.name) found
  rw [h.mem_named here]
  constructor
  · rintro ⟨e', mem', place, answered', named'⟩
    rcases h.given_of_name? mem mem' anonymous named named' with rfl | given
    · exact .inl (Except.ok.inj (answered'.symm.trans answered))
    · exact .inr ⟨e', mem', place, given, answered'⟩
  · rintro (rfl | ⟨e', mem', place, given, answered'⟩)
    · exact ⟨e, mem, rfl, answered, named⟩
    · obtain ⟨field', found', _, _, _, carries⟩ := h.kept e' mem'
      refine ⟨e', mem', place, answered', ?_⟩
      unfold name?
      rw [found', Option.map_some, carries.given given]

/-- A generated name that was given to no field is the name of one field. -/
theorem named_generated_eq (h : r.Sound series) (mem : e ∈ r.entries) (anonymous : e.given? = none)
    (here : r.panels[e.panel]? = some p) (found : r.field? e = some field) :
    p.table.named field.name = [field.id] ↔
      ∀ e' ∈ r.entries, e'.panel = e.panel → e'.given? ≠ some field.name := by
  have under := fun g => h.mem_named_generated (g := g) mem anonymous here found
  obtain ⟨answered, _, attributes, _⟩ := h.kept_of_found mem found
  constructor
  · intro single e' mem' place given
    obtain ⟨field', found', answered', _, attributes', _⟩ := h.kept e' mem'
    have listed := (under field'.id).2 (.inr ⟨e', mem', place, given, answered'⟩)
    rw [single, List.mem_singleton] at listed
    -- the other entry would be of the same field, which has no name among its attributes
    have same : r.field? e' = r.field? e := by
      rw [field?_eq here answered, field?_eq (place.symm ▸ here) answered', listed]
    rw [found, found', Option.some.injEq] at same
    rw [Entry.given?, ← attributes', same, attributes] at given
    cases anonymous.symm.trans given
  · intro nowhere
    have ascending := (h.booked p (List.mem_of_getElem? here)).2.ascending field.name
    have nodup : (p.table.named field.name).Nodup := ascending.imp fun lt same => by
      rw [same] at lt
      exact Nat.lt_irrefl _ lt
    refine List.perm_singleton.1 ((List.perm_ext_iff_of_nodup nodup (List.nodup_singleton _)).2 fun g => ?_)
    rw [under, List.mem_singleton]
    exact or_iff_left fun ⟨e', mem', place, given, _⟩ => nowhere e' mem' place given

theorem names (h : r.Sound series) : r.Names where
  created e mem := by
    obtain ⟨field, found, answered, kind, attributes, carries⟩ := h.kept e mem
    exact ⟨field, found, answered, kind, attributes, fun _ given => carries.given given⟩
  apart := h.apart
  listed mem anonymous here found _ := h.mem_named_generated mem anonymous here found
  alone mem anonymous here found := h.named_generated_eq mem anonymous here found

end Sound

/-- **Generated names are different**, in all panels that share counters, whatever names are given to other fields;
under a generated name a panel lists, besides the field, just those fields to which the name was given. -/
theorem generated_names (page : Page) {counters : CounterPool} (known : series.index < counters.sets.size)
    (acts : List Act) : ((blank page counters).run series acts).Names :=
  ((sound_blank page known).run acts).names

/-- In one of two panels a field is given a name, and the next field, which is given none, gets the same. -/
def encounter : Roll :=
  (blank .empty ⟨#[.initial]⟩).run ⟨0⟩ [.opens .empty, .opens .empty,
    .creates 0 .textInput ⟨[(Vocabulary.nameKey, "field0")], by decide⟩, .creates 0 .textInput .empty,
    .creates 1 .textInput .empty]

theorem generated_names_encounter : encounter.Names ∧
    encounter.entries.map encounter.name? = [some "field0", some "field0", some "field1"] :=
  ⟨generated_names .empty (by decide) _, by decide +kernel⟩

/-- Every generated name is the name of one field of its panel. -/
def Lone (r : Roll) : Prop :=
  ∀ e ∈ r.entries, e.given? = none → ∀ p field, r.panels[e.panel]? = some p → r.field? e = some field →
    p.table.named field.name = [field.id]

/-- A panel lists a field to which a generated name was given beside the one that it was generated for. -/
theorem not_lone_encounter : ¬ encounter.Lone := by
  intro lone
  have entry : (encounter.entries[1]?.map fun e => (e.panel, e.given?, (encounter.field? e).map Field.name)) =
      some (0, none, some "field0") := by decide +kernel
  have listed : (encounter.panels[0]?.map fun p => p.table.named "field0") = some [⟨0⟩, ⟨1⟩] := by decide +kernel
  obtain ⟨e, there, is⟩ := Option.map_eq_some_iff.1 entry
  obtain ⟨place, anonymous, named⟩ : e.panel = 0 ∧ e.given? = none ∧
      (encounter.field? e).map Field.name = some "field0" := by simpa using is
  obtain ⟨field, found, name⟩ := Option.map_eq_some_iff.1 named
  obtain ⟨p, here, both⟩ := Option.map_eq_some_iff.1 listed
  have single := lone e (List.mem_of_getElem? there) anonymous p field (place ▸ here) found
  rw [name, both] at single
  cases congrArg List.length single

end Roll

end Formwork
