import Mathlib.Data.List.Find
import Formwork.Command.Run
import Formwork.Proofs.OrderedMap
import Formwork.Proofs.Template.Values

/-!
# Values from the command line and from the file

The values of the configuration file and those of the command line are stored by name, one after the other.
A report shows of them the one that each field took last (`Scene.lastTaken`), and nothing else
(`Command.renderTemplate_congr`).

So a value of the file is overridden for the field that takes it, and not for its name: if the command line
gives another value for the name that gets to the same field, the report is the one that there would be
without the value of the file.  If it gives values that get to other fields of that name only, both are in
the report (`Command.reportOf_merge`).
-/

namespace Formwork

set_option autoImplicit false

open Command (FileSettings Settings Arguments storeValues rowOf fillPanel renderTemplate reportOf)

/-! ## Values stored one after the other -/

namespace Scene

variable {s s₀ : Scene} {σ σ' : FieldId → Option String} {f g : FieldId}

/-- The value that each field took last, when values are stored by name, one after the other. -/
def lastTaken (s : Scene) (values : List (String × String)) (f : FieldId) : Option String :=
  (values.reverse.find? fun e => s.taker? e.1 e.2 = some f).map Prod.snd

theorem lastTaken_append (s : Scene) (earlier later : List (String × String)) (f : FieldId) :
    s.lastTaken (earlier ++ later) f = (s.lastTaken later f).or (s.lastTaken earlier f) := by
  unfold lastTaken
  rw [List.reverse_append, List.find?_append, Option.map_or]

theorem lastTaken_singleton (s : Scene) (name v : String) (f : FieldId) (σ : FieldId → Option String) :
    (s.lastTaken [(name, v)] f).or (σ f) = keep σ (s.taker? name v) v f := by
  unfold lastTaken keep
  rw [List.reverse_singleton, List.find?_singleton]
  by_cases gets : s.taker? name v = some f <;> simp [gets]

theorem lastTaken_eq_none {values : List (String × String)} :
    s.lastTaken values f = none ↔ ∀ e ∈ values, s.taker? e.1 e.2 ≠ some f := by
  unfold lastTaken
  rw [Option.map_eq_none_iff, List.find?_eq_none]
  simp

theorem exists_of_lastTaken {values : List (String × String)} {v : String}
    (last : s.lastTaken values f = some v) : ∃ name, (name, v) ∈ values ∧ s.taker? name v = some f := by
  obtain ⟨⟨name, u⟩, found, rfl⟩ := Option.map_eq_some_iff.1 last
  have gets := List.find?_some found
  exact ⟨name, List.mem_reverse.1 (List.mem_of_find?_eq_some found), of_decide_eq_true gets⟩

/-- A value that gets to a field is stored under the name of the field. -/
theorem Secluded.name_of_taker (h : s.Secluded) {name name' v v' : String} (gets : s.taker? name v = some f)
    (gets' : s.taker? name' v' = some f) : name = name' := by
  have lists : ∀ {name v}, s.taker? name v = some f →
      ∃ field, s.panel.field? f = some field ∧ field.name = name :=
    fun gets => (h.custody.booked.named _ f).1 (List.mem_of_find?_eq_some gets)
  obtain ⟨field, found, rfl⟩ := lists gets
  obtain ⟨field', found', rfl⟩ := lists gets'
  cases found.symm.trans found'
  rfl

/-- The rows of a report, when it is told which values the fields took last. -/
def rows (s : Scene) (σ : FieldId → Option String) : List Command.FieldRow :=
  s.panel.table.fields.map fun field => ⟨field.name, field.kind.name, s.heldBy σ field.id⟩

/-- Reports with the same rows are those in which all fields have the same values. -/
theorem Secluded.rows_eq_iff (h : s.Secluded) :
    s.rows σ = s.rows σ' ↔ ∀ f, (s.panel.field? f).isSome → s.heldBy σ f = s.heldBy σ' f := by
  unfold rows FieldTable.fields
  rw [List.map_inj_left]
  constructor
  · intro same f known
    obtain ⟨field, found⟩ := Option.isSome_iff_exists.1 known
    have row := same field (List.mem_filterMap.2 ⟨f, h.custody.booked.mem_ids.2 ⟨field, found⟩, found⟩)
    rw [h.custody.booked.ids found] at row
    exact (Command.FieldRow.mk.inj row).2.2
  · intro same field mem
    obtain ⟨f, _, found⟩ := List.mem_filterMap.1 mem
    rw [h.custody.booked.ids found, same f (Option.isSome_iff_exists.2 ⟨field, found⟩)]

end Scene

namespace Command

open Scene

variable {s s₀ : Scene} {σ : FieldId → Option String}

/-- **Storing values** by name, one after the other. -/
theorem exec_storeValues (h₀ : s₀.Secluded) : ∀ (values : List (String × String))
    {σ : FieldId → Option String} {s : Scene}, s₀.Tracks σ s →
    ∃ s', exec (storeValues values) s = (.ok (), s') ∧
      s₀.Tracks (fun f => (s₀.lastTaken values f).or (σ f)) s'
  | [], σ, s, h => ⟨s, rfl, h⟩
  | (name, v) :: values, σ, s, h => by
    obtain ⟨s₁, stored, h₁⟩ := PanelM.exec_setFieldValue h₀ h name v
    obtain ⟨s₂, rest, h₂⟩ := exec_storeValues h₀ values h₁
    refine ⟨s₂, ?_, ?_⟩
    · have first : exec (do let _ ← PanelM.setFieldValue name (some v) : PanelM Unit) s = (.ok (), s₁) := by
        rw [exec_bind_ok stored]
        rfl
      unfold storeValues at rest ⊢
      rw [exec_forM_cons, exec_bind_ok first]
      exact rest
    · have split : s₀.lastTaken ((name, v) :: values) = fun f =>
          (s₀.lastTaken values f).or (s₀.lastTaken [(name, v)] f) :=
        funext fun f => s₀.lastTaken_append [(name, v)] values f
      rw [split]
      simp only [Option.or_assoc, lastTaken_singleton]
      exact h₂

/-- **Reading fields** for a report. -/
theorem exec_rows (h₀ : s₀.Secluded) : ∀ (fs : List FieldId) {s : Scene}, s₀.Tracks σ s →
    (∀ f ∈ fs, (s₀.panel.field? f).isSome) → ∃ s', exec (fs.mapM rowOf) s =
      (.ok ((fs.filterMap s₀.panel.field?).map fun field =>
        ⟨field.name, field.kind.name, s₀.heldBy σ field.id⟩), s') ∧ s₀.Tracks σ s'
  | [], s, h, _ => ⟨s, rfl, h⟩
  | f :: fs, s, h, known => by
    obtain ⟨s₁, read, h₁⟩ := PanelM.exec_value?_tracks h₀ h (known f List.mem_cons_self)
    obtain ⟨field₁, found₁⟩ := h₁.exists_field (known f List.mem_cons_self)
    obtain ⟨s₂, rest, h₂⟩ := exec_rows h₀ fs h₁ fun g mem => known g (List.mem_cons_of_mem _ mem)
    obtain ⟨field, found, bare⟩ := FieldTable.exists_field?_congr h₁.bare found₁
    have name : field₁.name = field.name := (congrArg Field.name bare :)
    have kind : field₁.kind = field.kind := (congrArg Field.kind bare :)
    refine ⟨s₂, ?_, h₂⟩
    have row : exec (rowOf f) s = (.ok ⟨field.name, field.kind.name, s₀.heldBy σ f⟩, s₁) := by
      unfold rowOf
      rw [exec_bind_ok read, exec_bind_ok (PanelM.exec_field found₁), name, kind]
      rfl
    have there : s₀.panel.field? f = some field := found
    rw [List.mapM_cons, exec_bind_ok row, exec_bind_ok rest, List.filterMap_cons, there, List.map_cons,
      h₀.custody.booked.ids there]
    rfl

/-- **Filling a panel**: the report tells what the fields took last. -/
theorem exec_fillPanel (h : s.Secluded) (values : List (String × String)) : ∃ s',
    exec (fillPanel values) s = (.ok (s.rows (s.lastTaken values)), s') ∧
      s.Tracks (s.lastTaken values) s' := by
  obtain ⟨s₁, stored, h₁⟩ := exec_storeValues h values (.start h)
  simp only [Option.or_none] at h₁
  have ids : s₁.panel.table.ids = s.panel.table.ids := by
    unfold FieldTable.ids
    rw [h₁.names]
  obtain ⟨s₂, read, h₂⟩ := exec_rows h s.panel.table.ids h₁ fun f mem =>
    Option.isSome_iff_exists.2 (h.custody.booked.mem_ids.1 mem)
  refine ⟨s₂, ?_, h₂⟩
  unfold fillPanel
  rw [exec_bind_ok stored, exec_bind_ok (exec_get s₁), ids]
  exact read

/-! ## Reports -/

/-- The scene in which the values for a template are stored. -/
def Prepares (b : Builder) (name : String) (s : Scene) : Prop :=
  exec (b.build name) ⟨.empty, CounterPool.empty.create.2⟩ =
    (.ok (some s.panel), ⟨s.page, s.counters⟩)

namespace Prepares

variable {b : Builder} {name : String}

theorem secluded (h : Prepares b name s) : s.Secluded := Builder.secluded_of_build .empty h

/-- **Rendering a template**. -/
theorem renderTemplate (h : Prepares b name s) (values : List (String × String)) : ∃ s',
    renderTemplate b name values =
      .ok ⟨name, s'.page.innerMarkup s'.panel.root, s.rows (s.lastTaken values)⟩ ∧
      s.Tracks (s.lastTaken values) s' := by
  obtain ⟨s', fills, tracks⟩ := exec_fillPanel h.secluded values
  refine ⟨s', ?_, tracks⟩
  unfold Command.renderTemplate
  unfold Prepares at h
  unfold exec at h fills
  dsimp only
  rw [h]
  dsimp only
  rw [fills]

end Prepares

/-- **What is rendered** of values that are stored one after the other is told by those that the fields took
last. -/
theorem renderTemplate_congr {b : Builder} {name : String} {values values' : List (String × String)}
    (same : ∀ s, Prepares b name s → s.lastTaken values = s.lastTaken values') :
    renderTemplate b name values = renderTemplate b name values' := by
  cases built : exec (b.build name) ⟨.empty, CounterPool.empty.create.2⟩ with
  | mk answer w =>
    match answer with
    | .ok (some p) =>
      have h : Prepares b name ⟨p, w.page, w.counters⟩ := built
      obtain ⟨s₁, rendered, tracks⟩ := h.renderTemplate values
      obtain ⟨s₂, rendered', tracks'⟩ := h.renderTemplate values'
      rw [← same _ h] at rendered' tracks'
      rw [rendered, rendered', tracks.innerMarkup_eq tracks'.toPictured tracks.toTold tracks'.toTold
        h.secluded.custody]
    | .ok none | .error e =>
      unfold exec at built
      unfold Command.renderTemplate
      dsimp only
      rw [built]

/-- Settings under which a template is rendered, and the scene in which the values are stored. -/
structure Renders (b : Builder) (settings : Settings) (selected : String) (s : Scene) : Prop where
  list : settings.list = false
  chosen : (settings.template <|> b.templateNames.head?) = some selected
  prepares : Prepares b selected s

theorem Renders.reportOf {b : Builder} {settings : Settings} {selected : String}
    (h : Renders b settings selected s) : ∃ html,
      reportOf b settings = .ok (.panel ⟨selected, html, s.rows (s.lastTaken settings.values)⟩) := by
  obtain ⟨s', rendered, _⟩ := h.prepares.renderTemplate settings.values
  unfold Command.reportOf
  rw [h.list, h.chosen]
  dsimp only
  rw [rendered]
  exact ⟨_, rfl⟩

/-- **What is reported** under settings with other values. -/
theorem reportOf_congr {b : Builder} {settings : Settings} {values : List (String × String)}
    (same : ∀ selected s, Renders b settings selected s → s.lastTaken settings.values = s.lastTaken values) :
    reportOf b settings = reportOf b { settings with values := values } := by
  unfold reportOf
  dsimp only
  cases list : settings.list with
  | true => rfl
  | false =>
    cases chosen : settings.template <|> b.templateNames.head? with
    | none => rfl
    | some name =>
      dsimp only
      rw [renderTemplate_congr fun s prepares => same name s ⟨list, chosen, prepares⟩]

/-! ## Settings -/

/-- A configuration file without an entry. -/
def FileSettings.without (file : FileSettings) (name : String) : FileSettings :=
  { file with values := file.values.erase name }

/-- The values of the command line have one that gets to a field under a name. -/
def Overrides (s : Scene) (a : Arguments) (name : String) (f : FieldId) : Prop :=
  ∃ u, (name, u) ∈ a.values ∧ s.taker? name u = some f

/-- The values of the command line are stored behind those of the file. -/
theorem lastTaken_values (s : Scene) (t : String) (a : Arguments) (file : FileSettings) (f : FieldId) :
    s.lastTaken (Settings.merge t a file).values f =
      (s.lastTaken a.values f).or (s.lastTaken file.values.toList f) :=
  s.lastTaken_append file.values.toList a.values f

section Entry

variable {a : Arguments} {file : FileSettings} {name v : String} {f : FieldId}
  (listed : file.values.get? name = some v)
include listed

/-- Without an entry, other fields take what they took. -/
theorem lastTaken_without (apart : s.taker? name v ≠ some f) :
    s.lastTaken (file.without name).values.toList f = s.lastTaken file.values.toList f := by
  have rest : (file.without name).values.toList = file.values.toList.filter fun e => e.1 ≠ name := rfl
  unfold lastTaken
  rw [rest, ← List.filter_reverse, List.find?_filter]
  refine congrArg _ (List.find?_congr fun e mem => ?_)
  obtain ⟨key, u⟩ := e
  by_cases is : key = name
  · subst is
    have entry := OrderedMap.get?_eq_some.2 (List.mem_reverse.1 mem)
    cases listed.symm.trans entry
    simp [apart]
  · simp [is]

/-- The entry is what the file has for the field that takes it. -/
theorem lastTaken_file (h : s.Secluded) (gets : s.taker? name v = some f) :
    s.lastTaken file.values.toList f = some v := by
  have entry := OrderedMap.get?_eq_some.1 listed
  cases last : s.lastTaken file.values.toList f with
  | none => exact absurd gets (lastTaken_eq_none.1 last (name, v) entry)
  | some u =>
    obtain ⟨key, mem, gets'⟩ := exists_of_lastTaken last
    cases h.name_of_taker gets gets'
    cases listed.symm.trans (OrderedMap.get?_eq_some.2 mem)
    rfl

omit listed in
/-- Without the entry, the file has nothing for that field. -/
theorem lastTaken_without_self (h : s.Secluded) (gets : s.taker? name v = some f) :
    s.lastTaken (file.without name).values.toList f = none := by
  refine lastTaken_eq_none.2 fun e mem gets' => ?_
  obtain ⟨_, other⟩ := List.mem_filter.1 mem
  exact of_decide_eq_true other (h.name_of_taker gets' gets)

/-- A field that does not take the entry, or takes another value of that name from the command line, takes
last what it takes without the entry. -/
theorem lastTaken_merge (t : String) (displaced : s.taker? name v = some f → Overrides s a name f) :
    s.lastTaken (Settings.merge t a file).values f =
      s.lastTaken (Settings.merge t a (file.without name)).values f := by
  rw [lastTaken_values, lastTaken_values]
  by_cases gets : s.taker? name v = some f
  · obtain ⟨u, given, gets'⟩ := displaced gets
    cases last : s.lastTaken a.values f with
    | none => exact absurd gets' (lastTaken_eq_none.1 last (name, u) given)
    | some u => rfl
  · rw [lastTaken_without listed gets]

/-- A field that takes the entry, and nothing from the command line, takes it last. -/
theorem heldBy_merge (t : String) (h : s.Secluded) (gets : s.taker? name v = some f)
    (spared : ¬ Overrides s a name f) :
    s.heldBy (s.lastTaken (Settings.merge t a file).values) f = s.readBack? f v ∧
      s.heldBy (s.lastTaken (Settings.merge t a (file.without name)).values) f = s.held? f := by
  have given : s.lastTaken a.values f = none := lastTaken_eq_none.2 fun e mem gets' =>
    spared ⟨e.2, by rwa [h.name_of_taker gets gets'], by rwa [h.name_of_taker gets gets']⟩
  unfold heldBy
  rw [lastTaken_values, lastTaken_values, given, Option.none_or, Option.none_or,
    lastTaken_file listed h gets, lastTaken_without_self h gets]
  exact ⟨rfl, rfl⟩

/-- **Which entries of the file show in the table of fields**: those that are not overridden, and give the
field a value that it does not have. -/
theorem rows_merge_iff (t : String) (h : s.Secluded) :
    s.rows (s.lastTaken (Settings.merge t a file).values) =
        s.rows (s.lastTaken (Settings.merge t a (file.without name)).values) ↔
      ∀ f, s.taker? name v = some f → Overrides s a name f ∨ s.readBack? f v = s.held? f := by
  rw [h.rows_eq_iff]
  constructor
  · intro same f gets
    by_cases displaced : Overrides s a name f
    · exact .inl displaced
    · obtain ⟨shown, shown'⟩ := heldBy_merge listed t h gets displaced
      have known := PanelM.known_of_named h name f (List.mem_of_find?_eq_some gets)
      exact .inr (shown.symm.trans ((same f known).trans shown'))
  · intro spares f _
    by_cases displaced : s.taker? name v = some f → Overrides s a name f
    · unfold heldBy
      rw [lastTaken_merge listed t displaced]
    · obtain ⟨gets, spared⟩ := Classical.not_imp.1 displaced
      obtain ⟨shown, shown'⟩ := heldBy_merge listed t h gets spared
      rw [shown, shown']
      exact (spares f gets).resolve_left spared

end Entry

/-- **An entry of the file is overridden for the field that takes it.**  If the command line has a value for
its name that gets to the same field, or no field takes the entry, the report is the one that there is without
the entry.  In general the tables of fields agree exactly if the field is given such a value, or has the value
of the entry anyway. -/
theorem reportOf_merge (b : Builder) (t : String) (a : Arguments) (file : FileSettings) {name v : String}
    (listed : file.values.get? name = some v) :
    ((∀ selected s, Renders b (Settings.merge t a file) selected s →
        ∀ f, s.taker? name v = some f → Overrides s a name f) →
      reportOf b (Settings.merge t a file) = reportOf b (Settings.merge t a (file.without name))) ∧
    ∀ selected s, Renders b (Settings.merge t a file) selected s → ∃ r r',
      reportOf b (Settings.merge t a file) = .ok (.panel r) ∧
      reportOf b (Settings.merge t a (file.without name)) = .ok (.panel r') ∧
      (r.fields = r'.fields ↔
        ∀ f, s.taker? name v = some f → Overrides s a name f ∨ s.readBack? f v = s.held? f) := by
  constructor
  · intro displaced
    exact reportOf_congr fun selected s renders => funext fun f =>
      lastTaken_merge listed t (displaced selected s renders f)
  · intro selected s renders
    obtain ⟨html, report⟩ := renders.reportOf
    have renders' : Renders b (Settings.merge t a (file.without name)) selected s :=
      ⟨renders.list, renders.chosen, renders.prepares⟩
    obtain ⟨html', report'⟩ := renders'.reportOf
    exact ⟨_, _, report, report', rows_merge_iff listed t renders.prepares.secluded⟩

/-- A configuration file with one value. -/
def entryFile (name v : String) : FileSettings :=
  { FileSettings.empty with values := OrderedMap.empty.insert name v }

/-- Arguments with one value. -/
def entryArguments (name v : String) : Arguments := { Arguments.none with values := [(name, v)] }

theorem Prepares.passes {b : Builder} {name : String} (h : Prepares b name s) {test : Scene → Bool}
    (given : Builder.givesSuch test (exec (b.build name) ⟨.empty, CounterPool.empty.create.2⟩) = true) :
    test s = true := by
  rw [h] at given
  exact given

/-- A text to edit takes all values. -/
theorem reportOf_merge_user :
    reportOf Builder.choiceBuilder (Settings.merge "forms.xml" (entryArguments "user" "ada")
        (entryFile "user" "guest")) =
      reportOf Builder.choiceBuilder (Settings.merge "forms.xml" (entryArguments "user" "ada")
        ((entryFile "user" "guest").without "user")) := by
  have listed : (entryFile "user" "guest").values.get? "user" = some "guest" := rfl
  refine (reportOf_merge Builder.choiceBuilder "forms.xml" (entryArguments "user" "ada") _ listed).1 ?_
  intro selected s renders f gets
  have same : s.taker? "user" "guest" = s.taker? "user" "ada" := by
    cases renders.chosen
    have given : Builder.givesSuch (fun s => s.taker? "user" "guest" = s.taker? "user" "ada")
        (exec (Builder.choiceBuilder.build "choice") ⟨.empty, CounterPool.empty.create.2⟩) = true := by
      decide +kernel
    exact of_decide_eq_true (renders.prepares.passes given)
  exact ⟨"ada", List.mem_singleton.2 rfl, same.symm.trans gets⟩

/-- Of two controls to check that share a name, one takes the value of the file and the other that of the
command line. -/
theorem reportOf_merge_choice : (entryFile "r" "a").values.get? "r" = some "a" ∧
    ("r", "b") ∈ (entryArguments "r" "b").values ∧
    reportOf Builder.choiceBuilder (Settings.merge "forms.xml" (entryArguments "r" "b") (entryFile "r" "a")) ≠
      reportOf Builder.choiceBuilder (Settings.merge "forms.xml" (entryArguments "r" "b")
        ((entryFile "r" "a").without "r")) := by
  refine ⟨rfl, List.mem_singleton.2 rfl, ?_⟩
  decide +kernel

end Command

end Formwork
