import Mathlib.Logic.Relation
import Formwork.Proofs.Panel.Books

/-!
# The tree of fields and its walks

The parents of a panel's fields need not form a tree: nothing keeps a field from being put below itself
or below a field that lies below it.  A field put there lies above itself, and the walks over the
fields below it, which nothing else bounds, do not come to an end.

**Acyclicity.**  In a table without cycles, putting a field below another closes a cycle exactly when the
two are one field or the other lies below it (`Booked.acyclic_link_iff`); no other request closes one.
So the tree of fields has no cycles for as long as no such addition answers
(`Scene.hierarchical_iff_never_loops`).

**Walks.**  Walking over the fields below one (`FieldTable.Walks`) and enabling them
(`PanelM.Enables`) are stated without a bound, as what there is to do at each field; a derivation is a walk
that has ended.  Without cycles every walk ends, with the answer of the bounded walk; below a field that
lies above itself none does (`FieldTable.Booked.endless`).
-/

namespace Formwork

set_option autoImplicit false

namespace FieldTable

variable {t u : FieldTable} {a b c f g p : FieldId} {role : Role}

/-! ## Ancestors -/

/-- A field lies above another: it is the parent of the other, or of a field above the other. -/
def Above (t : FieldTable) (a f : FieldId) : Prop :=
  Relation.TransGen (fun x y => t.parent? x = some y) f a

/-- No field lies above itself. -/
def Acyclic (t : FieldTable) : Prop := ∀ f, ¬ t.Above f f

theorem Above.mono (parents : ∀ x y, t.parent? x = some y → u.parent? x = some y)
    (h : t.Above a f) : u.Above a f := Relation.TransGen.mono parents _ _ h

theorem Acyclic.mono (h : u.Acyclic) (parents : ∀ x y, t.parent? x = some y → u.parent? x = some y) :
    t.Acyclic := fun f round => h f (round.mono parents)

theorem Acyclic.of_parent? (h : u.Acyclic) (parents : ∀ x, t.parent? x = u.parent? x) : t.Acyclic :=
  h.mono fun x _ lies => (parents x).symm.trans lies

/-- A field above which something lies is there. -/
theorem Above.isSome (h : t.Above a f) : (t.field? f).isSome := by
  obtain ⟨q, lies, _⟩ := Relation.TransGen.head'_iff.1 h
  unfold parent? at lies
  exact Option.isSome_of_mem (Option.bind_eq_some_iff.1 lies).choose_spec.1

theorem Acyclic.empty : FieldTable.empty.Acyclic := fun _ round => nomatch round.isSome

namespace Booked

/-- A chain in a table where a field was linked anew is an old chain, or it goes through the field. -/
theorem above_link (h : t.Booked) (known : (t.field? c).isSome) (up : (t.link p c role).Above a f) :
    t.Above a f ∨ (f = c ∨ t.Above c f) ∧ (a = p ∨ t.Above a p) := by
  have edge : ∀ x y, (t.link p c role).parent? x = some y →
      t.parent? x = some y ∨ (x = c ∧ y = p) := by
    intro x y lies
    rw [h.parent?_link known] at lies
    split at lies
    · case isTrue same => exact .inr ⟨same, (Option.some.inj lies).symm⟩
    · exact .inl lies
  induction up with
  | single lies =>
    rcases edge _ _ lies with old | ⟨rfl, rfl⟩
    · exact .inl (.single old)
    · exact .inr ⟨.inl rfl, .inl rfl⟩
  | tail _ lies ih =>
    rcases edge _ _ lies with old | ⟨rfl, rfl⟩
    · refine ih.imp (fun up => up.tail old) (fun ⟨below, above⟩ => ⟨below, .inr ?_⟩)
      rcases above with rfl | above
      · exact .single old
      · exact above.tail old
    · rcases ih with up | ⟨below, _⟩
      · exact .inr ⟨.inr up, .inl rfl⟩
      · exact .inr ⟨below, .inl rfl⟩

/-- **Putting a field below another** closes a cycle exactly when it is the other or lies above it. -/
theorem acyclic_link_iff (h : t.Booked) (acyclic : t.Acyclic) (known : (t.field? c).isSome) :
    (t.link p c role).Acyclic ↔ ¬ (c = p ∨ t.Above c p) := by
  have linked : (t.link p c role).parent? c = some p := by
    rw [h.parent?_link known, if_pos rfl]
  constructor
  · rintro acyclic' (rfl | above)
    · exact acyclic' c (.single linked)
    · -- the old chain up to the field does not pass it, so it is still there
      have kept : ∀ {x}, t.Above c x → (t.link p c role).Above c x := by
        intro x up
        induction up using Relation.TransGen.head_induction_on with
        | @single x lies =>
          have other : x ≠ c := by
            rintro rfl
            exact acyclic x (.single lies)
          exact .single (by rwa [h.parent?_link known, if_neg other])
        | @head x y lies up ih =>
          have other : x ≠ c := by
            rintro rfl
            exact acyclic x (.head lies up)
          exact .head (by rwa [h.parent?_link known, if_neg other]) ih
      exact acyclic' c (.head linked (kept above))
  · rintro apart f round
    rcases h.above_link known round with old | ⟨below, above⟩
    · exact acyclic f old
    · rcases below with rfl | below
      · exact apart above
      · refine apart (.inr ?_)
        rcases above with rfl | above
        · exact below
        · exact Relation.TransGen.trans above below

theorem acyclic_remove (h : t.Booked) (acyclic : t.Acyclic) (f : FieldId) :
    (t.remove f).2.Acyclic := by
  refine acyclic.mono fun x y lies => ?_
  unfold parent? at lies
  rw [h.field?_remove] at lies
  split at lies
  · cases lies
  · change (t.unlink f).parent? x = some y at lies
    rw [h.parent?_unlink] at lies
    split at lies
    · cases lies
    · exact lies

/-! ## Walking over the fields below one -/

end Booked

/-- Going over a list of fields that are left to visit: a field is visited, and what it lists comes
next. -/
inductive Walks (t : FieldTable) : List FieldId → Except FieldError (List FieldId) → Prop where
  | done : Walks t [] (.ok [])
  | missing {f : FieldId} {fs : List FieldId} : t.field? f = none →
      Walks t (f :: fs) (.error (.unknownField f))
  | visit {f : FieldId} {fs : List FieldId} {field : Field} {r : Except FieldError (List FieldId)} :
      t.field? f = some field → Walks t (field.contents ++ fs) r →
      Walks t (f :: fs) (r.map fun visited => f :: visited)

namespace Booked

/-- No walk passes a field that lies above itself. -/
theorem endless (h : t.Booked) {fs : List FieldId} {r : Except FieldError (List FieldId)}
    (walk : t.Walks fs r) (known : ∀ f ∈ fs, (t.field? f).isSome) : ∀ f ∈ fs, ¬ t.Above f f := by
  induction walk with
  | done => exact nofun
  | missing absent =>
    have there := known _ List.mem_cons_self
    rw [absent] at there
    cases there
  | @visit f fs field r found _ ih =>
    have later := ih (by
      intro g mem
      rcases List.mem_append.1 mem with below | rest
      · obtain ⟨child, there, _⟩ := h.exists_of_mem_contents found below
        exact Option.isSome_of_mem there
      · exact known g (List.mem_cons_of_mem _ rest))
    intro g mem
    rcases List.mem_cons.1 mem with rfl | rest
    · -- the last field of the cycle is listed by the field, and lies above itself as well
      intro round
      obtain ⟨x, up, lies⟩ := Relation.TransGen.tail'_iff.1 round
      exact later x (List.mem_append_left _ ((h.mem_contents found).2 lies))
        (Relation.TransGen.head' lies up)
    · exact later g (List.mem_append_right _ rest)

/-- Distinct fields above a field are fewer than the slots. -/
theorem length_above_lt (h : t.Booked) {field : Field} (found : t.field? f = some field)
    {path : List FieldId} (distinct : (f :: path).Nodup) (above : ∀ a ∈ path, t.Above a f) :
    path.length < t.slots.size := by
  refine length_le_size distinct fun a mem => ?_
  rcases List.mem_cons.1 mem with rfl | mem
  · exact Option.isSome_of_mem found
  · obtain ⟨x, _, lies⟩ := Relation.TransGen.tail'_iff.1 (above a mem)
    exact h.parents lies

/-- A field that lies below the fields of a path is not on it, and a field that it lists lies below it
and them. -/
theorem path_cons (h : t.Booked) (acyclic : t.Acyclic) {field : Field} (found : t.field? f = some field)
    {path : List FieldId} (distinct : path.Nodup) (above : ∀ a ∈ path, t.Above a f) :
    (f :: path).Nodup ∧ ∀ c ∈ field.contents, ∀ a ∈ f :: path, t.Above a c := by
  refine ⟨List.nodup_cons.2 ⟨fun mem => acyclic f (above f mem), distinct⟩, fun c listed a mem => ?_⟩
  have lies := (h.mem_contents found).1 listed
  rcases List.mem_cons.1 mem with rfl | mem
  · exact .single lies
  · exact .head lies (above a mem)

/-- Walks from the fields of a list, each of which leaves what comes behind it to the rest, one after the
other. -/
theorem walks_mapM {walk : FieldId → Except FieldError (List FieldId)} : ∀ cs : List FieldId,
    (∀ c ∈ cs, ∃ visited, walk c = .ok visited ∧
      ∀ fs r, t.Walks fs r → t.Walks (c :: fs) (r.map fun later => visited ++ later)) →
    ∃ visited, cs.mapM walk = .ok visited ∧
      ∀ fs r, t.Walks fs r → t.Walks (cs ++ fs) (r.map fun later => visited.flatten ++ later)
  | [], _ => by
    refine ⟨[], rfl, fun fs r rest => ?_⟩
    have same : (r.map fun later => [].flatten ++ later) = r := by cases r <;> rfl
    rwa [same]
  | c :: cs, each => by
    obtain ⟨first, run, go⟩ := each c List.mem_cons_self
    obtain ⟨visited, runs, goOn⟩ :=
      walks_mapM cs fun c' listed => each c' (List.mem_cons_of_mem _ listed)
    refine ⟨first :: visited, ?_, fun fs r rest => ?_⟩
    · rw [List.mapM_cons, run, runs]
      rfl
    · have both := go _ _ (goOn fs r rest)
      have same : ((r.map fun later => visited.flatten ++ later).map fun later => first ++ later) =
          r.map fun later => (first :: visited).flatten ++ later := by
        cases r <;> simp [Except.map]
      rwa [same] at both

/-- The bounded walk visits what lies below a field and then leaves it to the rest. -/
theorem walks_subtreeUpTo (h : t.Booked) (acyclic : t.Acyclic) : ∀ (levels : Nat) {f : FieldId}
    {field : Field} {path : List FieldId}, t.field? f = some field → path.Nodup →
    (∀ a ∈ path, t.Above a f) → t.slots.size ≤ levels + path.length →
    ∃ visited, t.subtreeUpTo levels f = .ok visited ∧
      ∀ fs r, t.Walks fs r → t.Walks (f :: fs) (r.map fun later => visited ++ later)
  | 0, f, field, path, found, distinct, above, enough => by
    have few := h.length_above_lt found (h.path_cons acyclic found distinct above).1 above
    omega
  | levels + 1, f, field, path, found, distinct, above, enough => by
    obtain ⟨distinct', above'⟩ := h.path_cons acyclic found distinct above
    obtain ⟨visited, run, go⟩ := walks_mapM (t := t) field.contents fun c listed => by
      obtain ⟨child, there, _⟩ := h.exists_of_mem_contents found listed
      exact h.walks_subtreeUpTo acyclic levels there distinct' (above' c listed) (by
        rw [List.length_cons]
        omega)
    refine ⟨f :: visited.flatten, ?_, fun fs r walk => ?_⟩
    · rw [subtreeUpTo, found]
      dsimp only
      rw [run]
      rfl
    · have step := Walks.visit found (go fs r walk)
      have same : ((r.map fun later => visited.flatten ++ later).map fun later => f :: later) =
          r.map fun later => f :: visited.flatten ++ later := by
        cases r <;> rfl
      rwa [same] at step

/-- **A walk ends** with the answer of the bounded walk. -/
theorem walks_subtree (h : t.Booked) (acyclic : t.Acyclic) {field : Field}
    (found : t.field? f = some field) : t.Walks [f] (t.subtree f) := by
  obtain ⟨visited, run, go⟩ := h.walks_subtreeUpTo acyclic t.slots.size found List.nodup_nil nofun
    (Nat.le_refl _)
  have walk := go [] _ .done
  unfold subtree
  rw [run]
  simpa [Except.map] using walk

end Booked

end FieldTable

/-! ## Enabling the fields below one -/

namespace PanelM

variable {enabled : Bool} {f : FieldId} {fs cs : List FieldId} {s s' s'' : Scene}

/-- Enable or disable the control of a field. -/
def enableControl (f : FieldId) (enabled : Bool) : PanelM Unit := do
  let w ← widgetOf f
  changePage (w.setEnabled enabled)

/-- Enabling or disabling some fields one after the other: a field with a control of its own is enabled
itself, any other field passes the request on to what it lists, and a failure ends it. -/
inductive Enables (enabled : Bool) : List FieldId → Scene → Except FieldError Unit → Scene → Prop where
  | done {s : Scene} : Enables enabled [] s (.ok ()) s
  | missing {f : FieldId} {fs : List FieldId} {s : Scene} : s.panel.field? f = none →
      Enables enabled (f :: fs) s (.error (.unknownField f)) s
  | control {f : FieldId} {fs : List FieldId} {field : Field} {s s' s'' : Scene}
      {r : Except FieldError Unit} : s.panel.field? f = some field →
      field.kind.togglesEnabled = true → exec (enableControl f enabled) s = (.ok (), s') →
      Enables enabled fs s' r s'' → Enables enabled (f :: fs) s r s''
  | refused {f : FieldId} {fs : List FieldId} {field : Field} {s s' : Scene} {e : FieldError} :
      s.panel.field? f = some field → field.kind.togglesEnabled = true →
      exec (enableControl f enabled) s = (.error e, s') → Enables enabled (f :: fs) s (.error e) s'
  | inner {f : FieldId} {fs : List FieldId} {field : Field} {s s' s'' : Scene}
      {r : Except FieldError Unit} : s.panel.field? f = some field →
      field.kind.togglesEnabled = false → Enables enabled field.contents s (.ok ()) s' →
      Enables enabled fs s' r s'' → Enables enabled (f :: fs) s r s''
  | failed {f : FieldId} {fs : List FieldId} {field : Field} {s s' : Scene} {e : FieldError} :
      s.panel.field? f = some field → field.kind.togglesEnabled = false →
      Enables enabled field.contents s (.error e) s' → Enables enabled (f :: fs) s (.error e) s'

/-- A run deals with a field: it leaves the others to the rest, or its failure ends everything. -/
def DealsWith (enabled : Bool) (f : FieldId) (s : Scene) : Except FieldError Unit × Scene → Prop
  | (.ok (), s') => ∀ fs r s'', Enables enabled fs s' r s'' → Enables enabled (f :: fs) s r s''
  | (.error e, s') => ∀ fs, Enables enabled (f :: fs) s (.error e) s'

/-- Dealing with each of some fields enables them. -/
theorem enables_forM (enabled : Bool) {m : FieldId → PanelM Unit} (spares : ∀ c, Spares (m c)) :
    ∀ (cs : List FieldId) (s : Scene),
      (∀ c ∈ cs, ∀ s', s'.books = s.books → DealsWith enabled c s' (exec (m c) s')) →
      Enables enabled cs s (exec (cs.forM m) s).1 (exec (cs.forM m) s).2
  | [], s, _ => .done
  | c :: cs, s, each => by
    have here := each c List.mem_cons_self s rfl
    have books := spares c s
    rw [exec_forM_cons, exec_bind]
    cases run : exec (m c) s with
    | mk answer s' =>
      rw [run] at here books
      cases answer with
      | error e => exact here cs
      | ok u =>
        refine here cs _ _ (enables_forM enabled spares cs s' fun c' listed s'' same => ?_)
        exact each c' (List.mem_cons_of_mem _ listed) s'' (same.trans books)

/-- The bounded run deals with a field. -/
theorem dealsWith_enableUpTo {t : FieldTable} (booked : t.Booked) (acyclic : t.Acyclic) :
    ∀ (levels : Nat) {f : FieldId} {field : Field} {path : List FieldId} {s : Scene},
      t.field? f = some field → path.Nodup → (∀ a ∈ path, t.Above a f) →
      t.slots.size ≤ levels + path.length → s.panel.table.bare = t.bare →
      DealsWith enabled f s (exec (enableUpTo levels f enabled) s)
  | 0, f, field, path, s, found, distinct, above, enough, _ => by
    have few := booked.length_above_lt found (booked.path_cons acyclic found distinct above).1 above
    omega
  | levels + 1, f, field, path, s, found, distinct, above, enough, same => by
    obtain ⟨distinct', above'⟩ := booked.path_cons acyclic found distinct above
    obtain ⟨field', found', bare⟩ := FieldTable.exists_field?_congr same.symm found
    have contents : field'.contents = field.contents := (congrArg Field.contents bare.symm :)
    rw [enableUpTo, exec_bind_ok (exec_field found')]
    cases toggles : field'.kind.togglesEnabled with
    | true =>
      show DealsWith enabled f s (exec (enableControl f enabled) s)
      cases run : exec (enableControl f enabled) s with
      | mk answer s' =>
        cases answer with
        | ok u => exact fun fs r s'' rest => .control found' toggles run rest
        | error e => exact fun fs => .refused found' toggles run
    | false =>
      show DealsWith enabled f s
        (exec (field'.contents.forM fun child => enableUpTo levels child enabled) s)
      have inner := enables_forM enabled (spares_enableUpTo levels · enabled)
        field'.contents s fun c listed s' books => by
          rw [contents] at listed
          obtain ⟨child, there, _⟩ := booked.exists_of_mem_contents found listed
          exact dealsWith_enableUpTo booked acyclic levels there distinct' (above' c listed) (by
            rw [List.length_cons]
            omega) ((congrArg Prod.fst books).trans same)
      cases run : exec (field'.contents.forM fun child => enableUpTo levels child enabled) s with
      | mk answer s' =>
        rw [run] at inner
        cases answer with
        | ok u => exact fun fs r s'' rest => .inner found' toggles inner rest
        | error e => exact fun fs => .failed found' toggles inner

/-- **Enabling ends** with what the bounded run does. -/
theorem enables_enableTree (booked : s.panel.table.Booked) (acyclic : s.panel.table.Acyclic)
    {field : Field} (found : s.panel.field? f = some field) (enabled : Bool) :
    Enables enabled [f] s (exec (enableTree f enabled) s).1 (exec (enableTree f enabled) s).2 := by
  have deals := @dealsWith_enableUpTo enabled _ booked acyclic s.panel.table.slots.size _ _ _ _ found
    List.nodup_nil nofun (Nat.le_refl _) rfl
  have tree : exec (enableTree f enabled) s =
      exec (enableUpTo s.panel.table.slots.size f enabled) s := rfl
  rw [tree]
  cases run : exec (enableUpTo s.panel.table.slots.size f enabled) s with
  | mk answer s' =>
    rw [run] at deals
    cases answer with
    | ok u => exact deals [] _ _ .done
    | error e => exact deals []

end PanelM

/-! ## Histories -/

namespace Scene

open Panel (Request)

/-- The fields of a panel form a hierarchy: none lies above itself, and the walks over what lies below a
field come to an end. -/
structure Hierarchical (s : Scene) : Prop where
  acyclic : s.panel.table.Acyclic
  visited : ∀ {f field}, s.panel.field? f = some field →
    s.panel.table.Walks [f] (s.panel.table.subtree f)
  enabled : ∀ {f field} (enabled : Bool), s.panel.field? f = some field →
    PanelM.Enables enabled [f] s (exec (PanelM.enableTree f enabled) s).1
      (exec (PanelM.enableTree f enabled) s).2

theorem hierarchical_iff {s : Scene} (booked : s.panel.table.Booked) :
    s.Hierarchical ↔ s.panel.table.Acyclic := by
  constructor
  · intro h
    exact h.acyclic
  · intro acyclic
    exact ⟨acyclic, booked.walks_subtree acyclic,
      fun enabled found => PanelM.enables_enableTree booked acyclic found enabled⟩

/-- A request is answered that puts a field below itself or below a field that lies below it. -/
def Loops (s : Scene) (r : Request) : Prop :=
  ∃ p c, r = .add p c ∧ r.Answers s ∧ (c = p ∨ s.panel.table.Above c p)

/-- **One request** keeps a hierarchy exactly when it closes no loop. -/
theorem acyclic_after_iff {s : Scene} (booked : s.panel.Booked) (acyclic : s.panel.table.Acyclic)
    (r : Request) : (r.after s).panel.table.Acyclic ↔ ¬ s.Loops r := by
  have spared : ∀ {s' : Scene}, s'.books = s.books → s'.panel.table.Acyclic := by
    intro s' same
    exact acyclic.of_parent? (FieldTable.parent?_congr (congrArg Prod.fst same))
  cases r.turn s with
  | kept same other =>
    refine ⟨?_, fun _ => spared same⟩
    rintro - ⟨p, c, rfl, answers, _⟩
    exact other answers p c rfl
  | created name table _ =>
    refine ⟨fun _ ⟨_, _, is, _⟩ => (nomatch is), fun _ => ?_⟩
    rw [table]
    refine acyclic.of_parent? fun g => ?_
    exact FieldTable.Booked.parent?_add _ rfl g
  | @linked p c role _ s₁ _ same _ child table _ answers =>
    have before := booked.congr same
    have known := (FieldTable.isSome_field?_congr (congrArg Prod.fst same) c).trans child
    have chains : s₁.panel.table.Above c p ↔ s.panel.table.Above c p := by
      have parents := FieldTable.parent?_congr (congrArg Prod.fst same)
      exact ⟨.mono fun x _ lies => (parents x).symm.trans lies,
        .mono fun x _ lies => (parents x).trans lies⟩
    rw [table, before.table.acyclic_link_iff (spared same) known, chains]
    refine not_congr ⟨fun closes => ⟨p, c, rfl, answers, closes⟩, ?_⟩
    rintro ⟨_, _, is, _, closes⟩
    cases is
    exact closes
  | removed _ table _ =>
    refine ⟨fun _ ⟨_, _, is, _⟩ => (nomatch is), fun _ => ?_⟩
    rw [table]
    exact booked.table.acyclic_remove acyclic _
  | viewed same _ table _ =>
    refine ⟨fun _ ⟨_, _, is, _⟩ => (nomatch is), fun _ => ?_⟩
    rw [table]
    exact spared same

/-- **The fields of a panel form a hierarchy** throughout exactly those histories in which no field is put
below itself or below a field that lies below it. -/
theorem hierarchical_iff_never_loops (page : Page) (counters : CounterPool) (series : SeriesId)
    (messages : Messages) (rs : List Request) :
    Throughout Hierarchical (opened page counters series messages) rs ↔
      Never Loops (opened page counters series messages) rs := by
  refine throughout_iff_never (B := fun s => s.panel.Booked) (A := fun _ => True) ?_ ?_ rs
    (fun _ _ => trivial) (.create page series messages) ?_
  · exact fun s r _ booked => booked.turn (r.turn s)
  · intro s r _ booked holds
    rw [hierarchical_iff (booked.turn (r.turn s)).table]
    exact acyclic_after_iff booked holds.acyclic r
  · exact (hierarchical_iff FieldTable.Booked.empty).2 .empty

/-- Two panels, each put below the other. -/
def tangling : List Request :=
  [.create .panel (.ofList [(Vocabulary.nameKey, "a")]),
    .create .panel (.ofList [(Vocabulary.nameKey, "b")]), .add ⟨0⟩ ⟨1⟩, .add ⟨1⟩ ⟨0⟩]

/-- Two fields can lie above each other, and no walk from them ends. -/
theorem above_tangled : let s := (opened .empty .empty ⟨0⟩ .empty).after tangling
    s.panel.table.Above ⟨0⟩ ⟨0⟩ ∧ ¬ ∃ r, s.panel.table.Walks [⟨0⟩] r := by
  have up : ((opened .empty .empty ⟨0⟩ .empty).after tangling).panel.table.parent? ⟨0⟩ = some ⟨1⟩ := by
    decide +kernel
  have down : ((opened .empty .empty ⟨0⟩ .empty).after tangling).panel.table.parent? ⟨1⟩ =
      some ⟨0⟩ := by
    decide +kernel
  have round : ((opened .empty .empty ⟨0⟩ .empty).after tangling).panel.table.Above ⟨0⟩ ⟨0⟩ :=
    .tail (.single up) down
  refine ⟨round, fun ⟨r, walk⟩ => ?_⟩
  have booked := booked_after (s := opened .empty .empty ⟨0⟩ .empty) (.create .empty ⟨0⟩ .empty)
    tangling
  refine (booked.table.endless walk fun f mem => ?_) _ List.mem_cons_self round
  rw [List.mem_singleton.1 mem]
  exact round.isSome

end Scene

end Formwork
