import Formwork.Proofs.Template.Assemble
import Formwork.Proofs.Template.Outline

/-!
# The tree of fields mirrors the template

The elements of a template whose factories make fields form a forest: below each lie those that lie
in it with none between.  A panel built from the template has one field for each tree of the forest,
numbered in document order, below the field of the tree around it.  A tab container takes the
panels directly below it for its pages, and a disclosure the first header; all other fields are
content of the field that they lie in.

Building the panel fills its views afterwards, which builds widgets and changes no field otherwise.
-/

namespace Formwork

set_option autoImplicit false

/-! ## The forest of a template -/

/-- An element that makes a field, and those directly below it. -/
inductive FieldTree where
  | node (kind : FieldKind) (attributes : Attributes) (below : List FieldTree)

/-- What a field has to show for its place in the tree of fields. -/
structure FieldRow where
  id : FieldId
  kind : FieldKind
  attributes : Attributes
  parent : Option FieldId
  children : List FieldId
  attached : List FieldId

/-- A field without its name and its widget. -/
def Field.row (f : Field) : FieldRow :=
  ⟨f.id, f.kind, f.attributes, f.parent, f.children, f.attached⟩

mutual
/-- The elements of an item that make fields. -/
def Cache.Item.fieldTrees : Cache.Item Blueprint → List FieldTree
  | .text _ => []
  | .composite b items =>
    match b.factory.bind Factory.makes with
    | none => fieldTreesOf items
    | some kind => [.node kind b.attributes (fieldTreesOf items)]

/-- The elements of some items that make fields. -/
def Cache.fieldTreesOf : List (Cache.Item Blueprint) → List FieldTree
  | [] => []
  | item :: items => item.fieldTrees ++ fieldTreesOf items
end

namespace FieldTree

/-- The kind of the field. -/
def kind : FieldTree → FieldKind
  | node kind _ _ => kind

/-- Whether the field is made from a header element. -/
def isHeader : FieldTree → Bool
  | node _ attributes _ => attributes.get? Vocabulary.tagKey = some Vocabulary.headerTag

mutual
/-- How many fields a tree makes. -/
def size : FieldTree → Nat
  | node _ _ below => 1 + sizeAll below

/-- How many fields some trees make. -/
def sizeAll : List FieldTree → Nat
  | [] => 0
  | t :: ts => t.size + sizeAll ts
end

/-- Trees with the numbers of their fields, which count all fields in document order. -/
def numbered (start : Nat) : List FieldTree → List (FieldId × FieldTree)
  | [] => []
  | t :: ts => (⟨start⟩, t) :: numbered (start + t.size) ts

/-- What a field of some kind takes for parts of its own: a tab container all panels, a disclosure
the first header. -/
def intercepted (container : FieldKind) (below : List (FieldId × FieldTree)) :
    List (FieldId × FieldTree) :=
  match container with
  | .tabs => below.filter fun e => e.2.kind = .panel
  | .disclosure => (below.find? fun e => e.2.isHeader).toList
  | _ => []

/-- What a field of some kind takes for content. -/
def accepted (container : FieldKind) (below : List (FieldId × FieldTree)) :
    List (FieldId × FieldTree) :=
  match container with
  | .tabs => below.filter fun e => e.2.kind ≠ .panel
  | .disclosure => below.eraseP fun e => e.2.isHeader
  | _ => below

mutual
/-- The fields of a tree in document order. -/
def rows (parent : Option FieldId) (start : Nat) : FieldTree → List FieldRow
  | node kind attributes below =>
    ⟨⟨start⟩, kind, attributes, parent,
      (accepted kind (numbered (start + 1) below)).map Prod.fst,
      (intercepted kind (numbered (start + 1) below)).map Prod.fst⟩ ::
        rowsAll (some ⟨start⟩) (start + 1) below

/-- The fields of some trees in document order. -/
def rowsAll (parent : Option FieldId) (start : Nat) : List FieldTree → List FieldRow
  | [] => []
  | t :: ts => rows parent start t ++ rowsAll parent (start + t.size) ts
end

theorem rowsAll_append (parent : Option FieldId) : ∀ (ts ts' : List FieldTree) (start : Nat),
    rowsAll parent start (ts ++ ts') =
      rowsAll parent start ts ++ rowsAll parent (start + sizeAll ts) ts'
  | [], _, _ => rfl
  | t :: ts, ts', start => by
    rw [List.cons_append, rowsAll, rowsAll, rowsAll_append parent ts ts', List.append_assoc,
      sizeAll, Nat.add_assoc]

theorem intercepted_other {container : FieldKind} (tabs : container ≠ .tabs)
    (disclosure : container ≠ .disclosure) (below : List (FieldId × FieldTree)) :
    intercepted container below = [] := by
  cases container <;> first | rfl | contradiction

theorem accepted_other {container : FieldKind} (tabs : container ≠ .tabs)
    (disclosure : container ≠ .disclosure) (below : List (FieldId × FieldTree)) :
    accepted container below = below := by
  cases container <;> first | rfl | contradiction

end FieldTree

/-! ## Pieces and trees -/

namespace Piece

open FieldTree

mutual
/-- The trees of a piece. -/
def trees : Piece → List FieldTree
  | .run _ => []
  | .field m inner => [.node m.kind m.attributes (treesOf inner)]

/-- The trees of some pieces. -/
def treesOf : List Piece → List FieldTree
  | [] => []
  | x :: xs => x.trees ++ treesOf xs
end

theorem treesOf_append : ∀ xs ys : List Piece, treesOf (xs ++ ys) = treesOf xs ++ treesOf ys
  | [], _ => rfl
  | x :: xs, ys => by
    rw [List.cons_append, treesOf, treesOf, treesOf_append xs ys, List.append_assoc]

mutual
/-- Names and identifiers change no tree. -/
theorem treesOf_ofItem (series : SeriesId) : ∀ (item : Cache.Item Blueprint) (c : CounterPool),
    treesOf (ofItem series c item).1 = item.fieldTrees
  | .text _, _ => rfl
  | .composite b items, c => by
    rw [ofItem, Cache.Item.fieldTrees]
    cases b.factory.bind Factory.makes with
    | none => exact treesOf_ofItems series items _
    | some kind =>
      dsimp only
      rw [treesOf, treesOf, List.append_nil, trees, treesOf_ofItems series items _]
      rfl

theorem treesOf_ofItems (series : SeriesId) : ∀ (items : List (Cache.Item Blueprint))
    (c : CounterPool), treesOf (ofItems series c items).1 = Cache.fieldTreesOf items
  | [], _ => rfl
  | item :: items, c => by
    rw [ofItems, Cache.fieldTreesOf]
    dsimp only
    rw [treesOf_append, treesOf_ofItem series item c, treesOf_ofItems series items _]
end

theorem treesOf_run (text : String) (xs : List Piece) :
    treesOf (.run text :: xs) = treesOf xs := rfl

theorem treesOf_field (m : Made) (inner xs : List Piece) :
    treesOf (.field m inner :: xs) = .node m.kind m.attributes (treesOf inner) :: treesOf xs := rfl

/-- Pieces make as many fields as their trees. -/
theorem sizeAll_treesOf : ∀ xs : List Piece, sizeAll (treesOf xs) = countOf xs
  | [] => rfl
  | .run _ :: xs => by
    rw [treesOf_run, sizeAll_treesOf xs, countOf, count, Nat.zero_add]
  | .field m inner :: xs => by
    rw [treesOf_field, sizeAll, FieldTree.size, sizeAll_treesOf inner, sizeAll_treesOf xs, countOf,
      count]

theorem numbered_field (m : Made) (inner xs : List Piece) (start : Nat) :
    numbered start (treesOf (.field m inner :: xs)) =
      (⟨start⟩, .node m.kind m.attributes (treesOf inner)) ::
        numbered (start + (1 + countOf inner)) (treesOf xs) := by
  rw [treesOf_field, numbered, FieldTree.size, sizeAll_treesOf]

/-! ### What is found in a field -/

section Gather

variable {collects : Bool}

theorem attached_write (g : Gathered) (text : String) : (g.write collects text).attached = g.attached := by
  unfold Gathered.write
  split <;> rfl

theorem children_write (g : Gathered) (text : String) : (g.write collects text).children = g.children := by
  unfold Gathered.write
  split <;> rfl

variable (collects) in
/-- A tab container takes the panels. -/
theorem gather_tabs : ∀ (xs : List Piece) (start : Nat) (g : Gathered),
    (gather (some .tabs) collects start xs g).attached =
        g.attached ++ (intercepted .tabs (numbered start (treesOf xs))).map Prod.fst ∧
      (gather (some .tabs) collects start xs g).children =
        g.children ++ (accepted .tabs (numbered start (treesOf xs))).map Prod.fst
  | [], start, g => by
    simp [gather, treesOf, numbered, intercepted, accepted]
  | .run text :: xs, start, g => by
    obtain ⟨attached, children⟩ := gather_tabs xs start (g.write collects text)
    rw [attached_write] at attached
    rw [children_write] at children
    exact ⟨attached, children⟩
  | .field m inner :: xs, start, g => by
    have role : m.role (some .tabs) g.attached = if m.kind = .panel then .part else .content := by
      unfold Made.role
      simp
    have rest := gather_tabs xs (start + (1 + countOf inner))
      (g.take collects (m.role (some .tabs) g.attached) m.identifier ⟨start⟩)
    rw [gather, rest.1, rest.2, role, numbered_field, intercepted, intercepted, accepted, accepted]
    by_cases panel : m.kind = .panel <;> simp [panel, Gathered.take, FieldTree.kind]

variable (collects) in
/-- A disclosure that has its header takes nothing. -/
theorem gather_headed : ∀ (xs : List Piece) (start : Nat) (g : Gathered), g.attached ≠ [] →
    (gather (some .disclosure) collects start xs g).attached = g.attached ∧
      (gather (some .disclosure) collects start xs g).children =
        g.children ++ (numbered start (treesOf xs)).map Prod.fst
  | [], start, g, _ => by
    simp [gather, treesOf, numbered]
  | .run text :: xs, start, g, headed => by
    obtain ⟨attached, children⟩ := gather_headed xs start (g.write collects text)
      (by rw [attached_write]; exact headed)
    rw [attached_write] at attached
    rw [children_write] at children
    exact ⟨attached, children⟩
  | .field m inner :: xs, start, g, headed => by
    have role : m.role (some .disclosure) g.attached = .content := by
      unfold Made.role
      simp [headed]
    have rest := gather_headed xs (start + (1 + countOf inner))
      (g.take collects .content m.identifier ⟨start⟩) headed
    rw [gather, role, rest.1, rest.2, numbered_field]
    simp [Gathered.take]

variable (collects) in
/-- A disclosure takes the first header. -/
theorem gather_disclosure : ∀ (xs : List Piece) (start : Nat) (g : Gathered), g.attached = [] →
    (gather (some .disclosure) collects start xs g).attached =
        (intercepted .disclosure (numbered start (treesOf xs))).map Prod.fst ∧
      (gather (some .disclosure) collects start xs g).children =
        g.children ++ (accepted .disclosure (numbered start (treesOf xs))).map Prod.fst
  | [], start, g, headless => by
    simp [gather, treesOf, numbered, intercepted, accepted, headless]
  | .run text :: xs, start, g, headless => by
    obtain ⟨attached, children⟩ := gather_disclosure xs start (g.write collects text)
      (by rw [attached_write]; exact headless)
    rw [children_write] at children
    exact ⟨attached, children⟩
  | .field m inner :: xs, start, g, headless => by
    have role : m.role (some .disclosure) g.attached =
        if m.attributes.get? Vocabulary.tagKey = some Vocabulary.headerTag then .part
        else .content := by
      unfold Made.role
      simp [headless]
    rw [gather, role, numbered_field, intercepted, accepted]
    by_cases header : m.attributes.get? Vocabulary.tagKey = some Vocabulary.headerTag
    · rw [if_pos header]
      have rest := gather_headed collects xs (start + (1 + countOf inner))
        (g.take collects .part m.identifier ⟨start⟩) (by simp [Gathered.take])
      rw [rest.1, rest.2]
      simp [Gathered.take, headless, isHeader, header]
    · rw [if_neg header]
      have rest := gather_disclosure xs (start + (1 + countOf inner))
        (g.take collects .content m.identifier ⟨start⟩) headless
      rw [rest.1, rest.2, intercepted, accepted]
      simp [Gathered.take, isHeader, header]

variable (collects) in
/-- Other fields take nothing. -/
theorem gather_other {k : FieldKind} (tabs : k ≠ .tabs) (disclosure : k ≠ .disclosure) :
    ∀ (xs : List Piece) (start : Nat) (g : Gathered),
      (gather (some k) collects start xs g).attached = g.attached ∧
        (gather (some k) collects start xs g).children =
          g.children ++ (numbered start (treesOf xs)).map Prod.fst
  | [], start, g => by
    simp [gather, treesOf, numbered]
  | .run text :: xs, start, g => by
    obtain ⟨attached, children⟩ := gather_other tabs disclosure xs start (g.write collects text)
    rw [attached_write] at attached
    rw [children_write] at children
    exact ⟨attached, children⟩
  | .field m inner :: xs, start, g => by
    have role : m.role (some k) g.attached = .content := by
      unfold Made.role
      simp [tabs, disclosure]
    have rest := gather_other tabs disclosure xs (start + (1 + countOf inner))
      (g.take collects .content m.identifier ⟨start⟩)
    rw [gather, role, rest.1, rest.2, numbered_field]
    simp [Gathered.take]

end Gather

/-- **What is found in a field** are the fields directly below it, parts and content apart. -/
theorem gathered_eq (m : Made) (inner : List Piece) (number : Nat) :
    (gathered m inner number).attached =
        (intercepted m.kind (numbered (number + 1) (treesOf inner))).map Prod.fst ∧
      (gathered m inner number).children =
        (accepted m.kind (numbered (number + 1) (treesOf inner))).map Prod.fst := by
  unfold gathered
  by_cases tabs : m.kind = .tabs
  · have found := gather_tabs m.kind.acceptsPanel inner (number + 1) .none
    rw [tabs] at found ⊢
    exact found
  · by_cases disclosure : m.kind = .disclosure
    · have found := gather_disclosure m.kind.acceptsPanel inner (number + 1) .none rfl
      rw [disclosure] at found ⊢
      exact found
    · have found := gather_other m.kind.acceptsPanel tabs disclosure inner
        (number + 1) .none
      rw [intercepted_other tabs disclosure, accepted_other tabs disclosure]
      exact found

mutual
/-- The rows of an outline are those of the trees. -/
theorem row_rows (parent : Option FieldId) : ∀ (x : Piece) (start : Nat),
    (rows parent start x).map (fun row => (Draft.fieldOf row).row) =
      rowsAll parent start x.trees
  | .run _, _ => rfl
  | .field m inner, start => by
    obtain ⟨attached, children⟩ := gathered_eq m inner start
    rw [rows, List.map_cons, row_rowsOf (some ⟨start⟩) inner (start + 1), trees, rowsAll, rowsAll,
      FieldTree.rows, List.append_nil, ← attached, ← children]
    rfl

theorem row_rowsOf (parent : Option FieldId) : ∀ (xs : List Piece) (start : Nat),
    (rowsOf parent start xs).map (fun row => (Draft.fieldOf row).row) =
      rowsAll parent start (treesOf xs)
  | [], _ => rfl
  | x :: xs, start => by
    have size : sizeAll x.trees = x.count := by
      have single := sizeAll_treesOf [x]
      rw [treesOf, treesOf, List.append_nil] at single
      rw [single, countOf, countOf, Nat.add_zero]
    rw [rowsOf, List.map_append, row_rows parent x start, row_rowsOf parent xs, treesOf,
      rowsAll_append, size]
end

/-- The field that a template as a whole stands for, with what lies in it. -/
def whole (root : Option Made) (inner : List Piece) : List Piece :=
  match root with
  | none => inner
  | some m => [.field m inner]

theorem treesOf_whole {series : SeriesId} {c c' : CounterPool} {t : Template} {root : Option Made}
    {inner : List Piece} (pieces : ofTemplate series c t = (root, inner, c')) :
    treesOf (whole root inner) = t.toItem.fieldTrees := by
  unfold ofTemplate at pieces
  rw [Cache.Composite.toItem, Cache.Item.fieldTrees]
  cases makes : t.payload.factory.bind Factory.makes with
  | none =>
    rw [makes] at pieces
    obtain ⟨rfl, below⟩ := Prod.mk.inj pieces
    rw [whole, ← treesOf_ofItems series t.items (c.next series .placeholder).2, below]
  | some kind =>
    rw [makes] at pieces
    obtain ⟨rfl, below⟩ := Prod.mk.inj pieces
    rw [whole, treesOf_field, treesOf, ← treesOf_ofItems series t.items
      (make series c kind t.payload.attributes).2, below]
    rfl

end Piece

/-! ## The fields of a draft -/

namespace Play

variable {panel : Panel} {root : Option Made} {inner : List Piece} {d : Draft}

/-- Playing a template as a whole. -/
theorem template_eq_ok :
    template (.blank panel) root inner = .ok d ↔ ∃ played,
      pieces (rootField (.blank panel) root) (rootCollects root) inner
        (rootPlay (.blank panel) root) = .ok played ∧ played.settle none id = .ok d := by
  unfold template
  cases pieces (rootField (.blank panel) root) (rootCollects root) inner
      (rootPlay (.blank panel) root) with
  | error e => exact ⟨nofun, fun ⟨_, run, _⟩ => nomatch run⟩
  | ok played =>
    constructor
    · exact fun run => ⟨played, rfl, run⟩
    · rintro ⟨_, same, run⟩
      cases same
      exact run

/-- **A draft has the fields of its template**, one for each row. -/
theorem template_rows (empty : panel.table = .empty)
    (run : template (.blank panel) root inner = .ok d) :
    d.size = Piece.countOf (Piece.whole root inner) ∧
      (∀ row ∈ Piece.rowsOf none 0 (Piece.whole root inner),
        d.field? row.id = some (Draft.fieldOf row)) ∧
      d.panel.table.names = Draft.indexOf .empty (Piece.rowsOf none 0 (Piece.whole root inner)) := by
  obtain ⟨played, run, settle⟩ := template_eq_ok.1 run
  have zero : (Draft.blank panel).size = 0 := by
    unfold Draft.size Draft.blank
    rw [empty]
    rfl
  have names : (Draft.blank panel).panel.table.names = .empty := by
    unfold Draft.blank
    rw [empty]
    rfl
  have open_ := Open.blank empty
  rw [size_settle settle, panel_settle settle]
  simp only [field?_settle settle]
  cases root with
  | none =>
    have outlines := pieces_outlines (g := .none) inner run open_
      ⟨rfl, rfl, nofun, fun _ => rfl⟩
    have rows := outlines.rows
    have names' := outlines.names
    have size' := outlines.size
    rw [rootPlay, Option.elim_none, zero] at rows names' size'
    rw [names] at names'
    exact ⟨size'.trans (Nat.zero_add _), fun row mem => (rows row mem).field, names'⟩
  | some m =>
    have outlines := pieces_outlines inner run (open_.inner true) (Finds.begun true open_)
    have entered : ((Draft.blank panel).enter none m).size = 1 := by
      rw [size_enter, zero]
    have rows := outlines.rows
    have names' := outlines.names
    have size' := outlines.size
    have finds := outlines.finds
    have start : (rootPlay (.blank panel) (some m)).draft = (Draft.blank panel).enter none m := rfl
    have field : rootField (.blank panel) (some m) = some ⟨(Draft.blank panel).size⟩ := rfl
    rw [start, field] at rows names' finds
    rw [entered, zero] at rows names' finds
    rw [start, entered] at size'
    rw [names_enter, names, zero] at names'
    refine ⟨?_, fun row mem => ?_, ?_⟩
    · rw [size', Piece.whole, Piece.countOf, Piece.countOf, Piece.count, Nat.add_zero]
    · rw [Piece.whole, Piece.rowsOf, Piece.rowsOf, List.append_nil, Piece.rows, List.mem_cons] at mem
      rcases mem with rfl | below
      · have made : (Draft.blank panel).made m = .create ⟨0⟩ m.kind m.name m.attributes := by
          unfold Draft.made
          rw [zero]
        obtain ⟨c, same, found⟩ := finds.field _ rfl
        cases same
        dsimp only at found
        rw [made] at found
        exact found
      · exact (rows row below).field
    · rw [names', Piece.whole, Piece.rowsOf, Piece.rowsOf, List.append_nil, Piece.rows]
      rfl

end Play

/-! ## Filling views -/

namespace PanelM

variable {s s' : Scene} {f : FieldId} {field : Field} {w : Widget}

/-- Changing the page leaves the panel as it is. -/
theorem panel_of_onPage {α : Type} {changes : PageM α} {a : α}
    (run : exec (onPage changes) s = (.ok a, s')) : s'.panel = s.panel := by
  rw [onPage_eq_within] at run
  obtain ⟨_, p, _, _, rfl⟩ := exec_within_eq_ok run
  rfl

/-- Building a widget changes no field otherwise. -/
theorem bare_of_realize (run : exec (realize field) s = (.ok w, s')) :
    s'.panel.bare = s.panel.bare := by
  unfold realize at run
  obtain ⟨_, s₁, asked, run⟩ := exec_bind_eq_ok.1 run
  cases asked
  obtain ⟨w', s₂, build, run⟩ := exec_bind_eq_ok.1 run
  obtain ⟨_, s₃, passOn, run⟩ := exec_bind_eq_ok.1 run
  cases passOn
  obtain ⟨_, s₄, kept, run⟩ := exec_bind_eq_ok.1 run
  cases kept
  cases run
  rw [← panel_of_onPage build]
  unfold Panel.bare
  dsimp only
  rw [FieldTable.bare_update_widget]

/-- Asking for a widget changes no field otherwise. -/
theorem bare_of_widget {n : NodeId} (run : exec (widget f) s = (.ok n, s')) :
    s'.panel.bare = s.panel.bare := by
  unfold widget at run
  obtain ⟨w, s₁, first, run⟩ := exec_bind_eq_ok.1 run
  cases run
  unfold widgetOf at first
  obtain ⟨field, s₂, found, second⟩ := exec_bind_eq_ok.1 first
  unfold PanelM.field at found
  obtain ⟨_, s₃, asked, found⟩ := exec_bind_eq_ok.1 found
  cases asked
  cases there : s.panel.field? f with
  | none =>
    rw [there] at found
    cases found
  | some field' =>
    rw [there] at found
    cases found
    cases known : field.widget with
    | none =>
      rw [known] at second
      exact bare_of_realize second
    | some w' =>
      rw [known] at second
      cases second
      rfl

/-- Showing a panel in a view changes no field but for its widget. -/
theorem bare_of_setView {view : Panel} (run : exec (setView f view) s = (.ok (), s')) :
    s'.panel.table.bare = s.panel.table.bare := by
  unfold setView at run
  obtain ⟨root, s₁, asked, run⟩ := exec_bind_eq_ok.1 run
  obtain ⟨_, s₂, append, run⟩ := exec_bind_eq_ok.1 run
  cases run
  have same : s₂.panel.table.bare = s₁.panel.table.bare := by rw [panel_of_onPage append]
  exact same.trans (congrArg Panel.table (bare_of_widget asked))

end PanelM

namespace Builder

variable {build : String → WorkM (Option Panel)} {w w' : Workspace}

theorem onPanel_eq_within {α : Type} (panel : Panel) (operation : PanelM α) :
    onPanel panel operation = within operation (fun w => ⟨panel, w.page, w.counters⟩)
      (fun _ s => ⟨s.page, s.counters⟩) (fun x s => (x, s.panel)) .field := by
  unfold onPanel within
  refine bind_congr fun w => ?_
  rcases operation.run.run ⟨panel, w.page, w.counters⟩ with ⟨_ | _, _⟩ <;> rfl

/-- An operation on a panel in a workspace that answers. -/
theorem exec_onPanel_eq_ok {α : Type} {panel p : Panel} {operation : PanelM α} {x : α}
    (run : exec (onPanel panel operation) w = (.ok (x, p), w')) :
    exec operation ⟨panel, w.page, w.counters⟩ = (.ok x, ⟨p, w'.page, w'.counters⟩) := by
  rw [onPanel_eq_within] at run
  obtain ⟨y, s, asked, answer, rfl⟩ := exec_within_eq_ok run
  cases answer
  exact asked

/-- Filling views changes no field but for its widget. -/
theorem bare_of_fillViews : ∀ {views : List (FieldId × Option String)} {p p' : Panel}
    {w w' : Workspace}, exec (fillViews build p views) w = (.ok p', w') →
      p'.table.bare = p.table.bare
  | [], p, p', w, w', run => by
    cases run
    rfl
  | (_, none) :: views, p, p', w, w', run => by
    rw [fillViews] at run
    exact bare_of_fillViews run
  | (f, some name) :: views, p, p', w, w', run => by
    rw [fillViews] at run
    obtain ⟨shown, w₁, _, run⟩ := exec_bind_eq_ok.1 run
    cases shown with
    | none => exact bare_of_fillViews run
    | some shown =>
      obtain ⟨⟨_, p₁⟩, w₂, filled, run⟩ := exec_bind_eq_ok.1 run
      have same := PanelM.bare_of_setView (exec_onPanel_eq_ok filled)
      exact (bare_of_fillViews run).trans same

end Builder

/-! ## The whole build -/

/-- The rows of a table without its widgets. -/
theorem FieldTable.map_row_bare (t : FieldTable) :
    t.bare.slots.toList.map (Option.map Field.row) = t.slots.toList.map (Option.map Field.row) := by
  unfold FieldTable.bare
  rw [Array.toList_map, List.map_map]
  refine List.map_congr_left fun slot _ => ?_
  cases slot with
  | none => rfl
  | some field => rfl

/-- A table whose fields are known has their rows. -/
theorem FieldTable.map_row_eq {t : FieldTable} {rows : List FieldRow}
    (numbered : rows.map (fun row => row.id.index) = List.range' 0 t.slots.size)
    (fields : ∀ row ∈ rows, ∃ field, t.field? row.id = some field ∧ field.row = row) :
    t.slots.toList.map (Option.map Field.row) = rows.map some := by
  have length : rows.length = t.slots.size := by
    have both := congrArg List.length numbered
    rw [List.length_map, List.length_range'] at both
    exact both
  refine List.ext_getElem? fun i => ?_
  rw [List.getElem?_map, List.getElem?_map, Array.getElem?_toList]
  cases there : rows[i]? with
  | none =>
    rw [List.getElem?_eq_none_iff, length] at there
    rw [Array.getElem?_eq_none there]
    rfl
  | some row =>
    have number : row.id.index = i := by
      have at_ := congrArg (·[i]?) numbered
      have bound : i < t.slots.size := by
        rw [← length]
        exact (List.getElem?_eq_some_iff.1 there).1
      simp only [List.getElem?_map, there, List.getElem?_range' bound, Option.map_some,
        Option.some.injEq] at at_
      omega
    obtain ⟨field, found, same⟩ := fields row (List.mem_of_getElem? there)
    unfold FieldTable.field? at found
    rw [number] at found
    rw [Option.join_eq_some_iff.1 found, Option.map_some, Option.map_some, same]
    rfl

namespace Builder

variable {b : Builder} {name : String} {t : Template} {w w' : Workspace} {p : Panel}

/-- **The tree of fields mirrors the template**: a panel that was built has one field for each
element whose factory makes one, in document order and below the field of the nearest element
around it, which has taken it for a part or for content. -/
theorem build_mirrors (run : exec (b.build name) w = (.ok (some p), w'))
    (known : b.templates.get? name = some t) :
    p.table.slots.toList.map (Option.map Field.row) =
      (FieldTree.rowsAll none 0 t.toItem.fieldTrees).map some := by
  unfold build at run
  rw [buildUpTo, known] at run
  dsimp only at run
  rw [if_neg List.not_mem_nil] at run
  obtain ⟨q, w₁, assembled, run⟩ := exec_bind_eq_ok.1 run
  obtain ⟨p', w₂, filled, run⟩ := exec_bind_eq_ok.1 run
  cases run
  obtain ⟨root, inner, c, pieces⟩ : ∃ root inner c,
      Piece.ofTemplate b.series w.counters t = (root, inner, c) := ⟨_, _, _, rfl⟩
  obtain ⟨done, refused⟩ := b.exec_assemble pieces
  cases played : b.played w.page root inner with
  | error e =>
    obtain ⟨w', run⟩ := refused e played
    rw [run] at assembled
    cases assembled
  | ok d =>
    obtain ⟨s, L, run, depicts, _⟩ := done d played
    rw [run] at assembled
    cases assembled
    obtain ⟨size, fields, _⟩ := Play.template_rows rfl played
    have bare : p.table.bare = d.panel.table :=
      (bare_of_fillViews filled).trans (congrArg Panel.table depicts.bare)
    rw [← p.table.map_row_bare, bare, ← Piece.treesOf_whole pieces, ← Piece.row_rowsOf]
    refine FieldTable.map_row_eq ?_ fun row mem => ?_
    · rw [List.map_map]
      refine Eq.trans ?_ ((Piece.map_id_rowsOf none 0 (Piece.whole root inner)).trans ?_)
      · rfl
      · rw [← size]
        rfl
    · obtain ⟨row', mem', rfl⟩ := List.mem_map.1 mem
      exact ⟨_, fields row' mem', rfl⟩

/-- A tab container with a page and a line of text in it. -/
def tabsTemplate : Template :=
  ⟨⟨none, "", .empty⟩, [.composite ⟨some ⟨0, some .tabs⟩, "", .empty⟩
    [.composite ⟨some ⟨1, some .panel⟩, "", .empty⟩ [],
      .composite ⟨some ⟨2, some .textInput⟩, "", .empty⟩ []]]⟩

/-- A builder that knows it. -/
def tabsBuilder : Builder :=
  ⟨.empty 3, .empty, ⟨0⟩, OrderedMap.empty.insert "tabs" tabsTemplate, .empty⟩

/-- Whether a build gives a panel. -/
def gives (answer : Except BuildError (Option Panel)) : Bool :=
  match answer with
  | .ok (some _) => true
  | _ => false

/-- A build that gives a panel gives some panel. -/
theorem exists_of_gives {answer : Except BuildError (Option Panel)} (given : gives answer = true) :
    ∃ p, answer = .ok (some p) := by
  match answer, given with
  | .ok (some p), _ => exact ⟨p, rfl⟩

theorem build_mirrors_tabs : ∃ p w',
    exec (tabsBuilder.build "tabs") ⟨⟨#[]⟩, ⟨#[.initial]⟩⟩ = (.ok (some p), w') ∧
      p.table.slots.toList.map (Option.map Field.row) =
        [some ⟨⟨0⟩, .tabs, .empty, none, [⟨2⟩], [⟨1⟩]⟩,
          some ⟨⟨1⟩, .panel, .empty, some ⟨0⟩, [], []⟩,
          some ⟨⟨2⟩, .textInput, .empty, some ⟨0⟩, [], []⟩] := by
  have given : gives (exec (tabsBuilder.build "tabs") ⟨⟨#[]⟩, ⟨#[.initial]⟩⟩).1 = true := by
    decide +kernel
  cases run : exec (tabsBuilder.build "tabs") ⟨⟨#[]⟩, ⟨#[.initial]⟩⟩ with
  | mk answer w' =>
    rw [run] at given
    obtain ⟨p, rfl⟩ := exists_of_gives given
    exact ⟨p, w', rfl, build_mirrors run (t := tabsTemplate) rfl⟩

end Builder

end Formwork
