import Formwork.Proofs.Page.Steps
import Formwork.Proofs.Widget.Look

/-!
# Widgets that are built look as they should

Building a widget makes new elements, sets their attributes and puts them into one another.  The
trees made so far are kept in a list; a tree that became part of another leaves its place in the
list empty.  `Builds` says what a step of building does to this list, and a widget is built by
composing such steps.  The result is the tree that `Field.face` describes, with the nodes that
the widget remembers in the places where they belong (`Widget.Fits`).
-/

namespace Formwork

set_option autoImplicit false

/-- The layout of trees in progress. -/
def Layout.ofList (ds : List (Option Dom)) : Layout
  | .loose i => ds[i]?.join.map fun d => ⟨none, d⟩
  | _ => none

namespace Layout

variable {ds : List (Option Dom)} {d : Dom} {i : Nat}

theorem ofList_nil : ofList [] = fun _ => none := by
  funext k
  cases k <;> rfl

theorem ofList_loose (found : ds[i]? = some (some d)) :
    ofList ds (.loose i) = some ⟨none, d⟩ := by
  rw [ofList, found]
  rfl

theorem ofList_set (h : i < ds.length) (e : Option Dom) :
    ofList (ds.set i e) = Function.update (ofList ds) (.loose i) (e.map fun d => ⟨none, d⟩) := by
  funext k
  cases k with
  | panel =>
    have other : Owner.panel ≠ .loose i := nofun
    exact (Function.update_of_ne other _ _).symm
  | tree target =>
    have other : Owner.tree target ≠ .loose i := nofun
    exact (Function.update_of_ne other _ _).symm
  | loose j =>
    by_cases same : j = i
    · subst same
      rw [Function.update_self, ofList, List.getElem?_set_self h]
      rfl
    · rw [Function.update_of_ne fun equal => same (Owner.loose.inj equal), ofList, ofList,
        List.getElem?_set_ne fun equal => same equal.symm]

theorem ofList_append (ds : List (Option Dom)) (d : Dom) :
    ofList (ds ++ [some d]) =
      Function.update (ofList ds) (.loose ds.length) (some ⟨none, d⟩) := by
  funext k
  cases k with
  | panel =>
    have other : Owner.panel ≠ .loose ds.length := nofun
    exact (Function.update_of_ne other _ _).symm
  | tree target =>
    have other : Owner.tree target ≠ .loose ds.length := nofun
    exact (Function.update_of_ne other _ _).symm
  | loose j =>
    by_cases same : j = ds.length
    · subst same
      rw [Function.update_self]
      exact ofList_loose (List.getElem?_concat_length)
    · rw [Function.update_of_ne fun equal => same (Owner.loose.inj equal), ofList, ofList,
        List.getElem?_append]
      split
      · rfl
      · rw [List.getElem?_eq_none (by simp; omega), List.getElem?_eq_none (by omega)]

theorem lt_length (found : ds[i]? = some (some d)) : i < ds.length :=
  (List.getElem?_eq_some_iff.1 found).1

end Layout

/-! ## Steps of building -/

/-- What a step answers when the trees `ds` were made on top of a page, and what trees there are
then. -/
def Builds {α : Type} (p : Page) (ds : List (Option Dom)) (m : PageM α)
    (answers : α → List (Option Dom) → Prop) : Prop :=
  ∀ p', Page.Holds p p' (Layout.ofList ds) →
    ∃ a p'' ds', exec m p' = (.ok a, p'') ∧ Page.Holds p p'' (Layout.ofList ds') ∧ answers a ds'

namespace Builds

variable {α β : Type} {p : Page} {ds : List (Option Dom)}

theorem pure {a : α} {answers : α → List (Option Dom) → Prop} (done : answers a ds) :
    Builds p ds (Pure.pure a) answers := fun p' h => ⟨a, p', ds, rfl, h, done⟩

theorem bind {m : PageM α} {f : α → PageM β} {answers : α → List (Option Dom) → Prop}
    {answers' : β → List (Option Dom) → Prop} (first : Builds p ds m answers)
    (second : ∀ a ds', answers a ds' → Builds p ds' (f a) answers') :
    Builds p ds (m >>= f) answers' := by
  intro p' h
  obtain ⟨a, p'', ds', run, h', done⟩ := first p' h
  obtain ⟨b, p''', ds'', run', h'', done'⟩ := second a ds' done p'' h'
  exact ⟨b, p''', ds'', by rw [exec_bind_ok run, run'], h'', done'⟩

theorem mono {m : PageM α} {answers answers' : α → List (Option Dom) → Prop}
    (h : Builds p ds m answers) (weaker : ∀ a ds', answers a ds' → answers' a ds') :
    Builds p ds m answers' := by
  intro p' holds
  obtain ⟨a, p'', ds', run, holds', done⟩ := h p' holds
  exact ⟨a, p'', ds', run, holds', weaker a ds' done⟩

/-- A new element is one more tree. -/
theorem element (tag : String) :
    Builds p ds (PageM.element tag) fun n ds' =>
      ds' = ds ++ [some (.element n tag .empty [])] := by
  intro p' h
  refine ⟨⟨p'.size⟩, (p'.createElement tag).2, _, rfl, ?_, rfl⟩
  rw [Layout.ofList_append]
  exact h.create (.loose ds.length) tag .empty

variable {i : Nat} {d : Dom} {n : NodeId} {tag : String} {attributes : OrderedMap String String}
  {children : List Dom}

theorem updateAttrs (tree : ds[i]? = some (some d))
    (found : d.find? n = some (tag, attributes, children)) {m : PageM Unit}
    (f : OrderedMap String String → OrderedMap String String)
    (run : ∀ p', exec m p' = (.ok (), p'.updateAttrs n f)) :
    Builds p ds m fun _ ds' => ds' = ds.set i (some (d.edit n fun attributes children =>
      (f attributes, children))) := by
  intro p' h
  refine ⟨(), _, _, run p', ?_, rfl⟩
  rw [Layout.ofList_set (Layout.lt_length tree)]
  exact h.updateAttrs (Layout.ofList_loose tree) found f

/-- An attribute is set in the tree that has the element. -/
theorem setAttr (tree : ds[i]? = some (some d))
    (found : d.find? n = some (tag, attributes, children)) (name value : String) :
    Builds p ds (PageM.setAttr n name value) fun _ ds' =>
      ds' = ds.set i (some (d.edit n fun attributes children =>
        (attributes.insert name value, children))) :=
  updateAttrs tree found (fun attributes => attributes.insert name value) fun _ => rfl

/-- A flag is set or removed in the tree that has the element. -/
theorem setFlag (tree : ds[i]? = some (some d))
    (found : d.find? n = some (tag, attributes, children)) (name : String) (on : Bool) :
    Builds p ds (PageM.setFlag n name on) fun _ ds' =>
      ds' = ds.set i (some (d.edit n fun attributes children =>
        (if on then attributes.insert name name else attributes.erase name, children))) := by
  refine updateAttrs tree found
    (fun attributes => if on then attributes.insert name name else attributes.erase name) ?_
  intro p'
  cases on <;> rfl

/-- Content is put into an element that has none. -/
theorem setContent (tree : ds[i]? = some (some d))
    (found : d.find? n = some (tag, attributes, [])) {m : PageM Unit} (ms : List Markup.Node)
    (run : ∀ p', p'.tag? n = some tag → p'.children n = [] →
      exec m p' = (.ok (), p'.importNodes n ms)) :
    Builds p ds m fun _ ds' => ∃ kids, Dom.htmlOf kids = Html.ofNodes ms ∧ Dom.linksOf kids = [] ∧
      ds' = ds.set i (some (d.edit n fun attributes children => (attributes, children ++ kids))) := by
  intro p' h
  have hk := Layout.ofList_loose tree
  obtain ⟨_, _, q, there⟩ := (h.has hk).find found
  refine ⟨(), _, _, run p' (Page.tag?_eq there) (Page.children_eq there), ?_,
    Dom.ofNodes p'.size ms, Dom.htmlOf_ofNodes _ _, Dom.linksOf_ofNodes _ _, rfl⟩
  rw [Layout.ofList_set (Layout.lt_length tree)]
  exact h.importNodes hk found ms

theorem setText (tree : ds[i]? = some (some d))
    (found : d.find? n = some (tag, attributes, [])) (content : String) :
    Builds p ds (PageM.setText n content) fun _ ds' =>
      ∃ kids, Dom.htmlOf kids = Html.ofNodes (Page.textNodes content) ∧ Dom.linksOf kids = [] ∧
        ds' = ds.set i (some (d.edit n fun attributes children =>
          (attributes, children ++ kids))) := by
  refine setContent tree found _ fun p' element none => ?_
  rw [← Page.setText_eq element none]
  rfl

theorem setMarkupOrText (tree : ds[i]? = some (some d))
    (found : d.find? n = some (tag, attributes, [])) (html : String) :
    Builds p ds (PageM.setMarkupOrText n html) fun _ ds' =>
      ∃ kids, Dom.htmlOf kids = Html.ofNodes (Page.nodesOrText html) ∧ Dom.linksOf kids = [] ∧
        ds' = ds.set i (some (d.edit n fun attributes children =>
          (attributes, children ++ kids))) := by
  refine setContent tree found _ fun p' element none => ?_
  rw [← Page.setMarkupOrText_eq element none]
  rfl

/-- A tree becomes part of another. -/
theorem append {j : Nat} {x : Dom} (tree : ds[i]? = some (some d))
    (found : d.find? n = some (tag, attributes, children)) (other : ds[j]? = some (some x))
    (ne : j ≠ i) {m : NodeId} (top : x.root = m) :
    Builds p ds (PageM.append n m) fun _ ds' =>
      ds' = (ds.set j none).set i (some (d.edit n fun attributes children =>
        (attributes, children ++ [x]))) := by
  subst top
  intro p' h
  have hk := Layout.ofList_loose tree
  have hj := Layout.ofList_loose other
  have apart : Owner.loose j ≠ Owner.loose i := fun same => ne (Owner.loose.inj same)
  have outside : p'.contains x.root n = false := by
    refine h.contains_eq_false (· = .loose i) ?_ rfl hk ((h.has hk).find found).1 ?_
    · rintro _ r q rfl hr place
      rw [hk] at hr
      cases hr
      cases place
    · rintro _ s rfl hs mem
      exact h.apart hj hs apart x.root (h.rooted hj) mem
  obtain ⟨p'', run, _, h'⟩ := h.appendTree hk found hj apart outside
  refine ⟨(), p'', _, PageM.exec_append_of_ok run, ?_, rfl⟩
  rw [Layout.ofList_set (by rw [List.length_set]; exact Layout.lt_length tree),
    Layout.ofList_set (Layout.lt_length other)]
  exact h'

/-- Two trees become the content of an element that has none. -/
theorem appendBoth {x y : Dom} {m m' : NodeId} {next : PageM α} {answers : α → List (Option Dom) → Prop}
    (top : x.root = m) (top' : y.root = m')
    (rest : Builds p [some (.element n tag attributes [x, y]), none, none] next answers) :
    Builds p [some (.element n tag attributes []), some x, some y]
      (do PageM.append n m; PageM.append n m'; next) answers := by
  refine bind (append (i := 0) (j := 1) rfl (Dom.find?_root ..) rfl (by decide) top) ?_
  rintro _ _ rfl
  simp only [Dom.edit_root, List.set_cons_succ, List.set_cons_zero, List.nil_append]
  refine bind (append (i := 0) (j := 2) rfl (Dom.find?_root ..) rfl (by decide) top') ?_
  rintro _ _ rfl
  simp only [Dom.edit_root, List.set_cons_succ, List.set_cons_zero, List.cons_append, List.nil_append]
  exact rest

/-- The nodes of a tree in progress are distinct. -/
theorem distinct {m : PageM α} {answers : α → List (Option Dom) → Prop}
    (tree : ds[i]? = some (some d)) (step : d.nodes.Nodup → Builds p ds m answers) :
    Builds p ds m answers := fun p' h => step (h.distinct (Layout.ofList_loose tree)) p' h

end Builds

/-! ## The widgets -/

namespace Widget

variable {p : Page}

theorem set_last (ds : List (Option Dom)) (x y : Option Dom) :
    (ds ++ [x]).set ds.length y = ds ++ [y] := by
  rw [List.set_append_right _ _ (Nat.le_refl _), Nat.sub_self]
  rfl

theorem builds_inputControl (ds : List (Option Dom)) (type name : String) :
    Builds p ds (inputControl type name) fun n ds' =>
      ds' = ds ++ [some (.element n "input" (Face.inputAttributes type name) [])] := by
  refine Builds.bind (Builds.element "input") ?_
  rintro n _ rfl
  refine Builds.bind (Builds.setAttr List.getElem?_concat_length (Dom.find?_root ..) "type" type) ?_
  rintro _ _ rfl
  rw [Dom.edit_root, set_last]
  refine Builds.bind (Builds.setAttr List.getElem?_concat_length (Dom.find?_root ..) "name" name) ?_
  rintro _ _ rfl
  rw [Dom.edit_root, set_last]
  exact Builds.pure rfl

/-- What building a widget of a field must come to. -/
def Done (f : Field) (label : Option String) (w : Widget) (ds : List (Option Dom)) : Prop :=
  ∃ (i : Nat) (d : Dom), ds[i]? = some (some d) ∧ w.IsNew f label d

variable {f : Field} {label : Option String}

theorem Done.intro {w : Widget} {ds : List (Option Dom)} {kids : List Dom} {tag : String}
    {attributes : OrderedMap String String} {children : List Html} (i : Nat)
    (tree : ds[i]? = some (some (.element w.root tag attributes kids)))
    (face : f.face label .none = ⟨tag, attributes, children⟩)
    (looks : Dom.htmlOf kids = children) (fits : w.Fits f.kind kids)
    (unlinked : Dom.linksOf kids = []) (isEmpty : w.IsEmpty) : Done f label w ds := by
  refine ⟨i, _, tree, ⟨kids, ?_, ?_, fits⟩, unlinked, isEmpty⟩
  · rw [face]
  · rw [face, looks]

theorem builds_textControl (type : String)
    (face : f.face label .none = .textControl type f)
    (fits : ∀ w kids, Widget.Fits w f.kind kids) :
    Builds p [] (textControl type f) (Done f label) := by
  unfold textControl
  refine Builds.bind (builds_inputControl [] type f.name) ?_
  rintro root _ rfl
  cases given : f.defaultValue? with
  | none =>
    rw [Face.textControl, given] at face
    exact Builds.pure (Done.intro 0 rfl face rfl (fits _ _) rfl trivial)
  | some value =>
    rw [Face.textControl, given] at face
    refine Builds.bind (Builds.setAttr (i := 0) rfl (Dom.find?_root ..) "value" value) ?_
    rintro _ _ rfl
    rw [Dom.edit_root]
    exact Builds.pure (Done.intro 0 rfl face rfl (fits _ _) rfl trivial)

/-- A control to check has its box in front of its label. -/
theorem builds_checkControl_tree (type : String) :
    Builds p [] (checkControl type f label) fun w ds => ∃ root box caption shown,
      w = .check root box (f.defaultValue? <|> label)
        (f.attributes.flag Vocabulary.checkedKey false) ∧
      Dom.htmlOf shown = Face.shownMarkup label ∧ Dom.linksOf shown = [] ∧
      ds = [some (.element root "span" .empty
        [.element box "input" (if f.attributes.flag Vocabulary.checkedKey false then
            (Face.inputAttributes type f.name).insert "checked" "checked"
          else (Face.inputAttributes type f.name).erase "checked") [],
          .element caption "label" .empty shown]), none, none] := by
  unfold checkControl
  refine Builds.bind (Builds.element "span") ?_
  rintro root _ rfl
  refine Builds.bind (builds_inputControl _ type f.name) ?_
  rintro box _ rfl
  refine Builds.bind (Builds.element "label") ?_
  rintro caption _ rfl
  simp only [List.nil_append, List.cons_append]
  refine Builds.bind (Builds.setMarkupOrText (i := 2) rfl (Dom.find?_root ..) (label.getD "")) ?_
  rintro _ _ ⟨kids, looks, unlinked, rfl⟩
  simp only [Dom.edit_root, List.set_cons_succ, List.set_cons_zero, List.nil_append]
  refine Builds.appendBoth rfl rfl ?_
  refine Builds.distinct (i := 0) rfl fun distinct => ?_
  refine Builds.bind (Builds.setFlag (i := 0) rfl (Dom.find?_child [] distinct) "checked"
    (f.attributes.flag Vocabulary.checkedKey false)) ?_
  rintro _ _ rfl
  rw [Dom.edit_child [] distinct]
  exact Builds.pure ⟨root, box, caption, kids, rfl, looks, unlinked, rfl⟩

theorem builds_checkControl (type : String)
    (face : f.face label .none = .checkControl type f label)
    (fits : ∀ w kids, Widget.Fits w f.kind kids) :
    Builds p [] (checkControl type f label) (Done f label) := by
  refine (builds_checkControl_tree type).mono ?_
  rintro w ds ⟨root, box, caption, shown, rfl, looks, unlinked, rfl⟩
  refine Done.intro 0 rfl face ?_ (fits _ _) ?_ trivial
  · simp [Dom.htmlOf, Dom.html, looks]
  · simp [Dom.links, Dom.linksOf, unlinked]

/-- A control that shows its value has a hidden input in front of the place for the value. -/
theorem builds_readOnlyControl_tree :
    Builds p [] (readOnlyControl f) fun w ds => ∃ root hidden view, w = .readOnly root hidden view ∧
      ds = [some (.element root "div" .empty
        [.element hidden "input" (Face.inputAttributes "hidden" f.name) [],
          .element view "div" .empty []]), none, none] := by
  unfold readOnlyControl
  refine Builds.bind (Builds.element "div") ?_
  rintro root _ rfl
  refine Builds.bind (builds_inputControl _ "hidden" f.name) ?_
  rintro hidden _ rfl
  refine Builds.bind (Builds.element "div") ?_
  rintro view _ rfl
  simp only [List.nil_append, List.cons_append]
  refine Builds.appendBoth rfl rfl ?_
  exact Builds.pure ⟨root, hidden, view, rfl, rfl⟩

theorem builds_readOnlyControl (face : f.face label .none = .readOnlyControl f)
    (fits : ∀ w kids, Widget.Fits w f.kind kids) :
    Builds p [] (readOnlyControl f) (Done f label) := by
  refine builds_readOnlyControl_tree.mono ?_
  rintro w ds ⟨root, hidden, view, rfl, rfl⟩
  exact Done.intro 0 rfl face rfl (fits _ _) rfl trivial

theorem builds_headerContainer (face : f.face label .none = .headerContainer f [])
    (kind : f.kind = .header) : Builds p [] (headerContainer f) (Done f label) := by
  unfold headerContainer
  refine Builds.bind (Builds.element "div") ?_
  rintro root _ rfl
  -- with or without a style class the rest is the same
  have rest : ∀ attributes, Face.headerContainer f [] = ⟨"div", attributes, [.element "div" .empty []]⟩ →
      Builds p [some (.element root "div" attributes [])] (do
        let content ← PageM.element "div"
        PageM.append root content
        return .container root content) (Done f label) := by
    intro attributes own
    refine Builds.bind (Builds.element "div") ?_
    rintro content _ rfl
    simp only [List.cons_append, List.nil_append]
    refine Builds.bind (Builds.append (i := 0) (j := 1) rfl (Dom.find?_root ..) rfl (by decide) rfl) ?_
    rintro _ _ rfl
    simp only [Dom.edit_root, List.set_cons_succ, List.set_cons_zero, List.nil_append]
    refine Builds.pure (Done.intro 0 rfl (face.trans own) rfl ?_ rfl trivial)
    rw [kind]
    exact ⟨content, [], rfl, rfl⟩
  cases given : f.attr? Vocabulary.switchKey with
  | none =>
    refine rest _ ?_
    rw [Face.headerContainer, given]
  | some style =>
    refine Builds.bind (Builds.setAttr (i := 0) rfl (Dom.find?_root ..) "class" style) ?_
    rintro _ _ rfl
    simp only [Dom.edit_root, List.nil_append, List.set_cons_zero]
    refine rest _ ?_
    rw [Face.headerContainer, given]

theorem builds_disclosureSection (face : f.face label .none = .disclosureSection f label .none)
    (kind : f.kind = .disclosure) : Builds p [] (disclosureSection f label) (Done f label) := by
  unfold disclosureSection
  refine Builds.bind (Builds.element "details") ?_
  rintro root _ rfl
  refine Builds.bind (Builds.element "summary") ?_
  rintro header _ rfl
  refine Builds.bind (Builds.element "div") ?_
  rintro content _ rfl
  simp only [List.nil_append, List.cons_append]
  refine Builds.appendBoth rfl rfl ?_
  refine Builds.bind (Builds.setFlag (i := 0) rfl (Dom.find?_root ..) "open"
    (f.attributes.flag Vocabulary.openKey false)) ?_
  rintro _ _ rfl
  refine Builds.bind (Builds.element "span") ?_
  rintro caption _ rfl
  simp only [Dom.edit_root, List.set_cons_zero, List.cons_append, List.nil_append]
  refine Builds.bind (Builds.setText (i := 3) rfl (Dom.find?_root ..) (label.getD "")) ?_
  rintro _ _ ⟨kids, looks, unlinked, rfl⟩
  simp only [Dom.edit_root, List.set_cons_succ, List.set_cons_zero, List.nil_append]
  refine Builds.distinct (i := 0) rfl fun distinct => ?_
  refine Builds.bind (Builds.append (i := 0) (j := 3) rfl (Dom.find?_child [] distinct)
    rfl (by decide) rfl) ?_
  rintro _ _ rfl
  rw [Dom.edit_child [] distinct]
  refine Builds.pure (Done.intro 0 rfl face ?_ ?_ ?_ rfl)
  · simp [Dom.htmlOf, Dom.html, looks, Face.shownText, Parts.none]
  · rw [kind]
    exact ⟨header, content, _, _, _, rfl, rfl⟩
  · simp [Dom.links, Dom.linksOf, unlinked]

theorem builds_tabContainer (face : f.face label .none = .tabContainer [] [])
    (kind : f.kind = .tabs) : Builds p [] tabContainer (Done f label) := by
  unfold tabContainer
  refine Builds.bind (Builds.element "div") ?_
  rintro root _ rfl
  refine Builds.bind (Builds.element "div") ?_
  rintro bar _ rfl
  refine Builds.bind (Builds.element "div") ?_
  rintro deck _ rfl
  simp only [List.nil_append, List.cons_append]
  refine Builds.bind (Builds.setAttr (i := 1) rfl (Dom.find?_root ..) "class" "tab-bar") ?_
  rintro _ _ rfl
  simp only [Dom.edit_root, List.set_cons_succ, List.set_cons_zero]
  refine Builds.bind (Builds.setAttr (i := 2) rfl (Dom.find?_root ..) "class" "tab-deck") ?_
  rintro _ _ rfl
  simp only [Dom.edit_root, List.set_cons_succ, List.set_cons_zero]
  refine Builds.appendBoth rfl rfl ?_
  refine Builds.pure (Done.intro 0 rfl face rfl ?_ rfl ⟨rfl, rfl⟩)
  rw [kind]
  exact ⟨bar, deck, [], [], [], none, rfl, rfl⟩

/-- A new element is filled, and shows some markup then. -/
def Fills (p : Page) (fill : NodeId → PageM Unit) (html : List Html) : Prop :=
  ∀ n tag, Builds p [some (.element n tag .empty [])] (fill n) fun _ ds =>
    ∃ kids, Dom.htmlOf kids = html ∧ Dom.linksOf kids = [] ∧ ds = [some (.element n tag .empty kids)]

theorem fills_setText (text : String) :
    Fills p (fun n => PageM.setText n text) (Html.ofNodes (Page.textNodes text)) := by
  refine fun n tag => (Builds.setText (i := 0) rfl (Dom.find?_root ..) text).mono fun _ ds => ?_
  rintro ⟨kids, looks, unlinked, rfl⟩
  rw [Dom.edit_root]
  exact ⟨kids, looks, unlinked, rfl⟩

theorem fills_setMarkupOrText (html : String) :
    Fills p (fun n => PageM.setMarkupOrText n html) (Html.ofNodes (Page.nodesOrText html)) := by
  refine fun n tag => (Builds.setMarkupOrText (i := 0) rfl (Dom.find?_root ..) html).mono fun _ ds => ?_
  rintro ⟨kids, looks, unlinked, rfl⟩
  rw [Dom.edit_root]
  exact ⟨kids, looks, unlinked, rfl⟩

/-- A widget that is one element, filled with what it shows. -/
theorem builds_filled {tag : String} {wrap : NodeId → Widget} {fill : NodeId → PageM Unit}
    {html : List Html} (root : ∀ n, (wrap n).root = n) (isEmpty : ∀ n, (wrap n).IsEmpty)
    (fits : ∀ n kids, (wrap n).Fits f.kind kids) (fills : Fills p fill html)
    (face : f.face label .none = .plain tag html) :
    Builds p [] (do let n ← PageM.element tag; fill n; return wrap n) (Done f label) := by
  refine Builds.bind (Builds.element tag) ?_
  rintro n _ rfl
  refine Builds.bind (fills n tag) ?_
  rintro _ _ ⟨kids, looks, unlinked, rfl⟩
  have tree : [some (Dom.element n tag .empty kids)][0]? =
      some (some (.element (wrap n).root tag .empty kids)) := by
    rw [root]
    rfl
  exact Builds.pure (Done.intro 0 tree face looks (fits n _) unlinked (isEmpty n))

theorem builds_textLabel (tag : String) (face : f.face label .none = .plain tag (Face.shownText label))
    (fits : ∀ w kids, Widget.Fits w f.kind kids) :
    Builds p [] (textLabel tag label) (Done f label) :=
  builds_filled (fun _ => rfl) (fun _ => trivial) (fun _ => fits _) (fills_setText _) face

theorem builds_linkElement (face : f.face label .none = .linkElement f label)
    (fits : ∀ w kids, Widget.Fits w f.kind kids) :
    Builds p [] (linkElement f label) (Done f label) := by
  unfold linkElement
  refine Builds.bind (Builds.element "a") ?_
  rintro link _ rfl
  refine Builds.bind (Builds.setAttr (i := 0) rfl (Dom.find?_root ..) "href"
    ("#" ++ (f.attr? Vocabulary.tokenKey).getD "")) ?_
  rintro _ _ rfl
  simp only [Dom.edit_root, List.nil_append, List.set_cons_zero]
  refine Builds.bind (Builds.setText (i := 0) rfl (Dom.find?_root ..) (label.getD "")) ?_
  rintro _ _ ⟨kids, looks, unlinked, rfl⟩
  simp only [Dom.edit_root, List.nil_append, List.set_cons_zero]
  cases inLine : f.attributes.flag Vocabulary.inlineKey true with
  | true =>
    rw [Face.linkElement, inLine] at face
    exact Builds.pure (Done.intro 0 rfl face looks (fits _ _) unlinked trivial)
  | false =>
    rw [Face.linkElement, inLine] at face
    refine Builds.bind (Builds.element "div") ?_
    rintro block _ rfl
    simp only [List.cons_append, List.nil_append]
    refine Builds.bind (Builds.append (i := 1) (j := 0) rfl (Dom.find?_root ..) rfl (by decide) rfl) ?_
    rintro _ _ rfl
    simp only [Dom.edit_root, List.set_cons_succ, List.set_cons_zero, List.nil_append]
    refine Builds.pure (Done.intro 1 rfl face ?_ (fits _ _) ?_ trivial)
    · simp [Dom.htmlOf, Dom.html, looks, Face.shownText, Face.linkAttributes]
    · simp [Dom.links, Dom.linksOf, unlinked]

theorem builds_plain {tag : String} {wrap : NodeId → Widget} (root : ∀ n, (wrap n).root = n)
    (isEmpty : ∀ n, (wrap n).IsEmpty) (fits : ∀ n kids, (wrap n).Fits f.kind kids)
    (face : f.face label .none = .plain tag []) :
    Builds p [] (do return wrap (← PageM.element tag)) (Done f label) := by
  refine Builds.bind (Builds.element tag) ?_
  rintro n _ rfl
  have tree : ([] ++ [some (Dom.element n tag .empty [])] : List (Option Dom))[0]? =
      some (some (.element (wrap n).root tag .empty [])) := by
    rw [root]
    rfl
  exact Builds.pure (Done.intro 0 tree face rfl (fits n _) rfl (isEmpty n))

/-- The kinds whose widgets remember no node in a place of its own. -/
theorem fits_of_kind {k : FieldKind} (kind : f.kind = k)
    (other : k ∉ [.panel, .inlinePanel, .view, .header, .disclosure, .tabs]) (w : Widget)
    (kids : List Dom) : w.Fits f.kind kids := by
  rw [kind]
  cases k <;> trivial

/-- **Every widget looks as its field says when it is built.** -/
theorem builds_build (f : Field) (label : Option String) :
    Builds p [] (Widget.build f label) (Done f label) := by
  unfold Widget.build
  cases kind : f.kind
  case html =>
    exact builds_plain (fun _ => rfl) (fun _ => trivial) (fun _ => fits_of_kind kind (by decide) _)
      (by rw [Field.face, kind])
  case inlineHtml =>
    exact builds_plain (fun _ => rfl) (fun _ => trivial) (fun _ => fits_of_kind kind (by decide) _)
      (by rw [Field.face, kind])
  case textInput =>
    exact builds_textControl "text" (by rw [Field.face, kind]) (fits_of_kind kind (by decide))
  case password =>
    exact builds_textControl "password" (by rw [Field.face, kind]) (fits_of_kind kind (by decide))
  case hidden =>
    exact builds_textControl "hidden" (by rw [Field.face, kind]) (fits_of_kind kind (by decide))
  case fileUpload =>
    refine Builds.bind (builds_inputControl [] "file" f.name) ?_
    rintro root _ rfl
    exact Builds.pure (Done.intro 0 rfl (by rw [Field.face, kind]; rfl) rfl
      (fits_of_kind kind (by decide) _ _) rfl trivial)
  case textArea =>
    refine Builds.bind (Builds.element "textarea") ?_
    rintro root _ rfl
    refine Builds.bind (Builds.setAttr (i := 0) rfl (Dom.find?_root ..) "name" f.name) ?_
    rintro _ _ rfl
    simp only [Dom.edit_root, List.nil_append, List.set_cons_zero]
    refine Builds.bind (Builds.setText (i := 0) rfl (Dom.find?_root ..)
      (f.defaultValue?.getD "")) ?_
    rintro _ _ ⟨kids, looks, unlinked, rfl⟩
    rw [Dom.edit_root]
    exact Builds.pure (Done.intro 0 rfl (by rw [Field.face, kind]; rfl) looks
      (fits_of_kind kind (by decide) _ _) unlinked trivial)
  case checkbox =>
    exact builds_checkControl "checkbox" (by rw [Field.face, kind]) (fits_of_kind kind (by decide))
  case radio =>
    exact builds_checkControl "radio" (by rw [Field.face, kind]) (fits_of_kind kind (by decide))
  case readOnly =>
    exact builds_readOnlyControl (by rw [Field.face, kind]) (fits_of_kind kind (by decide))
  case button | submit | clear | cancel =>
    exact builds_filled (fun _ => rfl) (fun _ => trivial) (fun _ => fits_of_kind kind (by decide) _)
      (fills_setText _) (by rw [Field.face, kind]; rfl)
  case panel | view =>
    exact builds_plain (fun _ => rfl) (fun _ => trivial)
      (fun _ _ => by rw [kind]; rfl)
      (by rw [Field.face, kind]; rfl)
  case inlinePanel =>
    exact builds_plain (fun _ => rfl) (fun _ => trivial)
      (fun _ _ => by rw [kind]; rfl)
      (by rw [Field.face, kind]; rfl)
  case header => exact builds_headerContainer (by rw [Field.face, kind]; rfl) kind
  case disclosure => exact builds_disclosureSection (by rw [Field.face, kind]) kind
  case tabs => exact builds_tabContainer (by rw [Field.face, kind]; rfl) kind
  case blockLabel =>
    exact builds_textLabel "div" (by rw [Field.face, kind]) (fits_of_kind kind (by decide))
  case label =>
    exact builds_textLabel "span" (by rw [Field.face, kind]) (fits_of_kind kind (by decide))
  case htmlLabel =>
    exact builds_filled (fun _ => rfl) (fun _ => trivial) (fun _ => fits_of_kind kind (by decide) _)
      (fills_setMarkupOrText _) (by rw [Field.face, kind]; rfl)
  case link =>
    exact builds_linkElement (by rw [Field.face, kind]) (fits_of_kind kind (by decide))

end Widget

end Formwork
