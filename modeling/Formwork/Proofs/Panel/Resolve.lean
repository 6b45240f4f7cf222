import Formwork.Proofs.Page.Read
import Formwork.Proofs.Panel.Create

/-!
# What a panel looks like

The widgets of a panel are put into one another, so its draft describes them with links.  Following
the links (`Draft.Resolves`) says what the panel looks like as a whole.  The panels that views show
are trees of their own on the page (`Scene.Shows`).

What is on the page is what the links resolve to (`Scene.Depicts.resolve`), and no node of it lies
below itself, so it can be written out.
-/

namespace Formwork

set_option autoImplicit false

namespace Draft

/-! ## Following links -/

mutual
/-- A tree without links is what a tree with links stands for. -/
inductive Resolves (d : Draft) (shown : FieldId → Option Html) : Html → Html → Prop where
  | text (content : String) : Resolves d shown (.text content) (.text content)
  | element (tag : String) (attributes : OrderedMap String String) {hs hs' : List Html}
      (children : ResolvesAll d shown hs hs') :
      Resolves d shown (.element tag attributes hs) (.element tag attributes hs')
  | widget {f : FieldId} {field : Field} {h : Html} (found : d.field? f = some field)
      (look : Resolves d shown (d.look field) h) : Resolves d shown (.link (.widget f)) h
  | caption {f : FieldId} {field : Field} {e : Exposure} {h : Html}
      (found : d.field? f = some field) (exposed : d.exposure? field = some e)
      (look : Resolves d shown (field.captionLook d.panel.messages e) h) :
      Resolves d shown (.link (.caption f)) h
  | shown {f : FieldId} {h : Html} (there : shown f = some h) : Resolves d shown (.link (.shown f)) h

/-- Trees without links are what trees with links stand for. -/
inductive ResolvesAll (d : Draft) (shown : FieldId → Option Html) : List Html → List Html → Prop where
  | nil : ResolvesAll d shown [] []
  | cons {h h' : Html} {hs hs' : List Html} (first : Resolves d shown h h')
      (rest : ResolvesAll d shown hs hs') : ResolvesAll d shown (h :: hs) (h' :: hs')
end

variable {d : Draft} {shown : FieldId → Option Html}

mutual
/-- A tree stands for one tree only. -/
theorem Resolves.unique : ∀ {h a b : Html}, Resolves d shown h a → Resolves d shown h b → a = b
  | _, _, _, .text _, .text _ => rfl
  | _, _, _, .element tag attributes first, .element _ _ second => by
    rw [ResolvesAll.unique first second]
  | _, _, _, .widget found first, .widget found' second => by
    cases found.symm.trans found'
    exact Resolves.unique first second
  | _, _, _, .caption found exposed first, .caption found' exposed' second => by
    cases found.symm.trans found'
    cases exposed.symm.trans exposed'
    exact Resolves.unique first second
  | _, _, _, .shown there, .shown there' => Option.some.inj (there.symm.trans there')

theorem ResolvesAll.unique : ∀ {hs as bs : List Html}, ResolvesAll d shown hs as →
    ResolvesAll d shown hs bs → as = bs
  | _, _, _, .nil, .nil => rfl
  | _, _, _, .cons first rest, .cons first' rest' => by
    rw [Resolves.unique first first', ResolvesAll.unique rest rest']
end

end Draft

/-! ## What may be linked to -/

namespace Html

mutual
/-- What a tree links to. -/
def targets : Html → List Link
  | .text _ => []
  | .element _ _ children => targetsOf children
  | .link target => [target]

/-- What some trees link to. -/
def targetsOf : List Html → List Link
  | [] => []
  | h :: hs => h.targets ++ targetsOf hs
end

theorem targetsOf_append : ∀ hs hs' : List Html,
    targetsOf (hs ++ hs') = targetsOf hs ++ targetsOf hs'
  | [], _ => rfl
  | h :: hs, hs' => by
    rw [List.cons_append, targetsOf, targetsOf, targetsOf_append hs hs', List.append_assoc]

theorem targetsOf_map_link (targets : List Link) : targetsOf (targets.map .link) = targets := by
  induction targets with
  | nil => rfl
  | cons target targets ih => rw [List.map_cons, targetsOf, Html.targets, ih, List.singleton_append]

mutual
theorem targets_ofNode : ∀ n : Markup.Node, (Html.ofNode n).targets = []
  | .text _ => rfl
  | .element _ children => targetsOf_ofNodes children

theorem targetsOf_ofNodes : ∀ ns : List Markup.Node, targetsOf (Html.ofNodes ns) = []
  | [] => rfl
  | n :: ns => by rw [Html.ofNodes, targetsOf, targets_ofNode n, targetsOf_ofNodes ns]; rfl
end

end Html

namespace Dom

mutual
theorem targets_html : ∀ d : Dom, d.html.targets = d.links.map Prod.fst
  | .text _ _ => rfl
  | .element _ _ _ children => targetsOf_htmlOf children
  | .link _ _ => rfl

/-- Trees on a page link to what they look like linking to. -/
theorem targetsOf_htmlOf : ∀ ds : List Dom, Html.targetsOf (htmlOf ds) = (linksOf ds).map Prod.fst
  | [] => rfl
  | d :: ds => by
    rw [htmlOf, Html.targetsOf, linksOf, List.map_append, targets_html d, targetsOf_htmlOf ds]
end

end Dom

/-- What was put into a widget. -/
def Parts.targets (parts : Parts) : List Link :=
  Html.targetsOf parts.header.toList ++ Html.targetsOf parts.slot ++
    (Html.targetsOf parts.captions ++ Html.targetsOf parts.pages)

/-- A widget links to what was put into it. -/
theorem Field.targets_look (f : Field) (messages : Messages) (exposure : Option Exposure)
    (parts : Parts) : ∀ t ∈ (f.look messages exposure parts).targets, t ∈ parts.targets := by
  have shownText : ∀ content, Html.targetsOf (Face.shownText content) = [] :=
    fun content => Html.targetsOf_ofNodes _
  have shownMarkup : ∀ html, Html.targetsOf (Face.shownMarkup html) = [] :=
    fun html => Html.targetsOf_ofNodes _
  intro t mem
  have below : t ∈ Html.targetsOf (f.face (f.label? messages) parts).children := mem
  unfold Field.face at below
  unfold Parts.targets
  cases kind : f.kind with
  | disclosure =>
    cases parts with
    | mk header slot captions pages =>
      rw [kind] at below
      cases header with
      | none => simp_all [Face.disclosureSection, Html.targetsOf, Html.targets]
      | some header =>
        simp only [Face.disclosureSection, Option.getD_some, Html.targetsOf, Html.targets,
          List.append_nil, List.mem_append] at below
        simp only [Option.toList_some, Html.targetsOf, List.append_nil, List.mem_append]
        exact .inl below
  | link =>
    rw [kind] at below
    dsimp only [Face.linkElement] at below
    split at below <;> simp_all [Face.plain, Html.targetsOf, Html.targets]
  | _ =>
    simp_all [Face.plain, Face.textControl, Face.checkControl, Face.readOnlyControl,
      Face.headerContainer, Face.tabContainer, Html.targetsOf, Html.targets]

/-! ## What is on the page -/

/-- Whether an owner is the panel or has a tree of a field that shows no other panel. -/
def Owner.isPlain : Owner → Bool
  | .panel => true
  | .tree target => !target.isShown
  | .loose _ => false

/-- The panels that views show lie on the page as trees of their own. -/
structure Scene.Shows (base : Page) (L : Layout) (s : Scene) (doms : FieldId → Option Dom) :
    Prop where
  linked : ∀ {k r f n}, L k = some r → k.isPlain → (.shown f, n) ∈ r.dom.links →
    ∃ dom, doms f = some dom ∧ dom.root = n
  has : ∀ {f dom}, doms f = some dom → ∃ q, s.page.Has q dom
  unlinked : ∀ {f dom}, doms f = some dom → dom.links = []
  apart : ∀ {f dom}, doms f = some dom → dom.Apart []
  fresh : ∀ {f dom}, doms f = some dom → ∀ n ∈ dom.nodes, base.size ≤ n.index
  outside : ∀ {f dom k r}, doms f = some dom → L k = some r → k.isPlain →
    ∀ n ∈ r.dom.nodes, n ∉ dom.nodes

namespace Scene.Depicts

open Draft

variable {base : Page} {L : Layout} {s : Scene} {d : Draft} {doms : FieldId → Option Dom}

/-- A node lies in a tree of a layout that does not come before an owner, or in a panel that is
shown. -/
def Within (L : Layout) (doms : FieldId → Option Dom) (k : Owner) (n : NodeId) : Prop :=
  (∃ j r, k.rank ≤ j.rank ∧ j.isPlain ∧ L j = some r ∧ n ∈ r.dom.nodes) ∨
    ∃ f dom, doms f = some dom ∧ n ∈ dom.nodes

theorem Within.mono {j k : Owner} {n : NodeId} (h : Within L doms k n) (earlier : j.rank ≤ k.rank) :
    Within L doms j n := by
  rcases h with ⟨i, r, later, plain, hr, hn⟩ | nested
  · exact .inl ⟨i, r, Nat.le_trans earlier later, plain, hr, hn⟩
  · exact .inr nested

/-- A tree on the page is what a tree with links stands for. -/
structure Resolved (s : Scene) (L : Layout) (d : Draft) (doms : FieldId → Option Dom) (k : Owner)
    (above : List NodeId) (q : Option NodeId) (html : Html) (dom : Dom) : Prop where
  has : s.page.Has q dom
  unlinked : dom.links = []
  resolves : d.Resolves (fun f => (doms f).map Dom.html) html dom.html
  apart : dom.Apart above
  within : ∀ n ∈ dom.nodes, Within L doms k n

/-- What a link stands for, once the trees that come later are resolved. -/
theorem resolve_link (h : s.Depicts base L d) (shows : s.Shows base L doms) {k : Owner} {r : Region}
    (hk : L k = some r) (plain : k.isPlain)
    (later : ∀ {target t}, L (.tree target) = some t → target.isShown = false →
      k.rank < (Owner.tree target).rank → ∃ dom, dom.root = t.dom.root ∧
        Resolved s L d doms (.tree target) [] t.place t.dom.html dom)
    {target : Link} {n : NodeId} (mem : (target, n) ∈ r.dom.links) {above : List NodeId}
    (inside : ∀ m ∈ above, m ∈ r.dom.nodes) {q : Option NodeId} (place : s.page.parent? n = q) :
    ∃ dom, dom.root = n ∧ Resolved s L d doms k above q (.link target) dom := by
  cases shown : target.isShown with
  | true =>
    obtain ⟨f, rfl⟩ : ∃ f, target = .shown f := by
      cases target with
      | shown f => exact ⟨f, rfl⟩
      | _ => cases shown
    obtain ⟨dom, there, rfl⟩ := shows.linked hk plain mem
    obtain ⟨q', has⟩ := shows.has there
    have same : q' = q := by rw [← place, has.root_parent]
    subst same
    refine ⟨dom, rfl, has, shows.unlinked there, .shown (by rw [there]; rfl), ?_, fun m hm =>
      .inr ⟨f, dom, there, hm⟩⟩
    have apart := (shows.apart there).append (shows.unlinked there) fun m hm held =>
      shows.outside there hk plain m (inside m held) hm
    exact apart
  | false =>
    obtain ⟨t, ht, rfl, order⟩ := h.ordered.linked hk mem shown
    obtain ⟨dom, root, resolved⟩ := later ht shown order
    have same : t.place = q := by
      rw [← place, (h.holds.has ht).root_parent]
    subst same
    refine ⟨dom, root, resolved.has, resolved.unlinked, ?_, ?_, fun m hm =>
      (resolved.within m hm).mono (Nat.le_of_lt order)⟩
    · cases target with
      | shown f => cases shown
      | widget f =>
        obtain ⟨field, w, found, _, draws⟩ := h.exists_drawn ht
        have look := resolved.resolves
        rw [draws.html] at look
        exact .widget found look
      | caption f =>
        obtain ⟨field, e, found, exposed, n, kids, shape, looks⟩ := h.exists_captioned ht
        have look := resolved.resolves
        rw [shape, Dom.html, looks] at look
        exact .caption found exposed look
    · refine resolved.apart.append resolved.unlinked fun m hm held => ?_
      rcases resolved.within m hm with ⟨j, t', notBefore, _, hj, hm'⟩ | ⟨f, nested, there, hm'⟩
      · have ne : j ≠ k := by
          rintro rfl
          exact absurd order (Nat.not_lt_of_le notBefore)
        exact h.holds.apart hj hk ne m hm' (inside m held)
      · exact shows.outside there hk plain m (inside m held) hm'

/-- A list of trees on the page is what trees with links stand for. -/
structure ResolvedAll (s : Scene) (L : Layout) (d : Draft) (doms : FieldId → Option Dom) (k : Owner)
    (above : List NodeId) (q : Option NodeId) (htmls : List Html) (ds : List Dom) : Prop where
  has : s.page.HasAll q ds
  unlinked : Dom.linksOf ds = []
  resolves : d.ResolvesAll (fun f => (doms f).map Dom.html) htmls (Dom.htmlOf ds)
  apart : Dom.ApartAll above ds
  within : ∀ n ∈ Dom.nodesOf ds, Within L doms k n

section Inside

variable {k : Owner} {r : Region}

mutual
/-- A part of a tree is resolved when its links are. -/
theorem resolve_part (h : s.Depicts base L d) (shows : s.Shows base L doms) (hk : L k = some r)
    (plain : k.isPlain)
    (later : ∀ {target t}, L (.tree target) = some t → target.isShown = false →
      k.rank < (Owner.tree target).rank → ∃ dom, dom.root = t.dom.root ∧
        Resolved s L d doms (.tree target) [] t.place t.dom.html dom) :
    ∀ {x : Dom} {q : Option NodeId} {above : List NodeId}, s.page.Has q x → x.nodes.Nodup →
      (∀ n ∈ x.nodes, n ∈ r.dom.nodes) → (∀ l ∈ x.links, l ∈ r.dom.links) →
      (∀ n ∈ above, n ∈ r.dom.nodes) → (∀ n ∈ x.nodes, n ∉ above) →
        ∃ dom, dom.root = x.root ∧ Resolved s L d doms k above q x.html dom
  | .text n content, q, above, has, _, nodes, _, _, outside =>
    ⟨.text n content, rfl, has, rfl, .text content, outside n (by simp [Dom.nodes]), fun m hm =>
      .inl ⟨k, r, Nat.le_refl _, plain, hk, nodes m hm⟩⟩
  | .element n tag attributes children, q, above, has, distinct, nodes, links, inside, outside => by
    rw [Page.Has] at has
    rw [Dom.nodes, List.nodup_cons] at distinct
    have own : n ∈ (Dom.element n tag attributes children).nodes := by simp [Dom.nodes]
    have below : ∀ m ∈ Dom.nodesOf children, m ∈ (Dom.element n tag attributes children).nodes :=
      fun m hm => by simp [Dom.nodes, hm]
    have inside' : ∀ m ∈ n :: above, m ∈ r.dom.nodes := by
      intro m hm
      rcases List.mem_cons.1 hm with rfl | old
      · exact nodes m own
      · exact inside m old
    have outside' : ∀ m ∈ Dom.nodesOf children, m ∉ n :: above := by
      intro m hm mem
      rcases List.mem_cons.1 mem with rfl | old
      · exact distinct.1 hm
      · exact outside m (below m hm) old
    obtain ⟨ds, roots, all⟩ := resolve_parts h shows hk plain later has.2 distinct.2
      (fun m hm => nodes m (below m hm)) links inside' outside'
    refine ⟨.element n tag attributes ds, rfl, ⟨?_, all.has⟩, all.unlinked,
      .element tag attributes all.resolves, ⟨outside n own, all.apart⟩, fun m hm => ?_⟩
    · rw [has.1, roots]
    · rw [Dom.nodes, List.mem_cons] at hm
      rcases hm with rfl | inner
      · exact .inl ⟨k, r, Nat.le_refl _, plain, hk, nodes m own⟩
      · exact all.within m inner
  | .link target n, q, above, has, _, _, links, inside, _ => by
    rw [Page.Has] at has
    have mem := links (target, n) (by simp [Dom.links])
    rw [Dom.root, Dom.html]
    exact h.resolve_link shows hk plain later mem inside has

theorem resolve_parts (h : s.Depicts base L d) (shows : s.Shows base L doms) (hk : L k = some r)
    (plain : k.isPlain)
    (later : ∀ {target t}, L (.tree target) = some t → target.isShown = false →
      k.rank < (Owner.tree target).rank → ∃ dom, dom.root = t.dom.root ∧
        Resolved s L d doms (.tree target) [] t.place t.dom.html dom) :
    ∀ {xs : List Dom} {q : Option NodeId} {above : List NodeId}, s.page.HasAll q xs →
      (Dom.nodesOf xs).Nodup → (∀ n ∈ Dom.nodesOf xs, n ∈ r.dom.nodes) →
      (∀ l ∈ Dom.linksOf xs, l ∈ r.dom.links) → (∀ n ∈ above, n ∈ r.dom.nodes) →
      (∀ n ∈ Dom.nodesOf xs, n ∉ above) →
        ∃ ds, ds.map Dom.root = xs.map Dom.root ∧
          ResolvedAll s L d doms k above q (Dom.htmlOf xs) ds
  | [], _, _, _, _, _, _, _, _ => ⟨[], rfl, trivial, rfl, .nil, trivial, nofun⟩
  | x :: xs, q, above, has, distinct, nodes, links, inside, outside => by
    rw [Page.HasAll] at has
    rw [Dom.nodesOf, List.nodup_append] at distinct
    obtain ⟨dom, root, one⟩ := resolve_part h shows hk plain later has.1
      distinct.1 (fun m hm => nodes m (by simp [Dom.nodesOf, hm]))
      (fun l hl => links l (by simp [Dom.linksOf, hl])) inside
      fun m hm => outside m (by simp [Dom.nodesOf, hm])
    obtain ⟨ds, roots, rest⟩ := resolve_parts h shows hk plain later has.2
      distinct.2.1 (fun m hm => nodes m (by simp [Dom.nodesOf, hm]))
      (fun l hl => links l (by simp [Dom.linksOf, hl])) inside
      fun m hm => outside m (by simp [Dom.nodesOf, hm])
    refine ⟨dom :: ds, by rw [List.map_cons, List.map_cons, root, roots], ⟨one.has, rest.has⟩, ?_,
      .cons one.resolves rest.resolves, ⟨one.apart, rest.apart⟩, fun m hm => ?_⟩
    · rw [Dom.linksOf, one.unlinked, rest.unlinked, List.append_nil]
    · rw [Dom.nodesOf, List.mem_append] at hm
      rcases hm with first | later
      · exact one.within m first
      · exact rest.within m later
end

end Inside

/-- A tree that is linked to is that of a field. -/
theorem rank_le (h : s.Depicts base L d) {target : Link} {t : Region}
    (ht : L (.tree target) = some t) (plain : target.isShown = false) :
    (Owner.tree target).rank ≤ 2 * d.size := by
  have known : d.field? target.field ≠ none := by
    intro absent
    have unknown := h.unknown absent
    cases target with
    | widget f => cases ht.symm.trans unknown.1
    | caption f => cases ht.symm.trans unknown.2
    | shown f => cases plain
  obtain ⟨field, found⟩ := Option.ne_none_iff_exists'.1 known
  have small := Draft.lt_size found
  cases target with
  | shown f => cases plain
  | widget f =>
    show 2 * f.index + 2 ≤ 2 * d.size
    have small' : f.index < d.size := small
    omega
  | caption f =>
    show 2 * f.index + 2 ≤ 2 * d.size
    have small' : f.index < d.size := small
    omega

/-- **Every tree of a panel** is on the page as the tree without links that it stands for. -/
theorem resolve (h : s.Depicts base L d) (shows : s.Shows base L doms) : ∀ (steps : Nat) {k : Owner}
    {r : Region}, L k = some r → k.isPlain → 2 * d.size < steps + k.rank →
      ∃ dom, dom.root = r.dom.root ∧ Resolved s L d doms k [] r.place r.dom.html dom
  | 0, k, r, hk, plain, enough => by
    refine h.resolve_part shows hk plain (fun {target t} ht shown order => ?_) (h.holds.has hk)
      (h.holds.distinct hk) (fun _ hn => hn) (fun _ hl => hl) nofun nofun
    have bound := h.rank_le ht shown
    omega
  | steps + 1, k, r, hk, plain, enough => by
    refine h.resolve_part shows hk plain (fun {target t} ht shown order => ?_) (h.holds.has hk)
      (h.holds.distinct hk) (fun _ hn => hn) (fun _ hl => hl) nofun nofun
    refine h.resolve shows steps ht ?_ (by omega)
    unfold Owner.isPlain
    simp only [shown]
    rfl

/-- **The panel as a whole** is on the page. -/
theorem exists_panel (h : s.Depicts base L d) (shows : s.Shows base L doms) :
    ∃ kids, s.page.Has none (.element s.panel.root "div" .empty kids) ∧ Dom.linksOf kids = [] ∧
      (Dom.element s.panel.root "div" .empty kids).Apart [] ∧
      d.ResolvesAll (fun f => (doms f).map Dom.html) (d.filled none) (Dom.htmlOf kids) ∧
      ∀ n ∈ (Dom.element s.panel.root "div" .empty kids).nodes, base.size ≤ n.index := by
  obtain ⟨kids, there, looks⟩ := h.root
  obtain ⟨dom, root, resolved⟩ := h.resolve shows (2 * d.size + 1) there rfl (by
    show 2 * d.size < 2 * d.size + 1 + 0
    omega)
  have look := resolved.resolves
  rw [Dom.html, looks] at look
  obtain ⟨n, kids', rfl, below⟩ : ∃ n kids', dom = .element n "div" .empty kids' ∧
      d.ResolvesAll (fun f => (doms f).map Dom.html) (d.filled none) (Dom.htmlOf kids') := by
    cases dom with
    | text n content => cases look
    | link target n => cases resolved.unlinked
    | element n tag attributes kids' =>
      rw [Dom.html] at look
      cases look with
      | element _ _ children => exact ⟨n, kids', rfl, children⟩
  obtain rfl : n = s.panel.root := root
  refine ⟨kids', resolved.has, resolved.unlinked, resolved.apart, below, fun m hm => ?_⟩
  rcases resolved.within m hm with ⟨j, r, _, _, hj, hm'⟩ | ⟨f, nested, hf, hm'⟩
  · exact h.holds.fresh hj m hm'
  · exact shows.fresh hf m hm'

end Scene.Depicts

end Formwork
