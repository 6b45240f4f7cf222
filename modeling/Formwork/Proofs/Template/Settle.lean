import Mathlib.Data.List.Dedup
import Formwork.Proofs.Page.Swap
import Formwork.Template.Splice

/-!
# Markup with widgets in the place of its markers

Markers are replaced one after the other in document order, and a field has one widget only.  So
when several elements stand for the same field, the last of them gets the widget and the earlier
ones are gone.  `Placeholders.settle` says what markup becomes; `Dom.spliceAll` is the same for the
trees on a page, step by step, and `Placeholders.inlaid` what the steps leave, with no steps in it.
-/

namespace Formwork

set_option autoImplicit false

/-! ## Links that go away -/

namespace Html

mutual
/-- A tree without the widget of a field. -/
def without (f : FieldId) : Html → List Html
  | .text content => [.text content]
  | .link target => if target = .widget f then [] else [.link target]
  | .element tag attributes children => [.element tag attributes (withoutAll f children)]

def withoutAll (f : FieldId) : List Html → List Html
  | [] => []
  | h :: hs => without f h ++ withoutAll f hs
end

/-- An element around some trees, unless there are none. -/
def boxed (hs : List Html) : List Html := if hs.isEmpty then [] else [.element "div" .empty hs]

/-- Trees without the widgets of some fields. -/
def withoutEach (fs : List FieldId) (hs : List Html) : List Html :=
  fs.foldl (fun hs f => withoutAll f hs) hs

end Html

namespace Placeholders

/-! ## What markup becomes -/

mutual
/-- The fields that the outermost markers of a node stand for. -/
def markedIn (placeholders : Placeholders) : Markup.Node → List FieldId
  | .text _ => []
  | .element tag children =>
    match placeholders.fieldOf? tag with
    | some field => [field]
    | none => markedAmong placeholders children

def markedAmong (placeholders : Placeholders) : List Markup.Node → List FieldId
  | [] => []
  | n :: ns => markedIn placeholders n ++ markedAmong placeholders ns
end

mutual
/-- What a node of markup becomes when widgets take the place of its markers. -/
def settleNode (placeholders : Placeholders) : Markup.Node → List Html
  | .text content => [.text content]
  | .element tag children =>
    match placeholders.fieldOf? tag with
    | some field => [.link (.widget field)]
    | none => [.element tag.qname tag.plainAttributes (settle placeholders children)]

/-- What markup becomes when widgets take the place of its markers. -/
def settle (placeholders : Placeholders) : List Markup.Node → List Html
  | [] => []
  | n :: ns =>
    Html.withoutEach (markedAmong placeholders ns) (settleNode placeholders n) ++
      settle placeholders ns
end

/-- Markup does not vanish: the last of its nodes stays, or its widget does. -/
theorem settle_ne_nil (placeholders : Placeholders) : ∀ {ns : List Markup.Node}, ns ≠ [] →
    placeholders.settle ns ≠ []
  | [n], _ => by
    cases n with
    | text content => exact List.cons_ne_nil _ _
    | element tag children =>
      show Html.withoutEach [] (placeholders.settleNode (.element tag children)) ++ [] ≠ []
      rw [List.append_nil]
      show placeholders.settleNode (.element tag children) ≠ []
      rw [settleNode]
      cases placeholders.fieldOf? tag <;> exact List.cons_ne_nil _ _
  | n :: m :: ns, _ => by
    rw [settle]
    exact List.append_ne_nil_of_right_ne_nil _ (settle_ne_nil placeholders (List.cons_ne_nil m ns))

mutual
theorem map_field_markersIn (placeholders : Placeholders) : ∀ (q : NodeId) (number : Nat)
    (n : Markup.Node),
    (placeholders.markersIn q number n).map Marker.field = placeholders.markedIn n
  | _, _, .text _ => rfl
  | q, number, .element tag children => by
    rw [markersIn, markedIn]
    cases placeholders.fieldOf? tag with
    | some field => rfl
    | none => exact map_field_markersAmong placeholders _ _ children

theorem map_field_markersAmong (placeholders : Placeholders) : ∀ (q : NodeId) (number : Nat)
    (ns : List Markup.Node),
    (placeholders.markersAmong q number ns).map Marker.field = placeholders.markedAmong ns
  | _, _, [] => rfl
  | q, number, n :: ns => by
    rw [markersAmong, markedAmong, List.map_append, map_field_markersIn placeholders q number n,
      map_field_markersAmong placeholders q _ ns]
end

mutual
/-- The markers of a node are among the nodes that it becomes. -/
theorem mem_markersIn {placeholders : Placeholders} {m : Marker} : ∀ {q : NodeId} {number : Nat}
    {n : Markup.Node}, m ∈ placeholders.markersIn q number n →
      number ≤ m.node.index ∧ m.node.index < number + n.count
  | _, _, .text _, mem => by cases mem
  | q, number, .element tag children, mem => by
    rw [markersIn] at mem
    rw [Markup.Node.count]
    split at mem
    · rw [List.mem_singleton] at mem
      subst mem
      exact ⟨Nat.le_refl _, by dsimp only; omega⟩
    · have below := mem_markersAmong mem
      omega

theorem mem_markersAmong {placeholders : Placeholders} {m : Marker} : ∀ {q : NodeId}
    {number : Nat} {ns : List Markup.Node}, m ∈ placeholders.markersAmong q number ns →
      number ≤ m.node.index ∧ m.node.index < number + Markup.countOf ns
  | _, _, [], mem => by cases mem
  | q, number, n :: ns, mem => by
    rw [markersAmong, List.mem_append] at mem
    rw [Markup.countOf]
    rcases mem with here | later
    · have range := mem_markersIn here
      omega
    · have range := mem_markersAmong later
      omega
end

mutual
/-- Markers stand for fields that the identifiers stand for. -/
theorem field_of_mem_markersIn {placeholders : Placeholders} {m : Marker} : ∀ {q : NodeId}
    {number : Nat} {n : Markup.Node}, m ∈ placeholders.markersIn q number n →
      ∃ identifier, placeholders.get? identifier = some m.field
  | _, _, .text _, mem => by cases mem
  | q, number, .element tag children, mem => by
    rw [markersIn] at mem
    split at mem
    · case h_1 field found =>
      rw [List.mem_singleton] at mem
      subst mem
      obtain ⟨identifier, _, there⟩ := Option.bind_eq_some_iff.1 found
      exact ⟨identifier, there⟩
    · exact field_of_mem_markersAmong mem

theorem field_of_mem_markersAmong {placeholders : Placeholders} {m : Marker} : ∀ {q : NodeId}
    {number : Nat} {ns : List Markup.Node}, m ∈ placeholders.markersAmong q number ns →
      ∃ identifier, placeholders.get? identifier = some m.field
  | _, _, [], mem => by cases mem
  | q, number, n :: ns, mem => by
    rw [markersAmong, List.mem_append] at mem
    rcases mem with here | later
    · exact field_of_mem_markersIn here
    · exact field_of_mem_markersAmong later
end

end Placeholders

/-! ## The same on trees of a page -/

namespace Dom

/-- Put the nodes of widgets in the place of markers, one after the other. -/
def spliceAll (steps : List (Marker × NodeId)) (ds : List Dom) : List Dom :=
  steps.foldl (fun ds e =>
    swapAll e.1.node (.widget e.1.field) [.link (.widget e.1.field) e.2] ds) ds

theorem spliceAll_append (first second : List (Marker × NodeId)) (ds : List Dom) :
    spliceAll (first ++ second) ds = spliceAll second (spliceAll first ds) := List.foldl_append

theorem spliceAll_append_trees : ∀ (steps : List (Marker × NodeId)) (ds es : List Dom),
    spliceAll steps (ds ++ es) = spliceAll steps ds ++ spliceAll steps es
  | [], _, _ => rfl
  | e :: steps, ds, es => by
    show spliceAll steps (swapAll _ _ _ (ds ++ es)) = _
    rw [swapAll_append, spliceAll_append_trees steps]
    rfl

/-- Nothing changes where no marker and no widget is. -/
theorem spliceAll_of_absent : ∀ {steps : List (Marker × NodeId)} {ds : List Dom},
    (∀ e ∈ steps, e.1.node ∉ nodesOf ds) → linksOf ds = [] → spliceAll steps ds = ds
  | [], _, _, _ => rfl
  | e :: steps, ds, absent, unlinked => by
    have same : swapAll e.1.node (.widget e.1.field) [.link (.widget e.1.field) e.2] ds = ds := by
      refine swapAll_of_absent (absent e List.mem_cons_self) fun l hl => ?_
      rw [unlinked] at hl
      cases hl
    show spliceAll steps (swapAll _ _ _ ds) = ds
    rw [same]
    exact spliceAll_of_absent (fun e' mem => absent e' (List.mem_cons_of_mem _ mem)) unlinked

theorem nodesOf_spliceAll : ∀ (steps : List (Marker × NodeId)) (ds : List Dom),
    (nodesOf (spliceAll steps ds)).Sublist (nodesOf ds)
  | [], _ => List.Sublist.refl _
  | _ :: steps, ds => (nodesOf_spliceAll steps _).trans (nodesOf_swapAll rfl ds)

/-- An element that is no marker is changed below. -/
theorem spliceAll_element {n : NodeId} {tag : String} {attributes : OrderedMap String String} :
    ∀ {steps : List (Marker × NodeId)} {children : List Dom}, (∀ e ∈ steps, n ≠ e.1.node) →
      spliceAll steps [.element n tag attributes children] =
        [.element n tag attributes (spliceAll steps children)]
  | [], _, _ => rfl
  | e :: steps, children, other => by
    show spliceAll steps (swapAll _ _ _ [_]) = _
    rw [swapAll, swapAll, swap, if_neg (other e List.mem_cons_self), List.append_nil]
    exact spliceAll_element fun e' mem => other e' (List.mem_cons_of_mem _ mem)

mutual
/-- Where a marker is not, its widget goes away. -/
theorem html_swap_of_absent {n : NodeId} {f : FieldId} {new : List Dom} : ∀ {d : Dom},
    n ∉ d.nodes → htmlOf (swap n (.widget f) new d) = d.html.without f
  | .text _ _, _ => rfl
  | .link target m, _ => by
    rw [swap, html, Html.without]
    split <;> rfl
  | .element m tag attributes children, absent => by
    rw [nodes, List.mem_cons, not_or] at absent
    rw [swap, if_neg fun same => absent.1 same.symm, html, Html.without, htmlOf, htmlOf, html,
      html_swapAll_of_absent absent.2]

theorem html_swapAll_of_absent {n : NodeId} {f : FieldId} {new : List Dom} : ∀ {ds : List Dom},
    n ∉ nodesOf ds → htmlOf (swapAll n (.widget f) new ds) = Html.withoutAll f (htmlOf ds)
  | [], _ => rfl
  | d :: ds, absent => by
    rw [nodesOf, List.mem_append, not_or] at absent
    rw [swapAll, htmlOf_append, htmlOf, Html.withoutAll, html_swap_of_absent absent.1,
      html_swapAll_of_absent absent.2]
end

theorem html_spliceAll_of_absent : ∀ {steps : List (Marker × NodeId)} {ds : List Dom},
    (∀ e ∈ steps, e.1.node ∉ nodesOf ds) →
      htmlOf (spliceAll steps ds) =
        Html.withoutEach (steps.map fun e => e.1.field) (htmlOf ds)
  | [], _, _ => rfl
  | e :: steps, ds, absent => by
    have first : htmlOf (swapAll e.1.node (.widget e.1.field) [.link (.widget e.1.field) e.2] ds) =
        Html.withoutAll e.1.field (htmlOf ds) := html_swapAll_of_absent (absent e List.mem_cons_self)
    show htmlOf (spliceAll steps (swapAll _ _ _ ds)) = _
    rw [html_spliceAll_of_absent fun e' mem there => absent e' (List.mem_cons_of_mem _ mem)
      ((nodesOf_swapAll rfl ds).subset there), first]
    rfl

variable {placeholders : Placeholders}

mutual
/-- **Replacing the markers of imported markup** settles it. -/
theorem html_spliceAll_ofNode : ∀ (q : NodeId) (number : Nat) (n : Markup.Node)
    {steps : List (Marker × NodeId)}, steps.map Prod.fst = placeholders.markersIn q number n →
      htmlOf (spliceAll steps [ofNode number n]) = placeholders.settleNode n
  | _, _, .text _, steps, eq => by
    obtain rfl := List.map_eq_nil_iff.1 eq
    rfl
  | q, number, .element tag children, steps, eq => by
    rw [Placeholders.markersIn] at eq
    rw [Placeholders.settleNode, ofNode]
    cases found : placeholders.fieldOf? tag with
    | some field =>
      rw [found] at eq
      obtain ⟨⟨m, w⟩, rfl, rfl⟩ := List.map_eq_singleton_iff.1 eq
      show htmlOf (swapAll ⟨number⟩ _ _ [_]) = _
      rw [swapAll, swapAll, swap, if_pos rfl]
      rfl
    | none =>
      rw [found] at eq
      dsimp only at eq ⊢
      have other : ∀ e ∈ steps, (⟨number⟩ : NodeId) ≠ e.1.node := by
        intro e mem same
        have range := Placeholders.mem_markersAmong (eq ▸ List.mem_map_of_mem mem)
        rw [← same] at range
        simp only at range
        omega
      rw [spliceAll_element other, htmlOf, htmlOf, html, html_spliceAll_ofNodes _ _ children eq]

theorem html_spliceAll_ofNodes : ∀ (q : NodeId) (number : Nat) (ns : List Markup.Node)
    {steps : List (Marker × NodeId)}, steps.map Prod.fst = placeholders.markersAmong q number ns →
      htmlOf (spliceAll steps (ofNodes number ns)) = placeholders.settle ns
  | _, _, [], steps, eq => by
    obtain rfl := List.map_eq_nil_iff.1 eq
    rfl
  | q, number, n :: ns, steps, eq => by
    rw [Placeholders.markersAmong] at eq
    obtain ⟨first, second, rfl, eq₁, eq₂⟩ := List.map_eq_append_iff.1 eq
    have fields : second.map (fun e => e.1.field) = placeholders.markedAmong ns := by
      rw [← Placeholders.map_field_markersAmong placeholders q (number + n.count), ← eq₂,
        List.map_map]
      rfl
    have apart₁ : ∀ e ∈ first, e.1.node ∉ nodesOf (ofNodes (number + n.count) ns) := by
      intro e mem there
      have range := Placeholders.mem_markersIn (eq₁ ▸ List.mem_map_of_mem mem)
      have range' := mem_nodesOf_ofNodes there
      omega
    have apart₂ : ∀ e ∈ second, e.1.node ∉ nodesOf (spliceAll first [ofNode number n]) := by
      intro e mem there
      have range := Placeholders.mem_markersAmong (eq₂ ▸ List.mem_map_of_mem mem)
      have inside := (nodesOf_spliceAll first _).subset there
      rw [nodesOf, nodesOf, List.append_nil] at inside
      have range' := mem_nodes_ofNode inside
      omega
    have split : ofNodes number (n :: ns) =
        [ofNode number n] ++ ofNodes (number + n.count) ns := rfl
    rw [split, spliceAll_append, spliceAll_append_trees, spliceAll_append_trees, htmlOf_append,
      spliceAll_of_absent apart₁ (linksOf_ofNodes _ _), html_spliceAll_of_absent apart₂, fields,
      html_spliceAll_ofNode q number n eq₁, html_spliceAll_ofNodes q _ ns eq₂,
      Placeholders.settle]
end

end Dom

/-! ## The trees that are left -/

namespace Placeholders

mutual
/-- The trees that a node of markup leaves behind, whose topmost node was to have a number.  A field has
one widget, which stands where the last marker of the field was; so it does not stand here if the field is
one of those that are marked `later`. -/
def inlaidNode (placeholders : Placeholders) (root : FieldId → NodeId) (later : List FieldId)
    (number : Nat) : Markup.Node → List Dom
  | .text content => [.text ⟨number⟩ content]
  | .element tag children =>
    match placeholders.fieldOf? tag with
    | some f => if f ∈ later then [] else [.link (.widget f) (root f)]
    | none => [.element ⟨number⟩ tag.qname tag.plainAttributes
        (inlaid placeholders root later (number + 1) children)]

/-- The trees that some siblings leave behind, the first of which was to have a number. -/
def inlaid (placeholders : Placeholders) (root : FieldId → NodeId) (later : List FieldId)
    (number : Nat) : List Markup.Node → List Dom
  | [] => []
  | n :: ns => inlaidNode placeholders root (markedAmong placeholders ns ++ later) number n ++
      inlaid placeholders root later (number + n.count) ns
end

variable {placeholders : Placeholders} {root : FieldId → NodeId}

mutual
theorem inlaidNode_congr : ∀ (n : Markup.Node) {number : Nat} {later later' : List FieldId},
    (∀ f, f ∈ later ↔ f ∈ later') →
    placeholders.inlaidNode root later number n = placeholders.inlaidNode root later' number n
  | .text _, _, _, _, _ => rfl
  | .element tag children, number, _, _, same => by
    rw [inlaidNode, inlaidNode, inlaid_congr children same]
    simp only [same]

theorem inlaid_congr : ∀ (ns : List Markup.Node) {number : Nat} {later later' : List FieldId},
    (∀ f, f ∈ later ↔ f ∈ later') →
    placeholders.inlaid root later number ns = placeholders.inlaid root later' number ns
  | [], _, _, _, _ => rfl
  | n :: ns, number, later, later', same => by
    have all : ∀ f, f ∈ placeholders.markedAmong ns ++ later ↔
        f ∈ placeholders.markedAmong ns ++ later' := fun f => by
      rw [List.mem_append, List.mem_append, same f]
    rw [inlaid, inlaid, inlaidNode_congr n all, inlaid_congr ns same]
end

mutual
/-- Where a marker is not, the widget of its field goes away. -/
theorem swapAll_inlaidNode {m : NodeId} {f : FieldId} {new : List Dom} {later : List FieldId} :
    ∀ (n : Markup.Node) {number : Nat}, m.index < number ∨ number + n.count ≤ m.index →
      Dom.swapAll m (.widget f) new (placeholders.inlaidNode root later number n) =
        placeholders.inlaidNode root (f :: later) number n
  | .text _, _, _ => rfl
  | .element tag children, number, outside => by
    rw [inlaidNode, inlaidNode]
    rw [Markup.Node.count] at outside
    cases placeholders.fieldOf? tag with
    | some g =>
      by_cases same : g = f
      · simp [same, Dom.swapAll, Dom.swap, apply_ite]
      · simp [same, Dom.swapAll, Dom.swap, apply_ite]
    | none =>
      have other : (⟨number⟩ : NodeId) ≠ m := by
        rintro rfl
        simp only at outside
        omega
      dsimp only
      rw [Dom.swapAll, Dom.swapAll, Dom.swap, if_neg other, List.append_nil,
        swapAll_inlaid children (by omega)]

theorem swapAll_inlaid {m : NodeId} {f : FieldId} {new : List Dom} {later : List FieldId} :
    ∀ (ns : List Markup.Node) {number : Nat},
      m.index < number ∨ number + Markup.countOf ns ≤ m.index →
      Dom.swapAll m (.widget f) new (placeholders.inlaid root later number ns) =
        placeholders.inlaid root (f :: later) number ns
  | [], _, _ => rfl
  | n :: ns, number, outside => by
    rw [Markup.countOf] at outside
    have all : ∀ g, g ∈ f :: (placeholders.markedAmong ns ++ later) ↔
        g ∈ placeholders.markedAmong ns ++ f :: later := fun g => by
      simp [or_left_comm]
    rw [inlaid, inlaid, Dom.swapAll_append, swapAll_inlaidNode n (by omega),
      swapAll_inlaid ns (by omega), inlaidNode_congr n all]
end

/-- Where markers are not, the widgets of their fields go away. -/
theorem spliceAll_inlaid {ns : List Markup.Node} {number : Nat} :
    ∀ {steps : List (Marker × NodeId)} {later : List FieldId},
      (∀ e ∈ steps, e.1.node.index < number ∨ number + Markup.countOf ns ≤ e.1.node.index) →
      Dom.spliceAll steps (placeholders.inlaid root later number ns) =
        placeholders.inlaid root (steps.map (fun e => e.1.field) ++ later) number ns
  | [], _, _ => rfl
  | e :: steps, later, outside => by
    have all : ∀ g, g ∈ steps.map (fun e => e.1.field) ++ e.1.field :: later ↔
        g ∈ (e :: steps).map (fun e => e.1.field) ++ later := fun g => by
      simp [or_left_comm]
    show Dom.spliceAll steps (Dom.swapAll _ _ _ _) = _
    rw [swapAll_inlaid ns (outside e List.mem_cons_self),
      spliceAll_inlaid fun e' mem => outside e' (List.mem_cons_of_mem _ mem), inlaid_congr ns all]

mutual
/-- **Replacing the markers of imported markup** one after the other leaves these trees. -/
theorem spliceAll_ofNode : ∀ (q : NodeId) (number : Nat) (n : Markup.Node)
    {steps : List (Marker × NodeId)}, steps.map Prod.fst = placeholders.markersIn q number n →
      (∀ e ∈ steps, e.2 = root e.1.field) →
      Dom.spliceAll steps [Dom.ofNode number n] = placeholders.inlaidNode root [] number n
  | _, _, .text _, steps, eq, _ => by
    obtain rfl := List.map_eq_nil_iff.1 eq
    rfl
  | q, number, .element tag children, steps, eq, roots => by
    rw [markersIn] at eq
    rw [inlaidNode, Dom.ofNode]
    cases found : placeholders.fieldOf? tag with
    | some field =>
      rw [found] at eq
      obtain ⟨⟨m, w⟩, rfl, rfl⟩ := List.map_eq_singleton_iff.1 eq
      obtain rfl : w = root field := roots _ (List.mem_singleton_self _)
      show Dom.swapAll ⟨number⟩ _ _ [_] = _
      rw [Dom.swapAll, Dom.swapAll, Dom.swap, if_pos rfl]
      rfl
    | none =>
      rw [found] at eq
      dsimp only at eq ⊢
      have other : ∀ e ∈ steps, (⟨number⟩ : NodeId) ≠ e.1.node := by
        intro e mem same
        have range := mem_markersAmong (eq ▸ List.mem_map_of_mem mem)
        rw [← same] at range
        simp only at range
        omega
      rw [Dom.spliceAll_element other, spliceAll_ofNodes _ _ children eq roots]

theorem spliceAll_ofNodes : ∀ (q : NodeId) (number : Nat) (ns : List Markup.Node)
    {steps : List (Marker × NodeId)}, steps.map Prod.fst = placeholders.markersAmong q number ns →
      (∀ e ∈ steps, e.2 = root e.1.field) →
      Dom.spliceAll steps (Dom.ofNodes number ns) = placeholders.inlaid root [] number ns
  | _, _, [], steps, eq, _ => by
    obtain rfl := List.map_eq_nil_iff.1 eq
    rfl
  | q, number, n :: ns, steps, eq, roots => by
    rw [markersAmong] at eq
    obtain ⟨first, second, rfl, eq₁, eq₂⟩ := List.map_eq_append_iff.1 eq
    have fields : second.map (fun e => e.1.field) = placeholders.markedAmong ns := by
      rw [← map_field_markersAmong placeholders q (number + n.count), ← eq₂, List.map_map]
      rfl
    have apart₁ : ∀ e ∈ first, e.1.node ∉ Dom.nodesOf (Dom.ofNodes (number + n.count) ns) := by
      intro e mem there
      have range := mem_markersIn (eq₁ ▸ List.mem_map_of_mem mem)
      have range' := Dom.mem_nodesOf_ofNodes there
      omega
    have apart₂ : ∀ e ∈ second, e.1.node.index < number ∨
        number + Markup.countOf [n] ≤ e.1.node.index := by
      intro e mem
      have range := mem_markersAmong (eq₂ ▸ List.mem_map_of_mem mem)
      exact .inr range.1
    have moved : Dom.spliceAll second (placeholders.inlaidNode root [] number n) =
        placeholders.inlaidNode root (placeholders.markedAmong ns ++ []) number n := by
      have single : ∀ later, placeholders.inlaidNode root later number n =
          placeholders.inlaid root later number [n] := fun _ => (List.append_nil _).symm
      rw [single, spliceAll_inlaid apart₂, fields, ← single]
    have split : Dom.ofNodes number (n :: ns) =
        [Dom.ofNode number n] ++ Dom.ofNodes (number + n.count) ns := rfl
    rw [split, Dom.spliceAll_append, Dom.spliceAll_append_trees, Dom.spliceAll_append_trees,
      Dom.spliceAll_of_absent apart₁ (Dom.linksOf_ofNodes _ _),
      spliceAll_ofNode q number n eq₁ fun e mem => roots e (List.mem_append_left _ mem),
      spliceAll_ofNodes q _ ns eq₂ fun e mem => roots e (List.mem_append_right _ mem), moved, inlaid]
end

/-- Of what is repeated in the second of two lists, the first one keeps nothing. -/
theorem dedup_append_eq {α : Type} [DecidableEq α] (bs : List α) : ∀ as : List α,
    (as ++ bs).dedup = as.dedup.filter (· ∉ bs) ++ bs.dedup
  | [] => rfl
  | a :: as => by
    rw [List.cons_append]
    by_cases again : a ∈ as
    · rw [List.dedup_cons_of_mem again, List.dedup_cons_of_mem (List.mem_append_left _ again),
        dedup_append_eq bs as]
    · rw [List.dedup_cons_of_notMem again]
      by_cases later : a ∈ bs
      · rw [List.dedup_cons_of_mem (List.mem_append_right _ later), dedup_append_eq bs as,
          List.filter_cons_of_neg (by simpa using later)]
      · rw [List.dedup_cons_of_notMem (by simp [again, later]), dedup_append_eq bs as,
          List.filter_cons_of_pos (by simpa using later), List.cons_append]

mutual
theorem linksOf_inlaidNode : ∀ (n : Markup.Node) {number : Nat} {later : List FieldId},
    Dom.linksOf (placeholders.inlaidNode root later number n) =
      ((placeholders.markedIn n).dedup.filter (· ∉ later)).map fun f => (.widget f, root f)
  | .text _, _, _ => rfl
  | .element tag children, number, later => by
    rw [inlaidNode, markedIn]
    cases placeholders.fieldOf? tag with
    | some f =>
      by_cases again : f ∈ later
      · simp [again, Dom.linksOf]
      · simp [again, Dom.linksOf, Dom.links]
    | none =>
      dsimp only
      rw [Dom.linksOf, Dom.links, Dom.linksOf, List.append_nil, linksOf_inlaid_later children]

theorem linksOf_inlaid_later : ∀ (ns : List Markup.Node) {number : Nat} {later : List FieldId},
    Dom.linksOf (placeholders.inlaid root later number ns) =
      ((placeholders.markedAmong ns).dedup.filter (· ∉ later)).map fun f => (.widget f, root f)
  | [], _, _ => rfl
  | n :: ns, number, later => by
    rw [inlaid, Dom.linksOf_append, linksOf_inlaidNode n, linksOf_inlaid_later ns, markedAmong,
      dedup_append_eq, List.filter_append, List.map_append, List.filter_filter]
    simp only [List.mem_append, not_or, Bool.decide_and, Bool.and_comm]
end

/-- **Every field that is marked has its widget there once**, in the order of the last markers. -/
theorem linksOf_inlaid (ns : List Markup.Node) (number : Nat) :
    Dom.linksOf (placeholders.inlaid root [] number ns) =
      (placeholders.markedAmong ns).dedup.map fun f => (.widget f, root f) := by
  rw [linksOf_inlaid_later]
  simp

/-- Without numbers the trees are the settled markup. -/
theorem htmlOf_inlaid (ns : List Markup.Node) (number : Nat) :
    Dom.htmlOf (placeholders.inlaid root [] number ns) = placeholders.settle ns := by
  -- the parent of the markers does not matter
  have markers : ((placeholders.markersAmong ⟨0⟩ number ns).map fun m => (m, root m.field)).map
      Prod.fst = placeholders.markersAmong ⟨0⟩ number ns := by
    rw [List.map_map]
    exact List.map_id _
  rw [← spliceAll_ofNodes ⟨0⟩ number ns markers fun e mem => ?_]
  · exact Dom.html_spliceAll_ofNodes ⟨0⟩ number ns markers
  · obtain ⟨m, _, rfl⟩ := List.mem_map.1 mem
    rfl

end Placeholders

end Formwork
