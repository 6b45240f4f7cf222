import Mathlib.Data.List.DropRight
import Mathlib.Order.Bounds.Defs
import Formwork.Cache.Compile
import Formwork.Proofs.Cache.Canonical

/-!
# What compiling a tree means

The compiler threads one text accumulator and the composite being filled through a walk of the
source tree.  Here the same cache is described without walking.  First the hooks are asked about
every node, which gives the *trace* of the tree: its visited nodes with the texts and the seeds
that the hooks answered, and the list of the failures that were met, in visiting order.  A trace
then has *items*, the contributions of its nodes: the text before a node, its content, and the
text behind it, with the content and the text behind it packed into a composite when the node has
a seed.

**Compiling.**  The cache of a tree is its root composite extended by the items of its trace,
unless a hook failed; then it is the first failure (`Hooks.compile_denotes`).

**Walking.**  What carries the induction is stated for arbitrary text pending and an arbitrary
composite begun: visiting a node gathers the items of its trace (`Hooks.visit_eq`), and gathered
items are what a closed filling is extended by (`Filling.close_gather`).

**Hooks.**  The text behind the content of a dynamic node may depend on its composite.  What the
hook sees is the seed extended by the items of the content, less the texts at their end, which are
pending when it is asked (`Filling.composite_gather`).
-/

namespace Formwork.Cache

set_option autoImplicit false

variable {ν α ε β γ : Type}

/-! ## Failures -/

/-- The failure of an answer, if it is one. -/
def failure : Except ε β → List ε
  | .ok _ => []
  | .error e => [e]

/-- A result, unless something failed before; then the first failure. -/
def barring : List ε → Except ε β → Except ε β
  | [], result => result
  | e :: _, _ => .error e

/-- What a hook answered; one that failed has not answered anything. -/
def answered (asked : Except ε (Option β)) : Option β := asked.toOption.join

/-- Failures one after the other: the first of all counts. -/
theorem barring_barring (faults more : List ε) (result : Except ε β) :
    barring faults (barring more result) = barring (faults ++ more) result := by
  cases faults <;> rfl

theorem barring_ok_bind (faults : List ε) (b : β) (step : β → Except ε γ) :
    barring faults (.ok b) >>= step = barring faults (step b) := by
  cases faults <;> rfl

/-- Asking a hook and going on with its answer. -/
theorem bind_eq_barring (asked : Except ε (Option β)) (step : Option β → Except ε γ) :
    asked >>= step = barring (failure asked) (step (answered asked)) := by
  cases asked <;> rfl

/-! ## Traces -/

/-- A visited node: the text before its content, its seed when it is dynamic, its visited
children, and the text behind its content. -/
inductive Trace (α : Type) where
  | node (before : String) (seed : Option (Composite α)) (children : List (Trace α))
      (behind : String)

/-- Contributions as the content of a node with a seed: all of them in one composite. -/
def packed : Option (Composite α) → List (Item α) → List (Item α)
  | none, raw => raw
  | some seed, raw => [(seed.extended raw).toItem]

mutual
/-- What a visited node contributes to the composite it lies in. -/
def Trace.items : Trace α → List (Item α)
  | .node before seed children behind =>
    .text before :: packed seed (Trace.itemsOf children ++ [.text behind])

/-- What some visited siblings contribute, in order. -/
def Trace.itemsOf : List (Trace α) → List (Item α)
  | [] => []
  | t :: ts => t.items ++ Trace.itemsOf ts
end

mutual
/-- All texts of a visited node in document order, those of the seeds among them. -/
def Trace.texts : Trace α → List String
  | .node before seed children behind =>
    before :: (seed.map Composite.text).toList ++ Trace.textsOf children ++ [behind]

/-- All texts of some visited siblings in document order. -/
def Trace.textsOf : List (Trace α) → List String
  | [] => []
  | t :: ts => t.texts ++ Trace.textsOf ts
end

mutual
/-- The paths from a visited node to the leaves below it, each as the seeds of the dynamic nodes
on it. -/
def Trace.paths : Trace α → List (List (Composite α))
  | .node _ seed children _ =>
    (if children.isEmpty then [[]] else Trace.pathsOf children).map (seed.toList ++ ·)

/-- The paths that begin at some visited siblings. -/
def Trace.pathsOf : List (Trace α) → List (List (Composite α))
  | [] => []
  | t :: ts => t.paths ++ Trace.pathsOf ts
end

mutual
/-- The seeds of the dynamic nodes of a trace. -/
def Trace.seeds : Trace α → List (Composite α)
  | .node _ seed children _ => seed.toList ++ Trace.seedsOf children

/-- The seeds of the dynamic nodes among and below some visited siblings. -/
def Trace.seedsOf : List (Trace α) → List (Composite α)
  | [] => []
  | t :: ts => t.seeds ++ Trace.seedsOf ts
end

/-- How many composites are nested along a path: one for every dynamic node on it, and those that
come with the seed of a node if they reach deeper. -/
def nesting : List (Composite α) → Nat
  | [] => 0
  | seed :: path => max seed.depth (nesting path) + 1

/-- Along a path whose seeds bring in text only, one composite is nested per dynamic node. -/
theorem nesting_of_flat {path : List (Composite α)} (flat : ∀ seed ∈ path, seed.depth = 0) :
    nesting path = path.length := by
  induction path with
  | nil => rfl
  | cons seed path ih =>
    rw [nesting, flat seed List.mem_cons_self, Nat.zero_max,
      ih fun c mem => flat c (List.mem_cons_of_mem _ mem), List.length_cons]

/-! ## Asking the hooks -/

/-- Whether an item is text. -/
def Item.isText : Item α → Bool
  | .text _ => true
  | .composite _ _ => false

/-- A composite as a hook sees it while it is filled: texts at the end are still pending. -/
def Composite.received (seed : Composite α) (raw : List (Item α)) : Composite α :=
  seed.extended (raw.rdropWhile Item.isText)

namespace Hooks

variable (h : Hooks ν α ε)

mutual
/-- The visited part of a tree with what the hooks answer. -/
def trace : SourceTree ν → Trace α
  | .node label children =>
    let seed := answered (h.composite label)
    let below := if h.descends label seed then traces children else []
    .node ((answered (h.before label seed)).getD "") seed below
      ((answered (h.behind label (seed.map fun c => c.received (Trace.itemsOf below)))).getD "")

/-- The visited parts of some siblings. -/
def traces : List (SourceTree ν) → List (Trace α)
  | [] => []
  | t :: ts => trace t :: traces ts
end

mutual
/-- The failures of the hooks, in visiting order. -/
def faults : SourceTree ν → List ε
  | .node label children =>
    let seed := answered (h.composite label)
    let below := if h.descends label seed then h.traces children else []
    failure (h.composite label) ++ failure (h.before label seed) ++
      (if h.descends label seed then faultsOf children else []) ++
      failure (h.behind label (seed.map fun c => c.received (Trace.itemsOf below)))

/-- The failures of the hooks among some siblings. -/
def faultsOf : List (SourceTree ν) → List ε
  | [] => []
  | t :: ts => faults t ++ faultsOf ts
end

end Hooks

/-! ## Gathering -/

namespace Filling

/-- Gather one contribution: collect a text, add a composite. -/
def gatherItem (f : Filling α) : Item α → Filling α
  | .text run => f.collect (some run)
  | .composite payload inner => f.add ⟨payload, inner⟩

/-- Gather contributions in order. -/
def gather (f : Filling α) (raw : List (Item α)) : Filling α := raw.foldl gatherItem f

variable (f : Filling α)

theorem gather_append (raw more : List (Item α)) :
    f.gather (raw ++ more) = (f.gather raw).gather more := List.foldl_append

theorem gather_concat (raw : List (Item α)) (item : Item α) :
    f.gather (raw ++ [item]) = (f.gather raw).gatherItem item := List.foldl_concat ..

theorem collect_gather (raw : List (Item α)) (run : Option String) :
    (f.gather raw).collect run = f.gather (raw ++ [.text (run.getD "")]) :=
  (f.gather_concat raw (.text (run.getD ""))).symm

@[simp]
theorem close_start (c : Composite α) : (start c).close = c := by
  unfold close start
  rw [Composite.pushText_eq]
  simp [Composite.extended, merged]

/-- **Gathered contributions are what the closed composite is extended by.** -/
theorem close_gather (raw : List (Item α)) : (f.gather raw).close = f.close.extended raw := by
  induction raw using List.reverseRecOn with
  | nil => exact f.close.extended_nil.symm
  | append_singleton raw item ih =>
    rw [gather_concat, Composite.extended_append, ← ih]
    cases item with
    | text run =>
      -- both sides join the text with what is pending, before and after it is pushed
      unfold gatherItem collect close
      rw [Composite.pushText_eq, Composite.pushText_eq, ← Composite.extended_append]
      simp [Composite.extended, merged, consText_consText]
    | composite payload inner => exact (close_start _).trans (Composite.push_eq ..)

/-- **What a hook sees** of a composite being filled. -/
theorem composite_gather (c : Composite α) (raw : List (Item α)) :
    ((start c).gather raw).composite = c.received raw := by
  unfold Composite.received
  induction raw using List.reverseRecOn with
  | nil => exact c.extended_nil.symm
  | append_singleton raw item ih =>
    rw [gather_concat]
    cases item with
    | text run =>
      rw [List.rdropWhile_concat_pos _ _ _ rfl, ← ih]
      rfl
    | composite payload inner =>
      rw [List.rdropWhile_concat_neg _ _ _ Bool.false_ne_true, Composite.extended_append]
      refine (Composite.push_eq ..).trans ?_
      rw [close_gather, close_start]
      rfl

end Filling

/-! ## Walking -/

namespace Hooks

variable (h : Hooks ν α ε)

mutual
/-- **Visiting a node** gathers what it contributes, unless a hook fails. -/
theorem visit_eq : ∀ (t : SourceTree ν) (f : Filling α),
    h.visit t f = barring (h.faults t) (.ok (f.gather (h.trace t).items))
  | .node label children, f => by
    -- what is gathered from the children, whether they are visited or not
    have content : ∀ (seed : Option (Composite α)) (f : Filling α)
        (step : Filling α → Except ε (Filling α)),
        (if h.descends label seed then h.visitAll children f >>= step else pure f >>= step) =
          barring (if h.descends label seed then h.faultsOf children else [])
            (step (f.gather
              (Trace.itemsOf (if h.descends label seed then h.traces children else [])))) := by
      intro seed f step
      cases h.descends label seed with
      | false => rfl
      | true => exact (congrArg (· >>= step) (visitAll_eq children f)).trans (barring_ok_bind ..)
    rw [visit, faults, trace, Trace.items, bind_eq_barring, List.append_assoc, List.append_assoc,
      ← barring_barring]
    congr 1
    rw [bind_eq_barring, ← barring_barring]
    congr 1
    cases answered (h.composite label) with
    | none =>
      dsimp only
      rw [content, bind_eq_barring, barring_barring, Filling.collect_gather]
      rfl
    | some seed =>
      dsimp only
      rw [content, Filling.composite_gather, bind_eq_barring, barring_barring,
        Filling.collect_gather, Filling.close_gather, Filling.close_start]
      rfl

/-- Visiting siblings gathers what they contribute, unless a hook fails. -/
theorem visitAll_eq : ∀ (ts : List (SourceTree ν)) (f : Filling α),
    h.visitAll ts f = barring (h.faultsOf ts) (.ok (f.gather (Trace.itemsOf (h.traces ts))))
  | [], f => rfl
  | t :: ts, f => by
    rw [visitAll, visit_eq t f, barring_ok_bind, visitAll_eq ts, barring_barring, faultsOf, traces,
      Trace.itemsOf, Filling.gather_append]
end

end Hooks

/-! ## Measures of a trace -/

namespace Trace

mutual
/-- The items of a trace hold its texts in document order. -/
theorem textOf_items : ∀ t : Trace α, textOf t.items = String.join t.texts
  | .node before seed children behind => by
    have content := textOf_itemsOf children
    cases seed with
    | none => simp [items, texts, packed, textOf, Item.allText, textOf_append, content]
    | some seed =>
      have below := seed.text_extended (itemsOf children ++ [.text behind])
      unfold Composite.text at below
      simp [items, texts, packed, textOf, Item.allText, textOf_append, content, Composite.toItem,
        below, Composite.text]

/-- The items of some siblings hold their texts in document order. -/
theorem textOf_itemsOf : ∀ ts : List (Trace α), textOf (itemsOf ts) = String.join (textsOf ts)
  | [] => rfl
  | t :: ts => by
    simp [itemsOf, textsOf, textOf_append, textOf_items t, textOf_itemsOf ts]
end

/-- A height measures paths: no path nests deeper, and one reaches it. -/
def Measures (height : Nat) (paths : List (List (Composite α))) : Prop :=
  IsGreatest {n | ∃ path ∈ paths, nesting path = n} height

theorem Measures.bare : Measures 0 [([] : List (Composite α))] := by
  refine ⟨⟨[], List.mem_singleton_self _, rfl⟩, ?_⟩
  rintro n ⟨path, mem, rfl⟩
  rw [List.mem_singleton.1 mem]
  exact Nat.le_refl _

theorem Measures.under {height : Nat} {paths : List (List (Composite α))}
    (h : Measures height paths) (seed : Composite α) :
    Measures (max seed.depth height + 1) (paths.map (seed :: ·)) := by
  obtain ⟨⟨deepest, mem, rfl⟩, bound⟩ := h
  refine ⟨⟨seed :: deepest, List.mem_map_of_mem mem, rfl⟩, ?_⟩
  rintro n ⟨path, found, rfl⟩
  obtain ⟨rest, below, rfl⟩ := List.mem_map.1 found
  have least := bound ⟨rest, below, rfl⟩
  simp only [nesting]
  omega

theorem Measures.append {height other : Nat} {paths more : List (List (Composite α))}
    (h : Measures height paths) (h' : Measures other more) :
    Measures (max height other) (paths ++ more) := by
  refine ⟨?_, ?_⟩
  · rcases Nat.le_total height other with le | le
    · rw [Nat.max_eq_right le]
      obtain ⟨path, mem, reached⟩ := h'.1
      exact ⟨path, List.mem_append_right _ mem, reached⟩
    · rw [Nat.max_eq_left le]
      obtain ⟨path, mem, reached⟩ := h.1
      exact ⟨path, List.mem_append_left _ mem, reached⟩
  · rintro n ⟨path, mem, rfl⟩
    rcases List.mem_append.1 mem with mem | mem
    · exact Nat.le_trans (h.2 ⟨path, mem, rfl⟩) (Nat.le_max_left ..)
    · exact Nat.le_trans (h'.2 ⟨path, mem, rfl⟩) (Nat.le_max_right ..)

/-- What a node adds to the height of its content. -/
theorem heightOf_node (before behind : String) (seed : Option (Composite α)) (raw : List (Item α)) :
    heightOf (.text before :: packed seed (raw ++ [.text behind])) =
      seed.elim (heightOf raw) fun c => max c.depth (heightOf raw) + 1 := by
  cases seed with
  | none => simp [packed, heightOf, Item.height, heightOf_append]
  | some c =>
    have below := c.depth_extended (raw ++ [.text behind])
    rw [heightOf_append] at below
    simpa [packed, heightOf, Item.height, Composite.toItem, Composite.depth] using below

mutual
/-- **The items of a trace are as high as its deepest path nests.** -/
theorem measures_paths : ∀ t : Trace α, Measures (heightOf t.items) t.paths
  | .node before seed children behind => by
    have content : Measures (heightOf (itemsOf children))
        (if children.isEmpty then [[]] else pathsOf children) := by
      cases children with
      | nil => exact .bare
      | cons t ts => exact measures_pathsOf (t :: ts) (List.cons_ne_nil t ts)
    rw [items, heightOf_node, paths]
    cases seed with
    | none =>
      rw [show (Option.toList (none : Option (Composite α)) ++ ·) = id from rfl, List.map_id]
      exact content
    | some c => exact content.under c

/-- The items of some siblings are as high as the deepest path that begins at one nests. -/
theorem measures_pathsOf : ∀ ts : List (Trace α), ts ≠ [] →
    Measures (heightOf (itemsOf ts)) (pathsOf ts)
  | [], ne => absurd rfl ne
  | t :: ts, _ => by
    rw [itemsOf, heightOf_append, pathsOf]
    cases ts with
    | nil =>
      rw [itemsOf, pathsOf, List.append_nil, heightOf, Nat.max_zero]
      exact measures_paths t
    | cons next ts =>
      exact (measures_paths t).append (measures_pathsOf (next :: ts) (List.cons_ne_nil next ts))
end

mutual
/-- Every dynamic node on a path is one of the trace. -/
theorem mem_seeds_of_path : ∀ (t : Trace α), ∀ path ∈ t.paths, ∀ c ∈ path, c ∈ t.seeds
  | .node before seed children behind, path, mem, c, on => by
    rw [paths] at mem
    obtain ⟨rest, below, rfl⟩ := List.mem_map.1 mem
    rw [seeds]
    rcases List.mem_append.1 on with own | on
    · exact List.mem_append_left _ own
    · cases children with
      | nil =>
        rw [List.mem_singleton.1 below] at on
        cases on
      | cons t ts => exact List.mem_append_right _ (mem_seedsOf_of_path (t :: ts) rest below c on)

theorem mem_seedsOf_of_path : ∀ (ts : List (Trace α)), ∀ path ∈ pathsOf ts, ∀ c ∈ path,
    c ∈ seedsOf ts
  | [], _, mem, _, _ => nomatch mem
  | t :: ts, path, mem, c, on => by
    rw [seedsOf]
    rcases List.mem_append.1 mem with first | later
    · exact List.mem_append_left _ (mem_seeds_of_path t path first c on)
    · exact List.mem_append_right _ (mem_seedsOf_of_path ts path later c on)
end

mutual
/-- The composites among the items of a trace are in canonical form if its seeds are. -/
theorem canonical_of_mem_items : ∀ (t : Trace α), (∀ c ∈ t.seeds, c.Canonical) →
    ∀ payload inner, .composite payload inner ∈ t.items → CanonicalItems inner
  | .node before seed children behind, good, payload, inner, mem => by
    have content : ∀ payload inner, .composite payload inner ∈ itemsOf children ++ [.text behind] →
        CanonicalItems inner := by
      intro payload inner mem
      have found : .composite payload inner ∈ itemsOf children := by simpa using mem
      exact canonical_of_mem_itemsOf children
        (fun c mem => good c (List.mem_append_right _ mem)) payload inner found
    rw [items] at mem
    cases seed with
    | none => exact content payload inner (by simpa [packed] using mem)
    | some c =>
      have own : c.Canonical := good c (List.mem_append_left _ (by simp))
      obtain ⟨-, rfl⟩ : payload = (c.extended (itemsOf children ++ [.text behind])).payload ∧
          inner = (c.extended (itemsOf children ++ [.text behind])).items := by
        simpa [packed, Composite.toItem] using mem
      exact own.extended content

theorem canonical_of_mem_itemsOf : ∀ (ts : List (Trace α)), (∀ c ∈ seedsOf ts, c.Canonical) →
    ∀ payload inner, .composite payload inner ∈ itemsOf ts → CanonicalItems inner
  | [], _, _, _, mem => nomatch mem
  | t :: ts, good, payload, inner, mem => by
    rcases List.mem_append.1 mem with first | later
    · exact canonical_of_mem_items t (fun c mem => good c (List.mem_append_left _ mem))
        payload inner first
    · exact canonical_of_mem_itemsOf ts (fun c mem => good c (List.mem_append_right _ mem))
        payload inner later
end

end Trace

/-! ## Compiling -/

namespace Hooks

variable (h : Hooks ν α ε) (t : SourceTree ν)

/-- The root composite of a tree extended by everything that its nodes contribute. -/
def denotation (root : Composite α) : Composite α := root.extended (h.trace t).items

/-- Compiling fails with the first failure of the hooks, and gives what a tree denotes if there
is none. -/
theorem compile_eq : h.compile t =
    h.root t.label >>= fun root => barring (h.faults t) (.ok (h.denotation t root)) := by
  unfold compile denotation
  refine bind_congr fun root => ?_
  rw [visit_eq, barring_ok_bind, Filling.close_gather, Filling.close_start]
  rfl

/-- **Compiling is what the tree denotes.**  It fails with the first failure in visiting order; the
root composite is extended by the contributions of the tree otherwise.  The text of the cache is the
text of the root and all texts in document order; its depth is the deepest nesting along a visited
path, which is the number of dynamic nodes on it when seeds bring in text only; and no text in it is
empty or adjacent to another when none in a seed is. -/
theorem compile_denotes :
    h.compile t =
        h.root t.label >>= (fun root => barring (h.faults t) (.ok (h.denotation t root))) ∧
      ∀ root : Composite α,
        (h.denotation t root).text = root.text ++ String.join (h.trace t).texts ∧
        IsGreatest {n | ∃ path ∈ (h.trace t).paths, max root.depth (nesting path) = n}
          (h.denotation t root).depth ∧
        (root.depth = 0 → (∀ seed ∈ (h.trace t).seeds, seed.depth = 0) →
          IsGreatest {n | ∃ path ∈ (h.trace t).paths, path.length = n}
            (h.denotation t root).depth) ∧
        (root.Canonical → (∀ seed ∈ (h.trace t).seeds, seed.Canonical) →
          (h.denotation t root).Canonical) := by
  refine ⟨h.compile_eq t, fun root => ?_⟩
  obtain ⟨⟨deepest, mem, reached⟩, bound⟩ := (h.trace t).measures_paths
  have depth : (h.denotation t root).depth = max root.depth (heightOf (h.trace t).items) :=
    root.depth_extended _
  refine ⟨?_, ⟨⟨deepest, mem, by rw [reached, depth]⟩, ?_⟩, fun flat flats => ⟨?_, ?_⟩, ?_⟩
  · rw [← Trace.textOf_items]
    exact root.text_extended _
  · rintro n ⟨path, found, rfl⟩
    have least := bound ⟨path, found, rfl⟩
    omega
  · have counted := nesting_of_flat fun c on =>
      flats c (Trace.mem_seeds_of_path _ deepest mem c on)
    exact ⟨deepest, mem, by omega⟩
  · rintro n ⟨path, found, rfl⟩
    have least := bound ⟨path, found, rfl⟩
    have counted := nesting_of_flat fun c on => flats c (Trace.mem_seeds_of_path _ path found c on)
    omega
  · exact fun good seeds => good.extended ((h.trace t).canonical_of_mem_items seeds)

/-- Hooks for labels that say whether their node is dynamic: every node begins with its name, a
dynamic one is seeded with a colon, and ends with a full stop if its composite has nested ones. -/
def named : Hooks (Bool × String) String String where
  root label := .ok (.leaf label.2)
  composite label := .ok (if label.1 then some ((Composite.leaf label.2).pushText ":") else none)
  before label _ := .ok (some label.2)
  behind _ own := .ok (own.bind fun c => if c.depth = 0 then none else some ".")
  descends _ _ := true

/-- A dynamic node in another one, and a static one behind both. -/
def nestedTree : SourceTree (Bool × String) :=
  .node (false, "a") [.node (true, "b") [.node (true, "c") []], .node (false, "d") []]

theorem compile_denotes_nested :
    (named.compile nestedTree).toOption.map Composite.text = some "ab:c:.d" ∧
      IsGreatest {n | ∃ path ∈ (named.trace nestedTree).paths, path.length = n} 2 ∧
      (named.denotation nestedTree (.leaf "a")).Canonical := by
  obtain ⟨compiled, measures⟩ := compile_denotes named nestedTree
  obtain ⟨text, _, counted, canonical⟩ := measures (.leaf "a")
  refine ⟨?_, counted rfl (by decide +kernel), canonical trivial ?_⟩
  · rw [compiled]
    refine (congrArg some text).trans ?_
    decide +kernel
  · intro seed mem
    have seeds : (named.trace nestedTree).seeds =
        [(Composite.leaf "b").pushText ":", (Composite.leaf "c").pushText ":"] := rfl
    rw [seeds] at mem
    rcases List.mem_cons.1 mem with rfl | mem
    · exact ⟨(by decide : ":" ≠ ""), trivial, trivial⟩
    · rw [List.mem_singleton.1 mem]
      exact ⟨(by decide : ":" ≠ ""), trivial, trivial⟩

end Hooks

end Formwork.Cache
