import Mathlib.Data.List.Forall2
import Formwork.Proofs.OrderedMap
import Formwork.Template.Blueprint

/-!
# Equal caches and what they write to a hasher

Caches are compared payload by payload, and each payload brings its own comparison and its own
writes.  Nothing in the tree around the payloads is lost or reordered when it is hashed, so equal
caches write the same exactly if the payloads that face each other do (`Composite.hashWrites_eq`),
as long as equal payloads write equally many parts.

Blueprints are equal when they hold the same attributes in any order, but they write their
attributes in the order they are kept.  Equal templates therefore write the same exactly if all
blueprints that face each other list their attributes in the same order
(`Template.hashWrites_eq_iff_of_agrees`), and nothing of this is repaired by the bytes in which the
parts are written (`Template.hashBytes_eq_iff_of_agrees`).
-/

namespace Formwork

set_option autoImplicit false

/-! ## Maps with the same entries -/

namespace OrderedMap

variable {κ α : Type} [DecidableEq κ] [DecidableEq α] {m n : OrderedMap κ α}

theorem size_eq_of_sameEntries (same : m.sameEntries n = true) : m.size = n.size := by
  rw [sameEntries, Bool.and_eq_true, beq_iff_eq] at same
  exact same.1

theorem mem_of_sameEntries (same : m.sameEntries n = true) {e : κ × α} (h : e ∈ m.toList) :
    e ∈ n.toList := by
  rw [sameEntries, Bool.and_eq_true, List.all_eq_true] at same
  exact mem_of_get? (of_decide_eq_true (same.2 e h))

omit [DecidableEq α] in
/-- Entries with the same distinct keys, all of them found on the other side, are the same list. -/
theorem entries_eq : ∀ {es es' : List (κ × α)}, (es'.map Prod.fst).Nodup →
    es.map Prod.fst = es'.map Prod.fst → (∀ e ∈ es, e ∈ es') → es = es'
  | [], [], _, _, _ => rfl
  | [], _ :: _, _, keys, _ => by cases keys
  | _ :: _, [], _, keys, _ => by cases keys
  | (k, v) :: es, (k', v') :: es', distinct, keys, there => by
    rw [List.map_cons, List.map_cons, List.cons.injEq] at keys
    obtain ⟨rfl, keys⟩ := keys
    have head : find? k ((k, v') :: es') = some v := find?_of_mem distinct (there _ List.mem_cons_self)
    rw [find?, if_pos rfl] at head
    cases head
    rw [List.map_cons, List.nodup_cons] at distinct
    congr 1
    refine entries_eq distinct.2 keys fun e he => ?_
    rcases List.mem_cons.1 (there e (List.mem_cons_of_mem _ he)) with rfl | rest
    · exact absurd (keys ▸ List.mem_map_of_mem he) distinct.1
    · exact rest

/-- Maps with the same entries are equal exactly if they list their keys in the same order. -/
theorem toList_eq_iff_of_sameEntries (same : m.sameEntries n = true) :
    m.toList = n.toList ↔ m.keys = n.keys :=
  ⟨fun h => congrArg (List.map Prod.fst) h, fun h =>
    entries_eq n.distinct h fun _ => mem_of_sameEntries same⟩

end OrderedMap

/-! ## Caches -/

namespace Cache

variable {α : Type}

/-- The parts that two values write at the same place: texts, or the very same part. -/
def HashWrite.Alike : HashWrite → HashWrite → Prop
  | .text _, .text _ => True
  | a, b => a = b

theorem HashWrite.Alike.refl : ∀ a : HashWrite, a.Alike a
  | .text _ => trivial
  | .count _ => rfl
  | .isText => rfl
  | .isComposite => rfl

section Comparing

variable {same : α → α → Bool} {writes : α → List HashWrite}

/-- Equal payloads write equally many parts, and at each place parts of the same kind. -/
def WritesAlike (same : α → α → Bool) (writes : α → List HashWrite) : Prop :=
  ∀ a b, same a b = true → List.Forall₂ HashWrite.Alike (writes a) (writes b)

theorem length_eq_of_itemsAgree : ∀ {items items' : List (Item α)},
    itemsAgree same items items' = true → items.length = items'.length
  | [], [], _ => rfl
  | [], _ :: _, h => by simp [itemsAgree] at h
  | _ :: _, [], h => by simp [itemsAgree] at h
  | item :: items, item' :: items', h => by
    rw [itemsAgree, Bool.and_eq_true] at h
    rw [List.length_cons, List.length_cons, length_eq_of_itemsAgree h.2]

/-- What stands in front of the content of a composite: its payload and a count. -/
theorem alike_payload (alike : WritesAlike same writes) {a b : α} (h : same a b = true)
    {items items' : List (Item α)} (h' : itemsAgree same items items' = true)
    {ws ws' : List HashWrite} (rest : List.Forall₂ HashWrite.Alike ws ws') :
    List.Forall₂ HashWrite.Alike (writes a ++ .count items.length :: ws)
      (writes b ++ .count items'.length :: ws') := by
  rw [length_eq_of_itemsAgree h']
  exact List.rel_append (alike a b h) (.cons (.refl _) rest)

mutual
theorem alike_hashWrites_item (alike : WritesAlike same writes) : ∀ {item item' : Item α},
    item.agrees same item' = true →
      List.Forall₂ HashWrite.Alike (item.hashWrites writes) (item'.hashWrites writes)
  | .text run, .text run', h => by
    rw [Item.hashWrites, Item.hashWrites]
    exact .cons rfl (.cons trivial .nil)
  | .text _, .composite _ _, h => by simp [Item.agrees] at h
  | .composite _ _, .text _, h => by simp [Item.agrees] at h
  | .composite payload items, .composite payload' items', h => by
    rw [Item.agrees, Bool.and_eq_true] at h
    rw [Item.hashWrites, Item.hashWrites]
    exact .cons rfl (alike_payload alike h.1 h.2 (alike_hashWrites_items alike h.2))

theorem alike_hashWrites_items (alike : WritesAlike same writes) : ∀ {items items' : List (Item α)},
    itemsAgree same items items' = true →
      List.Forall₂ HashWrite.Alike (itemsHashWrites writes items) (itemsHashWrites writes items')
  | [], [], _ => .nil
  | [], _ :: _, h => by simp [itemsAgree] at h
  | _ :: _, [], h => by simp [itemsAgree] at h
  | item :: items, item' :: items', h => by
    rw [itemsAgree, Bool.and_eq_true] at h
    rw [itemsHashWrites, itemsHashWrites]
    exact List.rel_append (alike_hashWrites_item alike h.1) (alike_hashWrites_items alike h.2)
end

/-- Equal composites write equally many parts, and at each place parts of the same kind. -/
theorem Composite.alike_hashWrites (alike : WritesAlike same writes) {c d : Composite α}
    (h : c.agrees same d = true) :
    List.Forall₂ HashWrite.Alike (c.hashWrites writes) (d.hashWrites writes) := by
  rw [Composite.agrees, Bool.and_eq_true] at h
  exact alike_payload alike h.1 h.2 (alike_hashWrites_items alike h.2)

/-- Parts of the same number in front of others can be told from them. -/
theorem append_eq_iff {ws ws' : List HashWrite} (alike : List.Forall₂ HashWrite.Alike ws ws')
    (rest rest' : List HashWrite) : ws ++ rest = ws' ++ rest' ↔ ws = ws' ∧ rest = rest' := by
  refine ⟨fun h => List.append_inj h alike.length_eq, ?_⟩
  rintro ⟨rfl, rfl⟩
  rfl

mutual
theorem hashWrites_item_eq (alike : WritesAlike same writes) : ∀ {item item' : Item α},
    item.agrees same item' = true →
      (item.hashWrites writes = item'.hashWrites writes ↔
        item.agrees (fun a b => writes a == writes b) item' = true)
  | .text run, .text run', h => by
    rw [Item.agrees, beq_iff_eq] at h
    simp only [Item.hashWrites, Item.agrees, h, beq_self_eq_true]
  | .text _, .composite _ _, h => by simp [Item.agrees] at h
  | .composite _ _, .text _, h => by simp [Item.agrees] at h
  | .composite payload items, .composite payload' items', h => by
    rw [Item.agrees, Bool.and_eq_true] at h
    rw [Item.hashWrites, Item.hashWrites, Item.agrees, List.cons.injEq,
      append_eq_iff (alike _ _ h.1), length_eq_of_itemsAgree h.2, List.cons.injEq,
      hashWrites_items_eq alike h.2, Bool.and_eq_true, beq_iff_eq]
    simp only [true_and]

theorem hashWrites_items_eq (alike : WritesAlike same writes) : ∀ {items items' : List (Item α)},
    itemsAgree same items items' = true →
      (itemsHashWrites writes items = itemsHashWrites writes items' ↔
        itemsAgree (fun a b => writes a == writes b) items items' = true)
  | [], [], _ => by simp only [itemsAgree]
  | [], _ :: _, h => by simp [itemsAgree] at h
  | _ :: _, [], h => by simp [itemsAgree] at h
  | item :: items, item' :: items', h => by
    rw [itemsAgree, Bool.and_eq_true] at h
    rw [itemsHashWrites, itemsHashWrites, itemsAgree, Bool.and_eq_true,
      append_eq_iff (alike_hashWrites_item alike h.1), hashWrites_item_eq alike h.1,
      hashWrites_items_eq alike h.2]
end

/-- Equal composites write the same exactly if payloads that face each other do. -/
theorem Composite.hashWrites_eq (alike : WritesAlike same writes) {c d : Composite α}
    (h : c.agrees same d = true) : c.hashWrites writes = d.hashWrites writes ↔
      c.agrees (fun a b => writes a == writes b) d = true := by
  rw [Composite.agrees, Bool.and_eq_true] at h
  rw [Composite.hashWrites, Composite.hashWrites, Composite.agrees, Bool.and_eq_true,
    append_eq_iff (alike _ _ h.1), length_eq_of_itemsAgree h.2, List.cons.injEq,
    hashWrites_items_eq alike h.2, beq_iff_eq]
  simp only [true_and]

variable {same' same'' : α → α → Bool}

mutual
theorem agrees_item_congr (h : ∀ a b, same a b = true → same' a b = same'' a b) :
    ∀ {item item' : Item α}, item.agrees same item' = true →
      item.agrees same' item' = item.agrees same'' item'
  | .text _, .text _, _ => by rw [Item.agrees, Item.agrees]
  | .text _, .composite _ _, _ => by rw [Item.agrees, Item.agrees] <;> nofun
  | .composite _ _, .text _, _ => by rw [Item.agrees, Item.agrees] <;> nofun
  | .composite payload items, .composite payload' items', agree => by
    rw [Item.agrees, Bool.and_eq_true] at agree
    rw [Item.agrees, Item.agrees, h _ _ agree.1, itemsAgree_congr h agree.2]

theorem itemsAgree_congr (h : ∀ a b, same a b = true → same' a b = same'' a b) :
    ∀ {items items' : List (Item α)}, itemsAgree same items items' = true →
      itemsAgree same' items items' = itemsAgree same'' items items'
  | [], [], _ => by rw [itemsAgree, itemsAgree]
  | [], _ :: _, _ => by rw [itemsAgree, itemsAgree] <;> nofun
  | _ :: _, [], _ => by rw [itemsAgree, itemsAgree] <;> nofun
  | item :: items, item' :: items', agree => by
    rw [itemsAgree, Bool.and_eq_true] at agree
    rw [itemsAgree, itemsAgree, agrees_item_congr h agree.1, itemsAgree_congr h agree.2]
end

/-- Comparisons that tell equal payloads apart alike tell equal composites apart alike. -/
theorem Composite.agrees_congr (h : ∀ a b, same a b = true → same' a b = same'' a b)
    {c d : Composite α} (agree : c.agrees same d = true) :
    c.agrees same' d = c.agrees same'' d := by
  rw [Composite.agrees, Bool.and_eq_true] at agree
  rw [Composite.agrees, Composite.agrees, h _ _ agree.1, itemsAgree_congr h agree.2]

end Comparing

/-! ## Bytes -/

/-- The byte behind a text does not occur in the encoding of a character. -/
theorem textEnd_notMem_utf8EncodeChar (c : Char) : textEnd ∉ String.utf8EncodeChar c := by
  have other : ∀ {m : Nat}, m < 255 → textEnd ≠ UInt8.ofNat m := by
    intro m small same
    have same : (255 : Nat) = m % 256 := by simpa [textEnd] using congrArg UInt8.toNat same
    omega
  rw [String.utf8EncodeChar]
  split_ifs <;> simp only [List.mem_cons, List.not_mem_nil, or_false, not_or]
  · exact other (by omega)
  · exact ⟨other (by omega), other (by omega)⟩
  · exact ⟨other (by omega), other (by omega), other (by omega)⟩
  · exact ⟨other (by omega), other (by omega), other (by omega), other (by omega)⟩

theorem textEnd_notMem_flatMap (cs : List Char) :
    textEnd ∉ cs.flatMap String.utf8EncodeChar := by
  rw [List.mem_flatMap]
  rintro ⟨c, _, h⟩
  exact textEnd_notMem_utf8EncodeChar c h

theorem text_eq_of_encoded {s t : String}
    (h : s.toList.flatMap String.utf8EncodeChar = t.toList.flatMap String.utf8EncodeChar) :
    s = t := by
  have encoded : s.toList.utf8Encode = t.toList.utf8Encode := by
    rw [List.utf8Encode, List.utf8Encode, h]
  rw [← String.toByteArray_ofList, ← String.toByteArray_ofList, String.ofList_toList,
    String.ofList_toList] at encoded
  exact String.toByteArray_inj.1 encoded

/-- Bytes that end at the first occurrence of a byte can be told from what is behind them. -/
theorem append_end_inj {b : UInt8} : ∀ {xs ys rest rest' : List UInt8}, b ∉ xs → b ∉ ys →
    xs ++ b :: rest = ys ++ b :: rest' → xs = ys ∧ rest = rest'
  | [], [], _, _, _, _, h => ⟨rfl, (List.cons.inj h).2⟩
  | [], y :: ys, _, _, _, hy, h => absurd ((List.cons.inj h).1 ▸ List.mem_cons_self) hy
  | x :: xs, [], _, _, hx, _, h => absurd ((List.cons.inj h).1 ▸ List.mem_cons_self) hx
  | x :: xs, y :: ys, _, _, hx, hy, h => by
    obtain ⟨head, tail⟩ := List.cons.inj h
    obtain ⟨tails, rest⟩ := append_end_inj (fun m => hx (List.mem_cons_of_mem _ m))
      (fun m => hy (List.mem_cons_of_mem _ m)) tail
    exact ⟨by rw [head, tails], rest⟩

/-- Parts that stand at the same places can be read off their bytes. -/
theorem writes_eq_of_bytes : ∀ {ws ws' : List HashWrite}, List.Forall₂ HashWrite.Alike ws ws' →
    ws.flatMap HashWrite.bytes = ws'.flatMap HashWrite.bytes → ws = ws'
  | [], [], _, _ => rfl
  | .text s :: ws, .text t :: ws', .cons _ alike, h => by
    simp only [List.flatMap_cons, HashWrite.bytes, List.append_assoc, List.singleton_append] at h
    obtain ⟨here, rest⟩ := append_end_inj (textEnd_notMem_flatMap _) (textEnd_notMem_flatMap _) h
    rw [text_eq_of_encoded here, writes_eq_of_bytes alike rest]
  | .count n :: ws, w :: ws', .cons same alike, h => by
    cases same
    rw [writes_eq_of_bytes alike (List.append_cancel_left h)]
  | .isText :: ws, w :: ws', .cons same alike, h => by
    cases same
    rw [writes_eq_of_bytes alike (List.append_cancel_left h)]
  | .isComposite :: ws, w :: ws', .cons same alike, h => by
    cases same
    rw [writes_eq_of_bytes alike (List.append_cancel_left h)]

/-- Equal composites write the same bytes exactly if they write the same parts. -/
theorem Composite.hashBytes_eq {same : α → α → Bool} {writes : α → List HashWrite}
    (alike : WritesAlike same writes) {c d : Composite α} (h : c.agrees same d = true) :
    c.hashBytes writes = d.hashBytes writes ↔ c.hashWrites writes = d.hashWrites writes :=
  ⟨writes_eq_of_bytes (c.alike_hashWrites alike h), fun same => by rw [hashBytes, same, hashBytes]⟩

end Cache

/-! ## Templates -/

namespace Blueprint

/-- Whether two blueprints list their attributes in the same order. -/
def sameOrder (a b : Blueprint) : Bool := a.attributes.keys == b.attributes.keys

/-- What attributes write when they are hashed. -/
theorem entries_alike : ∀ {es es' : List (String × String)}, es.length = es'.length →
    List.Forall₂ Cache.HashWrite.Alike
      (es.flatMap fun (uri, value) => [.text uri, .text value])
      (es'.flatMap fun (uri, value) => [.text uri, .text value])
  | [], [], _ => .nil
  | _ :: _, _ :: _, h => .cons trivial (.cons trivial (entries_alike (Nat.succ.inj h)))

theorem entries_inj : ∀ {es es' : List (String × String)},
    (es.flatMap fun (uri, value) => [Cache.HashWrite.text uri, .text value]) =
      (es'.flatMap fun (uri, value) => [.text uri, .text value]) → es = es'
  | [], [], _ => rfl
  | (_, _) :: _, (_, _) :: _, h => by
    injection h with uri h
    injection h with value rest
    cases uri
    cases value
    rw [entries_inj rest]

/-- Equal blueprints write as many parts, all of them texts. -/
theorem writesAlike : Cache.WritesAlike agrees hashWrites := by
  intro a b same
  rw [agrees, Bool.and_eq_true] at same
  exact .cons trivial (entries_alike (OrderedMap.size_eq_of_sameEntries same.2))

/-- Equal blueprints write the same exactly if they list their attributes in the same order. -/
theorem writes_eq_of_agrees {a b : Blueprint} (same : a.agrees b = true) :
    a.hashWrites = b.hashWrites ↔ a.sameOrder b = true := by
  rw [agrees, Bool.and_eq_true, Bool.and_eq_true, beq_iff_eq, beq_iff_eq] at same
  obtain ⟨⟨_, tag⟩, entries⟩ := same
  rw [sameOrder, beq_iff_eq, ← OrderedMap.toList_eq_iff_of_sameEntries entries, hashWrites, hashWrites,
    tag]
  refine ⟨fun h => entries_inj (List.cons.inj h).2, fun h => by rw [h]⟩

end Blueprint

namespace Template

variable {a b : Template}

/-- Equal templates write the same when they are hashed exactly if all blueprints that face each
other list their attributes in the same order. -/
theorem hashWrites_eq_iff_of_agrees (same : a.agrees Blueprint.agrees b = true) :
    a.hashWrites Blueprint.hashWrites = b.hashWrites Blueprint.hashWrites ↔
      a.agrees Blueprint.sameOrder b = true := by
  rw [Cache.Composite.hashWrites_eq Blueprint.writesAlike same, Cache.Composite.agrees_congr _ same]
  intro x y agree
  rw [Bool.eq_iff_iff, beq_iff_eq, Blueprint.writes_eq_of_agrees agree]

/-- The same holds of the bytes in which they write: the bytes hide no difference of order. -/
theorem hashBytes_eq_iff_of_agrees (same : a.agrees Blueprint.agrees b = true) :
    a.hashBytes Blueprint.hashWrites = b.hashBytes Blueprint.hashWrites ↔
      a.agrees Blueprint.sameOrder b = true := by
  rw [Cache.Composite.hashBytes_eq Blueprint.writesAlike same, hashWrites_eq_iff_of_agrees same]

/-- A template that holds a panel with two attributes. -/
def ofPanel (first second : Markup.Attribute) : Template :=
  compile (.builtin 0) (.element ⟨Vocabulary.templateTag, "t:template", []⟩
    [.element ⟨Vocabulary.reserved "panel", "t:panel", [first, second]⟩ []])

/-- A panel whose two attributes are written in the other order: the templates are equal and do not
write the same. -/
theorem hashWrites_swapped :
    (ofPanel (.plain "x" "1") (.plain "y" "2")).agrees Blueprint.agrees
        (ofPanel (.plain "y" "2") (.plain "x" "1")) = true ∧
      (ofPanel (.plain "x" "1") (.plain "y" "2")).hashWrites Blueprint.hashWrites ≠
        (ofPanel (.plain "y" "2") (.plain "x" "1")).hashWrites Blueprint.hashWrites := by
  decide +kernel

/-- Two panels that share a written order write the same. -/
theorem hashWrites_repeated :
    (ofPanel (.plain "x" "1") (.plain "y" "2")).agrees Blueprint.agrees
        (ofPanel (.plain "x" "1") (.plain "y" "2")) = true ∧
      ((ofPanel (.plain "x" "1") (.plain "y" "2")).hashWrites Blueprint.hashWrites =
          (ofPanel (.plain "x" "1") (.plain "y" "2")).hashWrites Blueprint.hashWrites ↔
        (ofPanel (.plain "x" "1") (.plain "y" "2")).agrees Blueprint.sameOrder
          (ofPanel (.plain "x" "1") (.plain "y" "2")) = true) :=
  ⟨by decide +kernel, hashWrites_eq_iff_of_agrees (by decide +kernel)⟩

end Template

end Formwork
