import Mathlib.Data.List.Forall2
import Formwork.Proofs.Template.Events

/-!
# Panels that are assembled side by side

Several panels may be assembled at once.  Each has its own page and its own events, in any order and
number; what they share are the counters, from which others draw as well.  A panel that is being
assembled lies on a `Bench`, and the benches with their counters make a `Workshop`.

A bench keeps books on its frames.  They are observations: by what each event made the markup of a
frame longer, whether that event was the beginning of a field, and which fields began in the frame.
What the books say of an open frame (`Frame.Told`) is that its markup consists of what was observed,
that the markers in it are those of its placeholders in the same order, and that the placeholders stand
for the fields that the frame accepted.

Whatever happens in a workshop, events are refused exactly where they are out of place, the books of all
open frames are true, and no identifier is used twice (`Workshop.Reached.orderly`): every event keeps
the books of its bench (`Bench.Sound.advances`), and the identifiers of all benches lie below the
counters.
-/

namespace Formwork

set_option autoImplicit false

/-! ## Events -/

/-- An event that a panel being assembled is told of. -/
inductive Assembly.Event where
  | begins (factory : Option Factory) (attributes : Attributes)
  | text (run : String)
  | ends

open Assembly (Event)

/-- What an event does. -/
def Assembly.Event.perform : Event → AssemblyM Unit
  | .begins factory attributes => AssemblyM.beginField factory attributes
  | .text run => AssemblyM.addText run
  | .ends => AssemblyM.endField

/-! ## Books -/

/-- The markup that a frame has collected. -/
def Frame.text (f : Frame) : String :=
  match f.kind with
  | .collecting buffer _ => buffer
  | _ => ""

/-- The identifiers of the markers of a frame. -/
def Frame.identifiers (f : Frame) : List String :=
  match f.kind with
  | .collecting _ placeholders => placeholders.keys
  | _ => []

/-- By what an event made the markup of a frame longer: by a marker if it was the beginning of a field. -/
structure Gain where
  isMarker : Bool
  text : String

/-- What is known of an open frame: what its markup grew by, and which fields began in it. -/
structure Record where
  gains : List Gain
  begun : List FieldId

namespace Record

/-- The record of a frame that was just opened. -/
def blank : Record := ⟨[], []⟩

/-- Note what an event made of a frame. -/
def grow (isMarker : Bool) (before after : Frame) (r : Record) : Record :=
  let added := String.ofList (after.text.toList.drop before.text.toList.length)
  if added = "" then r else { r with gains := r.gains ++ [⟨isMarker, added⟩] }

/-- Note what an event made of some frames. -/
def growAll (isMarker : Bool) : List Frame → List Frame → List Record → List Record
  | before :: fs, after :: fs', r :: rs => r.grow isMarker before after :: growAll isMarker fs fs' rs
  | _, _, rs => rs

/-- Note that a field has begun, in the frame that it lies in. -/
def enter (field : FieldId) : List Frame → List Record → List Record
  | f :: fs, r :: rs =>
    if f.passes then r :: enter field fs rs else { r with begun := r.begun ++ [field] } :: rs
  | _, rs => rs

end Record

/-- The records after an event, from the frames before and after it. -/
def Assembly.Event.record (e : Event) (answer : Except BuildError Unit) (before after : List Frame)
    (rs : List Record) : List Record :=
  match e, answer with
  | .begins _ _, .ok _ =>
    let noted := Record.growAll true before after.tail rs
    .blank :: match after.head?.bind Frame.field with
      | some field => Record.enter field before noted
      | none => noted
  | .begins _ _, .error _ => Record.growAll true before after rs
  | .text _, _ => Record.growAll false before after rs
  | .ends, _ => rs.tail

/-- The frames that were left after an event, from the open frames before it. -/
def Assembly.Event.leave (e : Event) (frames past : List Frame) : List Frame :=
  match e with
  | .ends => frames.head?.toList ++ past
  | _ => past

/-- A panel that is being assembled, the records of its open frames, innermost first, and the frames
that were left. -/
structure Bench extends Assembly where
  records : List Record
  past : List Frame

namespace Bench

/-- Begin to assemble a panel. -/
def start (s : Scene) : Bench := { Assembly.start s with records := [], past := [] }

/-- A bench with the counters of its workshop. -/
def drawing (b : Bench) (c : CounterPool) : Assembly := { b.toAssembly with counters := c }

/-- An event at a bench. -/
def perform (b : Bench) (c : CounterPool) (e : Event) : Bench :=
  let (answer, a) := exec e.perform (b.drawing c)
  { a with
    records := e.record answer b.frames a.frames b.records
    past := e.leave b.frames b.past }

/-- The identifiers of all markers that were written at a bench. -/
def identifiers (b : Bench) : List String := (b.frames ++ b.past).flatMap Frame.identifiers

end Bench

/-- The panels that are being assembled, and the counters that they share. -/
structure Workshop where
  counters : CounterPool
  benches : List Bench

namespace Workshop

/-- The identifiers of all markers that were written, with the counters they were drawn from. -/
def identifiers (w : Workshop) : List (SeriesId × String) :=
  w.benches.flatMap fun b => b.identifiers.map (Prod.mk b.panel.series)

/-- What may become of a workshop. -/
inductive Reached : Workshop → Prop where
  | opens (c : CounterPool) : Reached ⟨c, []⟩
  /-- Any panel may be assembled, with any fields that it has already. -/
  | starts {c : CounterPool} {bs : List Bench} (h : Reached ⟨c, bs⟩) (s : Scene)
      (known : s.panel.series.index < c.sets.size) : Reached ⟨c, .start s :: bs⟩
  | performs {c : CounterPool} {before behind : List Bench} {b : Bench}
      (h : Reached ⟨c, before ++ b :: behind⟩) (e : Event) :
      Reached ⟨(b.perform c e).counters, before ++ b.perform c e :: behind⟩
  /-- Others draw from the counters, or add to them. -/
  | elsewhere {c c' : CounterPool} {bs : List Bench} (h : Reached ⟨c, bs⟩) (grows : c.Grows c') :
      Reached ⟨c', bs⟩

end Workshop

/-! ## What the books say -/

/-- The fields that a frame accepted: what its field has for content, and all that began in it when it
has no field. -/
def Frame.accepted (t : FieldTable) (f : Frame) (r : Record) : List FieldId :=
  match f.field with
  | none => r.begun
  | some p => ((t.standing? p).map Prod.snd).getD []

/-- The markup of a frame is what was observed; the markers in it are those of its placeholders in the
same order, and these stand for the fields that it accepted, all of which have its field for parent. -/
def Frame.Told (t : FieldTable) (f : Frame) (r : Record) : Prop :=
  match f.kind with
  | .collecting buffer placeholders =>
    buffer = String.join (r.gains.map Gain.text) ∧
      (r.gains.filter Gain.isMarker).map Gain.text =
        placeholders.toList.map (fun e => markerMarkup e.1) ∧
      placeholders.values = f.accepted t r ∧
      ∀ g ∈ placeholders.values, ∃ content, t.standing? g = some (f.field, content)
  | _ => r.gains = []

/-- An event is out of place if a frame ends and none is open, or if a field begins and none is open
any more. -/
def Assembly.Event.OutOfPlace (b : Bench) : Event → Prop
  | .begins _ _ => b.frames = [] ∧ b.past ≠ []
  | .text _ => False
  | .ends => b.frames = []

namespace Bench

/-- Events are refused exactly if they are out of place, without a change, and the end exactly if frames
are open; the books are true. -/
structure Orderly (b : Bench) (c : CounterPool) : Prop where
  refuses : ∀ e : Event, e.OutOfPlace b → ∃ error, error.IsUnbalanced ∧
    exec e.perform (b.drawing c) = (.error error, b.drawing c)
  admits : ∀ (e : Event) (error : BuildError), ¬ e.OutOfPlace b →
    (exec e.perform (b.drawing c)).1 = .error error → ¬ error.IsUnbalanced
  finishes : exec AssemblyM.finish (b.drawing c) =
    (if b.frames = [] then .ok () else .error (.leftOpen b.frames.length), b.drawing c)
  told : List.Forall₂ (Frame.Told b.panel.table) b.frames b.records

/-- The invariant of a bench. -/
structure Sound (b : Bench) (c : CounterPool) : Prop where
  series : b.panel.series.index < c.sets.size
  told : List.Forall₂ (Frame.Told b.panel.table) b.frames b.records
  known : ∀ p ∈ b.frames.filterMap Frame.field, ∃ place, b.panel.table.standing? p = some place
  apart : (b.frames.filterMap Frame.field).Nodup
  ended : b.frames = [] → (b.finished = true ↔ b.past ≠ [])

end Bench

/-! ## Noting -/

namespace Record

theorem grow_of_text {before after : Frame} (isMarker : Bool) (added : String)
    (text : after.text = before.text ++ added) (r : Record) : r.grow isMarker before after =
      if added = "" then r else { r with gains := r.gains ++ [⟨isMarker, added⟩] } := by
  unfold grow
  rw [text, String.toList_append, List.drop_left, String.ofList_toList]

theorem grow_self (isMarker : Bool) (f : Frame) (r : Record) : r.grow isMarker f f = r := by
  rw [grow_of_text isMarker "" (String.append_empty).symm, if_pos rfl]

theorem growAll_self (isMarker : Bool) : ∀ (fs : List Frame) (rs : List Record),
    growAll isMarker fs fs rs = rs
  | [], rs => rfl
  | _ :: _, [] => rfl
  | f :: fs, r :: rs => by rw [growAll, grow_self, growAll_self isMarker fs rs]

/-- One of some frames has changed. -/
theorem growAll_append (isMarker : Bool) (f f' : Frame) (fs : List Frame) (r : Record)
    (rs : List Record) : ∀ {front : List Frame} {first : List Record},
    front.length = first.length →
      growAll isMarker (front ++ f :: fs) (front ++ f' :: fs) (first ++ r :: rs) =
        first ++ r.grow isMarker f f' :: rs
  | [], [], _ => by
    rw [List.nil_append, List.nil_append, List.nil_append, List.nil_append, growAll, growAll_self]
  | g :: front, s :: first, same => by
    rw [List.cons_append, List.cons_append, List.cons_append, growAll, grow_self,
      growAll_append isMarker f f' fs r rs (Nat.succ.inj same), List.cons_append]

theorem enter_append (field : FieldId) {f : Frame} (here : f.passes = false) (fs : List Frame)
    (r : Record) (rs : List Record) : ∀ {passing : List Frame} {first : List Record},
    (∀ g ∈ passing, g.passes = true) → passing.length = first.length →
      enter field (passing ++ f :: fs) (first ++ r :: rs) =
        first ++ { r with begun := r.begun ++ [field] } :: rs
  | [], [], _, _ => by
    rw [List.nil_append, List.nil_append, List.nil_append, enter, here]
    rfl
  | g :: passing, s :: first, passes, same => by
    rw [List.cons_append, List.cons_append, enter, passes g List.mem_cons_self, if_pos rfl,
      enter_append field here fs r rs (fun g' mem => passes g' (List.mem_cons_of_mem _ mem))
        (Nat.succ.inj same), List.cons_append]

end Record

/-! ## Keeping the books -/

namespace Frame

variable {t t' : FieldTable} {f : Frame} {r : Record}

@[simp]
theorem addText_field (f : Frame) (run : String) : (f.addText run).field = f.field := by
  unfold addText
  split <;> rfl

@[simp]
theorem addMarker_field (f : Frame) (identifier : String) (g : FieldId) :
    (f.addMarker identifier g).field = f.field := by
  unfold addMarker
  split <;> rfl

theorem identifiers_addText (f : Frame) (run : String) :
    (f.addText run).identifiers = f.identifiers := by
  cases f with
  | mk field kind => cases kind <;> rfl

/-- The fields of a frame keep their places, and its own field keeps its content. -/
theorem Told.keep (h : f.Told t r)
    (places : ∀ g q content, t.standing? g = some (q, content) →
      ∃ content', t'.standing? g = some (q, content'))
    (own : ∀ p, f.field = some p → (t'.standing? p).map Prod.snd = (t.standing? p).map Prod.snd) :
    f.Told t' r := by
  cases f with
  | mk field kind =>
    cases kind with
    | collecting buffer placeholders =>
      obtain ⟨text, markers, accepted, alive⟩ := h
      refine ⟨text, markers, accepted.trans ?_, fun g mem => ?_⟩
      · cases field with
        | none => rfl
        | some p => exact congrArg (Option.getD · []) (own p rfl).symm
      · obtain ⟨content, there⟩ := alive g mem
        exact places g _ _ there
    | dropping => exact h
    | passing => exact h

/-- Text is noted as a run. -/
theorem Told.addText (h : f.Told t r) (run : String) :
    (f.addText run).Told t (r.grow false f (f.addText run)) := by
  cases f with
  | mk field kind =>
    cases kind with
    | collecting buffer placeholders =>
      obtain ⟨text, markers, accepted, alive⟩ := h
      rw [Record.grow_of_text false run rfl]
      split
      · case isTrue nothing =>
        refine ⟨?_, markers, accepted, alive⟩
        rw [nothing, String.append_empty]
        exact text
      · refine ⟨?_, ?_, accepted, alive⟩
        · rw [List.map_append, String.join_append, ← text]
          simp
        · rw [List.filter_append, List.map_append, markers]
          simp
    | dropping =>
      rw [show (Frame.mk field .dropping).addText run = ⟨field, .dropping⟩ from rfl, Record.grow_self]
      exact h
    | passing =>
      rw [show (Frame.mk field .passing).addText run = ⟨field, .passing⟩ from rfl, Record.grow_self]
      exact h

/-- A frame that passes everything on has nothing noted of it. -/
theorem Told.of_passes (h : f.Told t r) (passes : f.passes = true) : f.Told t' r := by
  cases f with
  | mk field kind =>
    cases kind with
    | passing => exact h
    | _ => cases passes

/-- Which fields began in a frame does not matter when it has a field. -/
theorem Told.enter (h : f.Told t r) {p : FieldId} (field : f.field = some p) (begun : List FieldId) :
    f.Told t { r with begun := begun } := by
  cases f with
  | mk own kind =>
    cases field
    cases kind <;> exact h

/-- The marker of a field that a frame has accepted is noted. -/
theorem Told.addMarker (h : f.Told t r) {identifier : String} {g : FieldId}
    (unused : identifier ∉ f.identifiers) (new : t.standing? g = none)
    (known : ∀ p, f.field = some p → ∃ place, t.standing? p = some place)
    (places : ∀ x, t'.standing? x = if x = g then some (f.field, [])
      else (t.standing? x).map fun (q, cs) => (q, if f.field = some x then cs ++ [g] else cs)) :
    (f.addMarker identifier g).Told t'
      { r.grow true f (f.addMarker identifier g) with
        begun := (r.grow true f (f.addMarker identifier g)).begun ++ [g] } := by
  have older : ∀ {x place}, t.standing? x = some place → x ≠ g := by
    rintro x place there rfl
    rw [new] at there
    cases there
  cases f with
  | mk field kind =>
    cases kind with
    | collecting buffer placeholders =>
      obtain ⟨text, markers, accepted, alive⟩ := h
      have added := OrderedMap.toList_insert_of_not_mem unused g
      have values : (placeholders.insert identifier g).values = placeholders.values ++ [g] := by
        rw [OrderedMap.values, added, List.map_append]
        rfl
      have shows : markerMarkup identifier ≠ "" := by
        intro nothing
        have chars := congrArg String.toList nothing
        simp [markerMarkup] at chars
      rw [Record.grow_of_text true (markerMarkup identifier) rfl, if_neg shows]
      refine ⟨?_, ?_, ?_, ?_⟩
      · rw [List.map_append, String.join_append, ← text]
        simp
      · rw [List.filter_append, List.map_append, markers, added, List.map_append]
        simp
      · rw [values, accepted]
        cases field with
        | none => rfl
        | some p =>
          obtain ⟨place, there⟩ := known p rfl
          show ((t.standing? p).map Prod.snd).getD [] ++ [g] = ((t'.standing? p).map Prod.snd).getD []
          rw [places p, if_neg (older there), there]
          simp
      · intro x mem
        rw [values, List.mem_append, List.mem_singleton] at mem
        rcases mem with mem | rfl
        · obtain ⟨content, there⟩ := alive x mem
          rw [places x, if_neg (older there), there]
          exact ⟨_, rfl⟩
        · exact ⟨[], (places x).trans (if_pos rfl)⟩
    | dropping =>
      rw [show (Frame.mk field .dropping).addMarker identifier g = ⟨field, .dropping⟩ from rfl,
        Record.grow_self]
      exact h
    | passing =>
      rw [show (Frame.mk field .passing).addMarker identifier g = ⟨field, .passing⟩ from rfl,
        Record.grow_self]
      exact h

end Frame

/-- What is related to the members of a list is related to the list. -/
theorem forall₂_imp_of_mem {α β : Type} {R S : α → β → Prop} {xs : List α} {bs : List β}
    (h : List.Forall₂ R xs bs) (imp : ∀ x ∈ xs, ∀ b, R x b → S x b) : List.Forall₂ S xs bs :=
  ((List.forall₂_and_left _ _).2 ⟨fun _ mem => mem, h⟩).imp fun x b both => imp x both.1 b both.2

/-- What is related to a list with a member in it. -/
theorem exists_of_forall₂_append {α β : Type} {R : α → β → Prop} {x : α} {ys : List α} :
    ∀ {xs : List α} {bs : List β}, List.Forall₂ R (xs ++ x :: ys) bs →
      ∃ us u vs, bs = us ++ u :: vs ∧ List.Forall₂ R xs us ∧ R x u ∧ List.Forall₂ R ys vs
  | [], _, .cons here behind => ⟨[], _, _, rfl, .nil, here, behind⟩
  | _ :: xs, _, .cons first rest => by
    obtain ⟨us, u, vs, rfl, front, here, behind⟩ := exists_of_forall₂_append rest
    exact ⟨_ :: us, u, vs, rfl, .cons first front, here, behind⟩

namespace Record

theorem enter_of_passes (field : FieldId) : ∀ {fs : List Frame} (rs : List Record),
    (∀ f ∈ fs, f.passes = true) → enter field fs rs = rs
  | [], _, _ => rfl
  | _ :: _, [], _ => rfl
  | f :: fs, r :: rs, all => by
    rw [enter, all f List.mem_cons_self, if_pos rfl,
      enter_of_passes field rs fun g mem => all g (List.mem_cons_of_mem _ mem)]

end Record

/-- Older fields keep their parents. -/
theorem AssemblyM.Settles.kept {t t' : FieldTable} {frames frames' : List Frame} {identifier : String}
    {g : FieldId} {accepted : Bool} (h : AssemblyM.Settles t t' frames frames' identifier g accepted)
    (new : t.standing? g = none) (x : FieldId) (q : Option FieldId) (content : List FieldId)
    (there : t.standing? x = some (q, content)) :
    ∃ content', t'.standing? x = some (q, content') := by
  have older : x ≠ g := by
    rintro rfl
    exact nomatch new.symm.trans there
  rw [h.places x, if_neg older, there]
  exact ⟨_, rfl⟩

/-- The books stay true of frames whose fields got no content. -/
theorem AssemblyM.Settles.told_others {t t' : FieldTable} {frames frames' fs : List Frame}
    {rs : List Record} {identifier : String} {g : FieldId} {accepted : Bool}
    (h : AssemblyM.Settles t t' frames frames' identifier g accepted)
    (told : List.Forall₂ (Frame.Told t) fs rs) (new : t.standing? g = none)
    (known : ∀ p ∈ fs.filterMap Frame.field, ∃ place, t.standing? p = some place)
    (other : ∀ p ∈ fs.filterMap Frame.field,
      ¬ (accepted = true ∧ Frame.targetField? frames = some p)) :
    List.Forall₂ (Frame.Told t') fs rs := by
  refine forall₂_imp_of_mem told fun f mem r told => told.keep (h.kept new) fun p field => ?_
  have own := List.mem_filterMap.2 ⟨f, mem, field⟩
  obtain ⟨⟨q, content⟩, there⟩ := known p own
  have older : p ≠ g := by
    rintro rfl
    exact nomatch new.symm.trans there
  rw [h.places p, if_neg older, there]
  exact congrArg some (if_neg (other p own))

/-- **A field that takes its place** is noted in the frame it lies in, with its marker if the frame
accepted it; the books of the other frames stay true. -/
theorem AssemblyM.Settles.told {t t' : FieldTable} {frames frames' : List Frame} {rs : List Record}
    {identifier : String} {g : FieldId} {accepted : Bool}
    (h : AssemblyM.Settles t t' frames frames' identifier g accepted)
    (told : List.Forall₂ (Frame.Told t) frames rs) (new : t.standing? g = none)
    (known : ∀ p ∈ frames.filterMap Frame.field, ∃ place, t.standing? p = some place)
    (apart : (frames.filterMap Frame.field).Nodup)
    (unused : identifier ∉ frames.flatMap Frame.identifiers) :
    List.Forall₂ (Frame.Told t') frames'
      (Record.enter g frames (Record.growAll true frames frames' rs)) := by
  rcases Frame.target_cases frames with ⟨_, all, same⟩ |
    ⟨passing, target, rest, rfl, passes, here, found, changed⟩
  · have still : frames' = frames := by
      rw [h.marked]
      split
      · exact same _
      · rfl
    subst still
    rw [Record.growAll_self, Record.enter_of_passes g rs all]
    exact forall₂_imp_of_mem told fun f mem r told => told.of_passes (all f mem)
  · obtain ⟨us, r, vs, rfl, front, own, behind⟩ := exists_of_forall₂_append told
    have target? : Frame.targetField? (passing ++ target :: rest) = target.field := by
      rw [Frame.targetField?, found]
      rfl
    have front' : List.Forall₂ (Frame.Told t') passing us :=
      forall₂_imp_of_mem front fun f mem r told => told.of_passes (passes f mem)
    have known' : ∀ p ∈ (target :: rest).filterMap Frame.field, ∃ place, t.standing? p = some place :=
      fun p mem => known p (by
        rw [List.filterMap_append]
        exact List.mem_append_right _ mem)
    have behind' : List.Forall₂ (Frame.Told t') rest vs := by
      refine h.told_others behind new (fun p mem => known' p ?_) fun p mem is => ?_
      · exact ((List.sublist_cons_self target rest).filterMap _).subset mem
      · -- the frames around the target have other fields
        rw [target?] at is
        rw [List.filterMap_append, List.filterMap_cons_some is.2] at apart
        exact (List.nodup_cons.1 (List.nodup_append.1 apart).2.1).1 mem
    have marked := h.marked
    cases accepted with
    | true =>
      rw [if_pos rfl, changed] at marked
      subst marked
      rw [Record.growAll_append _ _ _ _ _ _ front.length_eq,
        Record.enter_append g here _ _ _ passes front.length_eq]
      have unused' : identifier ∉ target.identifiers := by
        intro mem
        exact unused (List.mem_flatMap.2 ⟨target, List.mem_append_right _ List.mem_cons_self, mem⟩)
      have places := h.places
      rw [target?] at places
      refine List.rel_append front' (.cons (own.addMarker unused' new (fun p field => ?_)
        (by simpa using places)) behind')
      exact known' p (List.mem_filterMap.2 ⟨target, List.mem_cons_self, field⟩)
    | false =>
      rw [if_neg Bool.false_ne_true] at marked
      subst marked
      rw [Record.growAll_self, Record.enter_append g here _ _ _ passes front.length_eq]
      refine List.rel_append front' (.cons ?_ behind')
      -- only a frame with a field refuses
      cases field : target.field with
      | none => cases h.unasked (target?.trans field)
      | some p =>
        have inside : ([target].filterMap Frame.field).Sublist ((target :: rest).filterMap Frame.field) :=
          (List.singleton_sublist.2 List.mem_cons_self).filterMap _
        have alone := h.told_others (.cons own .nil) new (fun p mem => known' p (inside.subset mem))
          fun p _ is => Bool.false_ne_true is.1
        exact (List.forall₂_cons.1 alone).1.enter field _

/-! ## One event -/

namespace Frame

variable {change : Frame → Frame}

theorem filterMap_field_updateTarget (same : ∀ f, (change f).field = f.field) :
    ∀ fs : List Frame, (updateTarget change fs).filterMap field = fs.filterMap field
  | [] => rfl
  | f :: fs => by
    rw [updateTarget]
    split
    · rw [List.filterMap_cons, List.filterMap_cons, filterMap_field_updateTarget same fs]
    · rw [List.filterMap_cons, List.filterMap_cons, same]

theorem updateTarget_eq_nil {fs : List Frame} (none : updateTarget change fs = []) : fs = [] := by
  cases fs with
  | nil => rfl
  | cons f fs =>
    rw [updateTarget] at none
    split at none <;> cases none

theorem flatMap_identifiers_updateTarget (same : ∀ f, (change f).identifiers = f.identifiers) :
    ∀ fs : List Frame, (updateTarget change fs).flatMap identifiers = fs.flatMap identifiers
  | [] => rfl
  | f :: fs => by
    rw [updateTarget]
    split
    · rw [List.flatMap_cons, List.flatMap_cons, flatMap_identifiers_updateTarget same fs]
    · rw [List.flatMap_cons, List.flatMap_cons, same]

/-- A frame that writes a marker has one more identifier. -/
theorem identifiers_addMarker {f : Frame} {identifier : String} (unused : identifier ∉ f.identifiers)
    (g : FieldId) : (f.addMarker identifier g).identifiers = f.identifiers ∨
      (f.addMarker identifier g).identifiers = f.identifiers ++ [identifier] := by
  cases f with
  | mk own kind =>
    cases kind with
    | collecting buffer placeholders =>
      refine .inr ?_
      have added := OrderedMap.toList_insert_of_not_mem unused g
      show ((placeholders.insert identifier g).toList).map Prod.fst = _
      rw [added, List.map_append]
      rfl
    | dropping => exact .inl rfl
    | passing => exact .inl rfl

theorem perm_identifiers_updateTarget {identifier : String} (g : FieldId) : ∀ {fs : List Frame},
    identifier ∉ fs.flatMap identifiers →
      ((updateTarget (·.addMarker identifier g) fs).flatMap identifiers).Perm
          (fs.flatMap identifiers) ∨
        ((updateTarget (·.addMarker identifier g) fs).flatMap identifiers).Perm
          (identifier :: fs.flatMap identifiers)
  | [], _ => .inl .rfl
  | f :: fs, unused => by
    rw [List.flatMap_cons, List.mem_append, not_or] at unused
    rw [updateTarget, List.flatMap_cons]
    split
    · rw [List.flatMap_cons]
      exact (perm_identifiers_updateTarget g unused.2).imp (·.append_left _) fun perm =>
        (perm.append_left _).trans List.perm_middle
    · rw [List.flatMap_cons]
      rcases identifiers_addMarker unused.1 g with same | more
      · rw [same]
        exact .inl .rfl
      · rw [more, List.append_assoc]
        exact .inr List.perm_middle

/-- Text that is told of is noted. -/
theorem told_addText {t : FieldTable} (run : String) {fs : List Frame} {rs : List Record}
    (told : List.Forall₂ (Told t) fs rs) :
    List.Forall₂ (Told t) (updateTarget (·.addText run) fs)
      (Record.growAll false fs (updateTarget (·.addText run) fs) rs) := by
  induction told with
  | nil => exact .nil
  | cons first rest ih =>
    rw [updateTarget]
    split
    · rw [Record.growAll, Record.grow_self]
      exact .cons first ih
    · rw [Record.growAll, Record.growAll_self]
      exact .cons (first.addText run) rest

/-- The books stay true while the fields that are known keep their places. -/
theorem told_keep {t t' : FieldTable} {fs : List Frame} {rs : List Record}
    (told : List.Forall₂ (Told t) fs rs)
    (known : ∀ p ∈ fs.filterMap field, ∃ place, t.standing? p = some place)
    (kept : ∀ g place, t.standing? g = some place → t'.standing? g = some place) :
    List.Forall₂ (Told t') fs rs := by
  refine forall₂_imp_of_mem told fun f mem r told =>
    told.keep (fun g q content there => ⟨content, kept g _ there⟩) fun p own => ?_
  obtain ⟨place, there⟩ := known p (List.mem_filterMap.2 ⟨f, mem, own⟩)
  rw [kept p place there, there]

/-- Nothing is told of a frame that was just opened. -/
theorem told_fresh {t : FieldTable} {own : Option FieldId}
    (childless : ∀ p, own = some p → ∃ q, t.standing? p = some (q, [])) :
    (Frame.mk own .fresh).Told t .blank := by
  refine ⟨rfl, rfl, ?_, List.forall_mem_nil _⟩
  cases own with
  | none => rfl
  | some p =>
    obtain ⟨q, there⟩ := childless p rfl
    show [] = ((t.standing? p).map Prod.snd).getD []
    rw [there]
    rfl

end Frame

namespace Bench

variable {b b' : Bench} {c c' : CounterPool}

/-- What an event at a bench comes to: the bench stays sound, the counters grow, and at most one
identifier is used, one that was drawn. -/
structure Advances (b b' : Bench) (c c' : CounterPool) : Prop where
  sound : b'.Sound c'
  series : b'.panel.series = b.panel.series
  grows : c.Grows c'
  identifiers : b'.identifiers.Perm b.identifiers ∨
    ∃ identifier, c.Draws b.panel.series identifier c' ∧
      b'.identifiers.Perm (identifier :: b.identifiers)

theorem perform_eq {e : Event} {answer : Except BuildError Unit} {a : Assembly}
    (run : exec e.perform (b.drawing c) = (answer, a)) : b.perform c e =
      { a with
        records := e.record answer b.frames a.frames b.records
        past := e.leave b.frames b.past } := by
  unfold perform
  rw [run]

/-- Nothing has happened. -/
theorem Sound.unmoved (h : b.Sound c) :
    b.Advances { b.drawing c with records := b.records, past := b.past } c c :=
  ⟨⟨h.series, h.told, h.known, h.apart, h.ended⟩, rfl, .refl c, .inl .rfl⟩

/-- Text of the content is told of. -/
theorem Sound.text (h : b.Sound c) (run : String) :
    b.Advances (b.perform c (.text run)) c (b.perform c (.text run)).counters := by
  rw [perform_eq (b := b) (c := c) (e := .text run) rfl]
  have fields := Frame.filterMap_field_updateTarget (Frame.addText_field · run) b.frames
  have identifiers := Frame.flatMap_identifiers_updateTarget (Frame.identifiers_addText · run) b.frames
  refine ⟨⟨h.series, Frame.told_addText run h.told, ?_, ?_, ?_⟩, rfl, .refl c, .inl (.of_eq ?_)⟩
  · exact fun p mem => h.known p (fields ▸ mem)
  · exact fields.symm ▸ h.apart
  · exact fun none => h.ended (Frame.updateTarget_eq_nil none)
  · exact (List.flatMap_append ..).trans ((congrArg (· ++ _) identifiers).trans
      (List.flatMap_append ..).symm)

/-- A frame is left. -/
theorem Sound.ends (h : b.Sound c) : b.Advances (b.perform c .ends) c (b.perform c .ends).counters := by
  have told := h.told
  cases frames : b.frames with
  | nil =>
    rw [frames] at told
    have none : b.records = [] := List.forall₂_nil_left_iff.1 told
    have still : b.perform c .ends = { b.drawing c with records := b.records, past := b.past } := by
      rw [perform_eq (e := .ends) (AssemblyM.exec_endField_refused (a := b.drawing c) frames),
        frames, none]
      rfl
    rw [still]
    exact h.unmoved
  | cons f fs =>
    obtain ⟨answer, a, run, sheet, _⟩ := AssemblyM.exec_endField_cases (a := b.drawing c) frames
    obtain ⟨ledger, rest⟩ := Prod.mk.inj sheet
    obtain ⟨frames', finished⟩ := Prod.mk.inj rest
    obtain ⟨bare, rest⟩ := Prod.mk.inj ledger
    obtain ⟨series, counters⟩ := Prod.mk.inj rest
    have places := FieldTable.standing?_congr bare
    have known := h.known
    have apart := h.apart
    rw [frames] at told known apart
    rw [perform_eq (e := .ends) run]
    generalize b.records = rs at told
    cases told with
    | cons first told =>
      have inner : ∀ p ∈ fs.filterMap Frame.field, p ∈ (f :: fs).filterMap Frame.field := fun p mem =>
        ((List.sublist_cons_self f fs).filterMap _).subset mem
      have grows : c.Grows a.counters := by
        rw [counters]
        exact .refl c
      refine ⟨⟨?_, ?_, ?_, ?_, ?_⟩, series, grows, .inl ?_⟩
      · exact series ▸ Nat.lt_of_lt_of_le h.series grows.size
      · show List.Forall₂ (Frame.Told a.panel.table) a.frames _
        rw [frames']
        exact Frame.told_keep told (fun p mem => known p (inner p mem)) fun g place there =>
          (places g).trans there
      · intro p mem
        obtain ⟨place, there⟩ := known p (inner p (frames' ▸ mem))
        exact ⟨place, (places p).trans there⟩
      · show (a.frames.filterMap Frame.field).Nodup
        rw [frames']
        exact apart.sublist ((List.sublist_cons_self f fs).filterMap _)
      · intro none
        have last : fs = [] := frames'.symm.trans none
        have ended : a.finished = true := by
          rw [finished, last, List.isEmpty_nil, Bool.or_true]
        refine ⟨fun _ => ?_, fun _ => ended⟩
        show Event.ends.leave b.frames b.past ≠ []
        rw [frames]
        exact List.cons_ne_nil _ _
      · show ((a.frames ++ Event.ends.leave b.frames b.past).flatMap Frame.identifiers).Perm
          ((b.frames ++ b.past).flatMap Frame.identifiers)
        rw [frames', frames]
        exact List.Perm.flatMap_right _ List.perm_middle

section Begins

variable {a : Assembly} {identifier : String} {factory : Option Factory} {attributes : Attributes}
  {answer : Except BuildError Unit}

/-- A bench after the beginning of a field. -/
abbrev begun (b : Bench) (factory : Option Factory) (attributes : Attributes)
    (answer : Except BuildError Unit) (a : Assembly) : Bench :=
  ⟨a, (Event.begins factory attributes).record answer b.frames a.frames b.records, b.past⟩

/-- An element without a field has begun. -/
theorem Sound.element (h : b.Sound c)
    (draws : c.Draws b.panel.series identifier a.counters) (series : a.panel.series = b.panel.series)
    (frames : a.frames = ⟨none, if b.frames.isEmpty then .fresh else .passing⟩ :: b.frames)
    (places : ∀ g, a.panel.table.standing? g = b.panel.table.standing? g) :
    b.Advances (b.begun factory attributes (.ok ()) a) c a.counters := by
  have fields : a.frames.filterMap Frame.field = b.frames.filterMap Frame.field := by
    rw [frames]
    rfl
  refine ⟨⟨?_, ?_, fun p mem => ?_, fields.symm ▸ h.apart, fun none => ?_⟩, series, draws.grows,
    .inl (.of_eq ?_)⟩
  · exact series ▸ Nat.lt_of_lt_of_le h.series draws.grows.size
  · unfold begun
    dsimp only
    rw [frames]
    refine .cons ?_ ?_
    · split
      · exact Frame.told_fresh nofun
      · rfl
    · exact (Record.growAll_self true b.frames b.records).symm ▸
        Frame.told_keep h.told h.known fun g place there => (places g).trans there
  · obtain ⟨place, there⟩ := h.known p (fields ▸ mem)
    exact ⟨place, (places p).trans there⟩
  · exact nomatch frames.symm.trans none
  · unfold identifiers
    rw [frames, List.cons_append, List.flatMap_cons]
    split <;> rfl

/-- A field has begun and has taken its place. -/
theorem Sound.field (h : b.Sound c) (unused : identifier ∉ b.identifiers)
    (draws : c.Draws b.panel.series identifier a.counters) (series : a.panel.series = b.panel.series)
    {kind : Frame.Kind} {rest : List Frame} {accepted : Bool}
    (settles : AssemblyM.Settles b.panel.table a.panel.table b.frames rest identifier
      ⟨b.panel.table.slots.size⟩ accepted)
    (fresh : kind = .fresh ∨ kind = .dropping)
    (frames : a.frames = ⟨some ⟨b.panel.table.slots.size⟩, kind⟩ :: rest) :
    b.Advances (b.begun factory attributes (.ok ()) a) c a.counters := by
  have unknown : b.panel.table.standing? ⟨b.panel.table.slots.size⟩ = none := by
    cases there : b.panel.table.standing? ⟨b.panel.table.slots.size⟩ with
    | none => rfl
    | some place => exact absurd (FieldTable.lt_size_of_standing? there) (Nat.lt_irrefl _)
  have outer : rest.filterMap Frame.field = b.frames.filterMap Frame.field := by
    rw [settles.marked]
    split
    · exact Frame.filterMap_field_updateTarget (fun f => f.addMarker_field _ _) b.frames
    · rfl
  have fields : a.frames.filterMap Frame.field =
      ⟨b.panel.table.slots.size⟩ :: b.frames.filterMap Frame.field := by
    rw [frames, ← outer]
    rfl
  rw [identifiers, List.flatMap_append, List.mem_append, not_or] at unused
  have own := (settles.places ⟨b.panel.table.slots.size⟩).trans (if_pos rfl)
  refine ⟨⟨?_, ?_, fun p mem => ?_, ?_, fun none => ?_⟩, series, draws.grows, ?_⟩
  · exact series ▸ Nat.lt_of_lt_of_le h.series draws.grows.size
  · unfold begun
    dsimp only
    rw [frames]
    refine .cons ?_ (settles.told h.told unknown h.known h.apart unused.1)
    rcases fresh with rfl | rfl
    · exact Frame.told_fresh fun p same => Option.some.inj same ▸ ⟨_, own⟩
    · rfl
  · rcases List.mem_cons.1 (fields ▸ mem) with rfl | mem
    · exact ⟨_, own⟩
    · obtain ⟨⟨q, content⟩, there⟩ := h.known p mem
      obtain ⟨content', there'⟩ := settles.kept unknown p q content there
      exact ⟨_, there'⟩
  · refine (congrArg List.Nodup fields).mpr (List.nodup_cons.2 ⟨fun mem => ?_, h.apart⟩)
    obtain ⟨place, there⟩ := h.known _ mem
    exact nomatch unknown.symm.trans there
  · exact nomatch frames.symm.trans none
  · have opened : Frame.identifiers ⟨some ⟨b.panel.table.slots.size⟩, kind⟩ = [] := by
      rcases fresh with rfl | rfl <;> rfl
    have written : (b.begun factory attributes (.ok ()) a).identifiers =
        rest.flatMap Frame.identifiers ++ b.past.flatMap Frame.identifiers := by
      unfold identifiers
      rw [frames, List.flatMap_append, List.flatMap_cons, opened, List.nil_append]
    have before : b.identifiers =
        b.frames.flatMap Frame.identifiers ++ b.past.flatMap Frame.identifiers := List.flatMap_append
    rw [written, before]
    have marked : (rest.flatMap Frame.identifiers).Perm (b.frames.flatMap Frame.identifiers) ∨
        (rest.flatMap Frame.identifiers).Perm
          (identifier :: b.frames.flatMap Frame.identifiers) := by
      rw [settles.marked]
      split
      · exact Frame.perm_identifiers_updateTarget _ unused.1
      · exact .inl .rfl
    exact marked.imp (·.append_right _) fun perm => ⟨identifier, draws, perm.append_right _⟩

/-- A field that was made has found no place. -/
theorem Sound.misplaced (h : b.Sound c)
    (draws : c.Draws b.panel.series identifier a.counters) (series : a.panel.series = b.panel.series)
    (finished : a.finished = b.finished) {e : BuildError} (frames : a.frames = b.frames)
    (places : ∀ g, g.index < b.panel.table.slots.size →
      a.panel.table.standing? g = b.panel.table.standing? g) :
    b.Advances (b.begun factory attributes (.error e) a) c a.counters := by
  have kept : ∀ g place, b.panel.table.standing? g = some place →
      a.panel.table.standing? g = some place := fun g place there =>
    (places g (FieldTable.lt_size_of_standing? there)).trans there
  refine ⟨⟨?_, ?_, fun p mem => ?_, ?_, fun none => ?_⟩, series, draws.grows, .inl (.of_eq ?_)⟩
  · exact series ▸ Nat.lt_of_lt_of_le h.series draws.grows.size
  · unfold begun
    dsimp only
    have noted : (Event.begins factory attributes).record (.error e) b.frames b.frames b.records =
        b.records := Record.growAll_self true b.frames b.records
    rw [frames, noted]
    exact Frame.told_keep h.told h.known kept
  · obtain ⟨place, there⟩ := h.known p (by rwa [← frames])
    exact ⟨place, kept p place there⟩
  · exact frames.symm ▸ h.apart
  · exact (congrArg (· = true ↔ b.past ≠ []) finished).mpr (h.ended (frames.symm.trans none))
  · unfold identifiers
    rw [frames]

/-- A field begins, or an element without a field. -/
theorem Sound.begins (h : b.Sound c) (drawn : ∀ o ∈ b.identifiers,
      ∃ n < (c.get b.panel.series).placeholder, o = Counters.Purpose.identifier .placeholder n)
    (factory : Option Factory) (attributes : Attributes) :
    b.Advances (b.perform c (.begins factory attributes)) c
      (b.perform c (.begins factory attributes)).counters := by
  by_cases refused : b.frames.isEmpty = true ∧ b.finished = true
  · have none := List.isEmpty_iff.1 refused.1
    have still : b.perform c (.begins factory attributes) =
        { b.drawing c with records := b.records, past := b.past } := by
      rw [perform_eq (e := .begins factory attributes) (AssemblyM.exec_beginField_refused
        (a := b.drawing c) none refused.2 factory attributes)]
      exact congrArg (Bench.mk (b.drawing c) · b.past) (Record.growAll_self true b.frames b.records)
    rw [still]
    exact h.unmoved
  · have older : ∀ p ∈ b.frames.filterMap Frame.field, p.index < b.panel.table.slots.size := by
      intro p mem
      obtain ⟨place, there⟩ := h.known p mem
      exact FieldTable.lt_size_of_standing? there
    obtain ⟨answer, a, identifier, run, finished, series, draws, begins⟩ :=
      AssemblyM.exec_beginField_cases (a := b.drawing c) refused h.series older factory attributes
    rw [perform_eq (e := .begins factory attributes) run]
    cases begins with
    | element frames places => exact h.element draws series frames places
    | field settles fresh frames =>
      exact h.field (draws.unused drawn) draws series settles fresh frames
    | fails sort frames places => exact h.misplaced draws series finished frames places

end Begins

/-- **An event** keeps the books of its bench, and uses at most one identifier, a new one. -/
theorem Sound.advances (h : b.Sound c) (drawn : ∀ o ∈ b.identifiers,
      ∃ n < (c.get b.panel.series).placeholder, o = Counters.Purpose.identifier .placeholder n) :
    ∀ e : Event, b.Advances (b.perform c e) c (b.perform c e).counters
  | .begins factory attributes => h.begins drawn factory attributes
  | .text run => h.text run
  | .ends => h.ends

theorem Sound.start (s : Scene) (known : s.panel.series.index < c.sets.size) : (start s).Sound c :=
  ⟨known, .nil, List.forall_mem_nil _, List.nodup_nil, fun _ => ⟨nofun, fun past => absurd rfl past⟩⟩

theorem Sound.mono (h : b.Sound c) (grows : c.Grows c') : b.Sound c' :=
  ⟨Nat.lt_of_lt_of_le h.series grows.size, h.told, h.known, h.apart, h.ended⟩

/-- A sound bench is orderly. -/
theorem Sound.toOrderly (h : b.Sound c) : b.Orderly c := by
  refine ⟨?_, ?_, AssemblyM.exec_finish _, h.told⟩
  · rintro (⟨factory, attributes⟩ | run | _) out
    · obtain ⟨none, past⟩ := out
      exact ⟨.beginAfterEnd, rfl, AssemblyM.exec_beginField_refused (a := b.drawing c) none
        ((h.ended none).2 past) factory attributes⟩
    · exact out.elim
    · exact ⟨.endWithoutBegin, rfl, AssemblyM.exec_endField_refused (a := b.drawing c) out⟩
  · rintro (⟨factory, attributes⟩ | run | _) error placed failed
    · have allowed : ¬ ((b.drawing c).frames.isEmpty = true ∧ (b.drawing c).finished = true) := by
        rintro ⟨empty, finished⟩
        have none := List.isEmpty_iff.1 empty
        exact placed ⟨none, (h.ended none).1 finished⟩
      have older : ∀ p ∈ (b.drawing c).frames.filterMap Frame.field,
          p.index < (b.drawing c).panel.table.slots.size := by
        intro p mem
        obtain ⟨place, there⟩ := h.known p mem
        exact FieldTable.lt_size_of_standing? there
      obtain ⟨answer, a, identifier, run, _, _, _, begins⟩ :=
        AssemblyM.exec_beginField_cases allowed h.series older factory attributes
      rw [show exec (Event.begins factory attributes).perform (b.drawing c) = (answer, a) from run]
        at failed
      cases begins with
      | element => cases failed
      | field => cases failed
      | fails sort =>
        cases failed
        exact sort
    · cases failed
    · cases frames : b.frames with
      | nil => exact absurd frames placed
      | cons f fs =>
        obtain ⟨answer, a, run, _, sort⟩ := AssemblyM.exec_endField_cases (a := b.drawing c) frames
        rw [show exec Event.ends.perform (b.drawing c) = (answer, a) from run] at failed
        exact sort error failed

end Bench

/-! ## All that happens in a workshop -/

namespace Workshop

variable {w : Workshop}

/-- The invariant of a workshop: all benches are sound, and the identifiers that were used are different
and lie below the counters. -/
structure Sound (w : Workshop) : Prop where
  benches : ∀ b ∈ w.benches, b.Sound w.counters
  distinct : w.identifiers.Nodup
  drawn : ∀ o ∈ w.identifiers, ∃ n < (w.counters.get o.1).placeholder,
    o.2 = Counters.Purpose.identifier .placeholder n

theorem Sound.grows (h : w.Sound) {c : CounterPool} (grows : w.counters.Grows c) :
    (Workshop.mk c w.benches).Sound := by
  refine ⟨fun b mem => (h.benches b mem).mono grows, h.distinct, fun o mem => ?_⟩
  obtain ⟨n, low, same⟩ := h.drawn o mem
  exact ⟨n, Nat.lt_of_lt_of_le low (grows.placeholder o.1), same⟩

theorem identifiers_append (c : CounterPool) (before behind : List Bench) (b : Bench) :
    (Workshop.mk c (before ++ b :: behind)).identifiers = (Workshop.mk c before).identifiers ++
      (b.identifiers.map (Prod.mk b.panel.series) ++ (Workshop.mk c behind).identifiers) := by
  unfold identifiers
  rw [List.flatMap_append, List.flatMap_cons]

/-- When a bench advances, at most one identifier of the workshop is new. -/
theorem perm_identifiers {c c' : CounterPool} {b b' : Bench} (advances : b.Advances b' c c')
    (before behind : List Bench) :
    (Workshop.mk c' (before ++ b' :: behind)).identifiers.Perm
        (Workshop.mk c (before ++ b :: behind)).identifiers ∨
      ∃ identifier, c.Draws b.panel.series identifier c' ∧
        (Workshop.mk c' (before ++ b' :: behind)).identifiers.Perm
          ((b.panel.series, identifier) :: (Workshop.mk c (before ++ b :: behind)).identifiers) := by
  rw [identifiers_append, identifiers_append, advances.series]
  rcases advances.identifiers with perm | ⟨identifier, draws, perm⟩
  · exact .inl (((perm.map _).append_right _).append_left _)
  · refine .inr ⟨identifier, draws, ?_⟩
    exact (((perm.map _).append_right _).append_left _).trans List.perm_middle

/-- One of the benches advances. -/
theorem Sound.advances {c c' : CounterPool} {before behind : List Bench} {b b' : Bench}
    (h : (Workshop.mk c (before ++ b :: behind)).Sound) (advances : b.Advances b' c c') :
    (Workshop.mk c' (before ++ b' :: behind)).Sound := by
  have grown := h.grows advances.grows
  have benches : ∀ x ∈ before ++ b' :: behind, x.Sound c' := by
    intro x mem
    rcases List.mem_append.1 mem with front | mem
    · exact grown.benches x (List.mem_append_left _ front)
    · rcases List.mem_cons.1 mem with rfl | rest
      · exact advances.sound
      · exact grown.benches x (List.mem_append_right _ (List.mem_cons_of_mem _ rest))
  rcases perm_identifiers advances before behind with perm | ⟨identifier, draws, perm⟩
  · exact ⟨benches, perm.nodup_iff.2 h.distinct, fun o mem => grown.drawn o (perm.mem_iff.1 mem)⟩
  · refine ⟨benches, perm.nodup_iff.2 (List.nodup_cons.2 ⟨fun mem => ?_, h.distinct⟩), fun o mem => ?_⟩
    · have older : ∀ o ∈ [identifier], ∃ n < (c.get b.panel.series).placeholder,
          o = Counters.Purpose.identifier .placeholder n :=
        List.forall_mem_singleton.2 (h.drawn _ mem)
      exact draws.unused older (List.mem_singleton_self _)
    · rcases List.mem_cons.1 (perm.mem_iff.1 mem) with rfl | old
      · obtain ⟨n, _, low, same⟩ := draws.number
        exact ⟨n, low, same⟩
      · exact grown.drawn o old

/-- **The invariant** holds in every workshop that is reached. -/
theorem Reached.sound (h : w.Reached) : w.Sound := by
  induction h with
  | opens c => exact ⟨List.forall_mem_nil _, List.nodup_nil, List.forall_mem_nil _⟩
  | starts _ s known ih =>
    exact ⟨List.forall_mem_cons.2 ⟨.start s known, ih.benches⟩, ih.distinct, ih.drawn⟩
  | elsewhere _ grows ih => exact ih.grows grows
  | @performs c before behind b _ e ih =>
    refine ih.advances ((ih.benches b ?_).advances (fun o mem => ?_) e)
    · exact List.mem_append_right _ List.mem_cons_self
    · refine ih.drawn (b.panel.series, o) (List.mem_flatMap.2 ⟨b, ?_, List.mem_map_of_mem mem⟩)
      exact List.mem_append_right _ List.mem_cons_self

/-- **Assembling is orderly.**  Whatever events the benches of a workshop are told of, and whatever
happens to the counters elsewhere: an event is refused as unbalanced exactly if it is out of place, and
then nothing has changed; finishing fails exactly if frames are open; the markers in the markup of an
open frame are those of its placeholders, in the same order, and stand for the fields that it accepted;
and no identifier is used twice, in any frame of any bench with the same counters. -/
theorem Reached.orderly (h : w.Reached) :
    (∀ b ∈ w.benches, b.Orderly w.counters) ∧ w.identifiers.Nodup :=
  ⟨fun b mem => (h.sound.benches b mem).toOrderly, h.sound.distinct⟩

/-- Tell one of the benches of an event; benches that are not there are not told. -/
def tell (w : Workshop) (telling : Nat × Event) : Workshop :=
  match w.benches.drop telling.1 with
  | [] => w
  | b :: behind =>
    ⟨(b.perform w.counters telling.2).counters,
      w.benches.take telling.1 ++ b.perform w.counters telling.2 :: behind⟩

theorem Reached.tell (h : w.Reached) (telling : Nat × Event) : (w.tell telling).Reached := by
  unfold Workshop.tell
  cases there : w.benches.drop telling.1 with
  | nil => exact h
  | cons b behind =>
    have whole : w.benches.take telling.1 ++ b :: behind = w.benches := by
      rw [← there, List.take_append_drop]
    refine .performs (b := b) ?_ telling.2
    rw [whole]
    exact h

theorem Reached.tellAll (h : w.Reached) (tellings : List (Nat × Event)) :
    (tellings.foldl Workshop.tell w).Reached :=
  List.foldlRecOn _ _ h fun _ h telling _ => h.tell telling

/-- Two panels that draw from the same counters, and what they are told of by turns: a page of a tab
container, which leaves no marker, an element without a field, and an end that is out of place. -/
def twoPanels : Workshop :=
  [(0, .begins none .empty), (1, .begins none .empty), (0, .text "a"),
    (0, .begins (some ⟨0, some .tabs⟩) .empty), (0, .begins (some ⟨1, some .panel⟩) .empty),
    (1, .begins (some ⟨2, some .label⟩) .empty), (0, .ends), (0, .ends),
    (0, .begins (some ⟨3, none⟩) .empty), (0, .begins (some ⟨2, some .label⟩) .empty),
    (1, .ends), (1, .ends), (1, .ends)].foldl tell
    ⟨⟨#[.initial]⟩, [.start (.opened .empty ⟨#[.initial]⟩ ⟨0⟩ .empty),
      .start (.opened .empty ⟨#[.initial]⟩ ⟨0⟩ .empty)]⟩

theorem reached_twoPanels : twoPanels.Reached :=
  Reached.tellAll (.starts (.starts (.opens _) _ (by decide)) _ (by decide)) _

theorem Reached.orderly_twoPanels : twoPanels.Reached ∧
    twoPanels.identifiers = [(⟨0⟩, "__tmps_2"), (⟨0⟩, "__tmps_6"), (⟨0⟩, "__tmps_4")] ∧
    (∀ b ∈ twoPanels.benches, b.Orderly twoPanels.counters) ∧ twoPanels.identifiers.Nodup :=
  ⟨reached_twoPanels, by decide +kernel, reached_twoPanels.orderly⟩

end Workshop

end Formwork
