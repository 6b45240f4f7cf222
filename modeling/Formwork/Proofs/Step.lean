import Mathlib.Logic.Basic

/-!
# Running steps that may fail

Pages, panels, assemblies and workspaces are all changed by steps of one form: a step has a
state, answers or fails, and a failure keeps the state that was reached.  `exec` runs such a
step.  The equations below say what the composed steps do; a step whose parts are known is
run by rewriting with them.
-/

namespace Formwork

set_option autoImplicit false

variable {σ ε α β : Type}

/-- What a step answers, and the state that it leaves. -/
def exec (m : ExceptT ε (StateM σ) α) (s : σ) : Except ε α × σ := m.run.run s

@[simp]
theorem exec_pure (a : α) (s : σ) : exec (pure a : ExceptT ε (StateM σ) α) s = (.ok a, s) := rfl

theorem exec_bind (m : ExceptT ε (StateM σ) α) (f : α → ExceptT ε (StateM σ) β) (s : σ) :
    exec (m >>= f) s =
      match exec m s with
      | (.ok a, s') => exec (f a) s'
      | (.error e, s') => (.error e, s') := by
  have unfolded : exec (m >>= f) s =
      exec (ExceptT.mk (ExceptT.bindCont f (m.run.run s).1)) (m.run.run s).2 := rfl
  rw [unfolded]
  unfold exec
  cases m.run.run s with
  | mk answer s' =>
    cases answer with
    | ok a => rfl
    | error e => rfl

/-- A step whose first part answers goes on with the answer. -/
theorem exec_bind_ok {m : ExceptT ε (StateM σ) α} {f : α → ExceptT ε (StateM σ) β} {s s' : σ}
    {a : α} (first : exec m s = (.ok a, s')) : exec (m >>= f) s = exec (f a) s' := by
  rw [exec_bind, first]

/-- A step whose first part fails has failed. -/
theorem exec_bind_error {m : ExceptT ε (StateM σ) α} {f : α → ExceptT ε (StateM σ) β}
    {s s' : σ} {e : ε} (first : exec m s = (.error e, s')) :
    exec (m >>= f) s = (.error e, s') := by
  rw [exec_bind, first]

@[simp]
theorem exec_get (s : σ) : exec (get : ExceptT ε (StateM σ) σ) s = (.ok s, s) := rfl

@[simp]
theorem exec_set (s s' : σ) : exec (set s' : ExceptT ε (StateM σ) PUnit) s = (.ok ⟨⟩, s') := rfl

@[simp]
theorem exec_modify (f : σ → σ) (s : σ) :
    exec (modify f : ExceptT ε (StateM σ) PUnit) s = (.ok ⟨⟩, f s) := rfl

@[simp]
theorem exec_throw (e : ε) (s : σ) : exec (throw e : ExceptT ε (StateM σ) α) s = (.error e, s) :=
  rfl

/-- A composed step that answers is two steps that answer, one after the other. -/
theorem exec_bind_eq_ok {m : ExceptT ε (StateM σ) α} {f : α → ExceptT ε (StateM σ) β}
    {s t : σ} {b : β} :
    exec (m >>= f) s = (.ok b, t) ↔
      ∃ a s', exec m s = (.ok a, s') ∧ exec (f a) s' = (.ok b, t) := by
  rw [exec_bind]
  constructor
  · intro run
    cases h : exec m s with
    | mk answer s' =>
      cases answer with
      | ok a =>
        rw [h] at run
        exact ⟨a, s', rfl, run⟩
      | error e =>
        rw [h] at run
        cases run
  · rintro ⟨a, s', first, second⟩
    rw [first]
    exact second

/-! ## Steps on a part of the state -/

section Within

variable {τ γ ε' : Type} {inner : ExceptT ε (StateM τ) α} {part : σ → τ} {store : σ → τ → σ}
  {result : α → τ → γ} {wrap : ε → ε'} {s t : σ} {x : α} {p : τ}

/-- Run a step on a part of the state and keep what it leaves; its failure is told in one's own
words. -/
def within (inner : ExceptT ε (StateM τ) α) (part : σ → τ) (store : σ → τ → σ)
    (result : α → τ → γ) (wrap : ε → ε') : ExceptT ε' (StateM σ) γ := do
  let s ← get
  let (answer, p) := inner.run.run (part s)
  set (store s p)
  match answer with
  | .ok x => return result x p
  | .error e => throw (wrap e)

theorem exec_within_ok (run : exec inner (part s) = (.ok x, p)) :
    exec (within inner part store result wrap) s = (.ok (result x p), store s p) := by
  have asked : inner.run.run (part s) = (.ok x, p) := run
  unfold within
  rw [exec_bind_ok (exec_get s), asked, exec_bind_ok (exec_set ..)]
  rfl

theorem exec_within_error {e : ε} (run : exec inner (part s) = (.error e, p)) :
    exec (within inner part store result wrap) s = (.error (wrap e), store s p) := by
  have asked : inner.run.run (part s) = (.error e, p) := run
  unfold within
  rw [exec_bind_ok (exec_get s), asked, exec_bind_ok (exec_set ..)]
  rfl

/-- A step on a part that answers is a step of the part that answers. -/
theorem exec_within_eq_ok {c : γ} (run : exec (within inner part store result wrap) s = (.ok c, t)) :
    ∃ x p, exec inner (part s) = (.ok x, p) ∧ c = result x p ∧ t = store s p := by
  cases asked : exec inner (part s) with
  | mk answer p =>
    cases answer with
    | ok x =>
      rw [exec_within_ok asked] at run
      cases run
      exact ⟨x, p, rfl, rfl, rfl⟩
    | error e =>
      rw [exec_within_error asked] at run
      cases run

end Within

/-! ## What a step keeps -/

/-- A step keeps an invariant, whether it answers or fails. -/
def Preserves (inv : σ → Prop) (m : ExceptT ε (StateM σ) α) : Prop := ∀ s, inv s → inv (exec m s).2

namespace Preserves

variable {inv : σ → Prop}

theorem pure (a : α) : Preserves inv (pure a : ExceptT ε (StateM σ) α) := fun _ => id

theorem bind {m : ExceptT ε (StateM σ) α} {f : α → ExceptT ε (StateM σ) β} (first : Preserves inv m)
    (rest : ∀ a, Preserves inv (f a)) : Preserves inv (m >>= f) := by
  intro s here
  have next := first s here
  rw [exec_bind]
  cases run : exec m s with
  | mk answer s' =>
    rw [run] at next
    cases answer with
    | ok a => exact rest a s' next
    | error e => exact next

theorem get_bind {f : σ → ExceptT ε (StateM σ) β} (rest : ∀ s, Preserves inv (f s)) :
    Preserves inv (MonadState.get >>= f) := fun s => rest s s

theorem forM {f : α → ExceptT ε (StateM σ) PUnit} (each : ∀ a, Preserves inv (f a)) :
    ∀ as : List α, Preserves inv (as.forM f)
  | [] => pure _
  | a :: as => bind (each a) fun _ => forM each as

theorem mapM {f : α → ExceptT ε (StateM σ) β} (each : ∀ a, Preserves inv (f a)) (as : List α) :
    Preserves inv (as.mapM f) := by
  induction as with
  | nil =>
    rw [List.mapM_nil]
    exact pure _
  | cons a as ih =>
    rw [List.mapM_cons]
    exact bind (each a) fun _ => bind ih fun _ => pure _

end Preserves

/-! ## What a step leaves alone -/

/-- A step leaves a view of the state alone, whether it answers or fails. -/
def Retains {τ : Type} (view : σ → τ) (m : ExceptT ε (StateM σ) α) : Prop :=
  ∀ s, view (exec m s).2 = view s

namespace Retains

variable {τ : Type} {view : σ → τ}

/-- A view is left alone if whatever it is, it is kept. -/
theorem iff_preserves {m : ExceptT ε (StateM σ) α} :
    Retains view m ↔ ∀ t, Preserves (fun s => view s = t) m :=
  ⟨fun h _ s here => (h s).trans here, fun h s => h _ s rfl⟩

theorem pure (a : α) : Retains view (pure a : ExceptT ε (StateM σ) α) := fun _ => rfl

theorem get : Retains view (get : ExceptT ε (StateM σ) σ) := fun _ => rfl

theorem bind {m : ExceptT ε (StateM σ) α} {f : α → ExceptT ε (StateM σ) β}
    (first : Retains view m) (rest : ∀ a, Retains view (f a)) : Retains view (m >>= f) :=
  iff_preserves.2 fun t => .bind (iff_preserves.1 first t) fun a => iff_preserves.1 (rest a) t

/-- A step that depends on the state it starts in. -/
theorem get_bind {f : σ → ExceptT ε (StateM σ) β} (rest : ∀ s, view (exec (f s) s).2 = view s) :
    Retains view (MonadState.get >>= f) := rest

theorem forM {f : α → ExceptT ε (StateM σ) PUnit} (each : ∀ a, Retains view (f a)) (as : List α) :
    Retains view (as.forM f) :=
  iff_preserves.2 fun t => .forM (fun a => iff_preserves.1 (each a) t) as

theorem mapM {f : α → ExceptT ε (StateM σ) β} (each : ∀ a, Retains view (f a)) (as : List α) :
    Retains view (as.mapM f) :=
  iff_preserves.2 fun t => .mapM (fun a => iff_preserves.1 (each a) t) as

end Retains

/-! ## How a step fails -/

/-- Whatever state a step starts in, it can fail only with errors of one sort. -/
def Fails (sort : ε → Prop) (m : ExceptT ε (StateM σ) α) : Prop :=
  ∀ s e, (exec m s).1 = .error e → sort e

namespace Fails

variable {sort : ε → Prop}

theorem pure (a : α) : Fails sort (pure a : ExceptT ε (StateM σ) α) := nofun

theorem get : Fails sort (get : ExceptT ε (StateM σ) σ) := nofun

theorem modify (f : σ → σ) : Fails sort (modify f : ExceptT ε (StateM σ) PUnit) := nofun

theorem throw {e : ε} (known : sort e) : Fails sort (throw e : ExceptT ε (StateM σ) α) :=
  fun _ _ same => Except.error.inj same ▸ known

theorem bind {m : ExceptT ε (StateM σ) α} {f : α → ExceptT ε (StateM σ) β} (first : Fails sort m)
    (rest : ∀ a, Fails sort (f a)) : Fails sort (m >>= f) := by
  intro s e failed
  rw [exec_bind] at failed
  cases run : exec m s with
  | mk answer s' =>
    rw [run] at failed
    cases answer with
    | ok a => exact rest a s' e failed
    | error e' => exact first s e ((congrArg Prod.fst run).trans (congrArg _ (Except.error.inj failed)))

theorem forM {f : α → ExceptT ε (StateM σ) PUnit} (each : ∀ a, Fails sort (f a)) :
    ∀ as : List α, Fails sort (as.forM f)
  | [] => pure _
  | a :: as => bind (each a) fun _ => forM each as

end Fails

/-! ## What a step comes to -/

/-- A step takes a state to one that it is related to, whether it answers or fails, and what it answers
has a property there. -/
def Goes (R : σ → σ → Prop) (s : σ) (m : ExceptT ε (StateM σ) α) (answers : α → σ → Prop) : Prop :=
  R s (exec m s).2 ∧ ∀ a, (exec m s).1 = .ok a → answers a (exec m s).2

namespace Goes

variable {R : σ → σ → Prop} {s s' : σ} {answers answers' : α → σ → Prop}

theorem pure (refl : R s s) {a : α} (done : answers a s) :
    Goes R s (pure a : ExceptT ε (StateM σ) α) answers :=
  ⟨refl, fun _ same => Except.ok.inj same ▸ done⟩

theorem throw (refl : R s s) (e : ε) : Goes R s (throw e : ExceptT ε (StateM σ) α) answers :=
  ⟨refl, nofun⟩

theorem modify {f : σ → σ} {answers : PUnit → σ → Prop} (step : R s (f s)) (done : answers ⟨⟩ (f s)) :
    Goes R s (modify f : ExceptT ε (StateM σ) PUnit) answers := ⟨step, fun _ _ => done⟩

/-- A step whose run is known. -/
theorem of_exec {m : ExceptT ε (StateM σ) α} {answer : Except ε α} (run : exec m s = (answer, s'))
    (step : R s s') (done : ∀ a, answer = .ok a → answers a s') : Goes R s m answers := by
  unfold Goes
  rw [run]
  exact ⟨step, done⟩

theorem mono {m : ExceptT ε (StateM σ) α} (h : Goes R s m answers)
    (weaker : ∀ a s', R s s' → answers a s' → answers' a s') : Goes R s m answers' :=
  ⟨h.1, fun a run => weaker a _ h.1 (h.2 a run)⟩

/-- What is answered is what the step answers. -/
theorem known {m : ExceptT ε (StateM σ) α} (h : Goes R s m answers) :
    Goes R s m fun a s' => exec m s = (.ok a, s') ∧ answers a s' :=
  ⟨h.1, fun a run => ⟨Prod.ext run rfl, h.2 a run⟩⟩

/-- A step that is related in a narrower way. -/
theorem relax {R' : σ → σ → Prop} {m : ExceptT ε (StateM σ) α} (h : Goes R' s m answers)
    (weaker : ∀ s', R' s s' → R s s') : Goes R s m answers := ⟨weaker _ h.1, h.2⟩

/-- One step after the other. -/
theorem bind {m : ExceptT ε (StateM σ) α} {f : α → ExceptT ε (StateM σ) β}
    {answers' : β → σ → Prop} (trans : ∀ {a b c}, R a b → R b c → R a c) (first : Goes R s m answers)
    (rest : ∀ a s', R s s' → answers a s' → Goes R s' (f a) answers') :
    Goes R s (m >>= f) answers' := by
  obtain ⟨step, done⟩ := first
  unfold Goes
  rw [exec_bind]
  cases run : exec m s with
  | mk answer s' =>
    rw [run] at step done
    cases answer with
    | ok a =>
      obtain ⟨step', done'⟩ := rest a s' step (done a rfl)
      exact ⟨trans step step', done'⟩
    | error e => exact ⟨step, nofun⟩

theorem get_bind {f : σ → ExceptT ε (StateM σ) β} {answers : β → σ → Prop}
    (rest : Goes R s (f s) answers) : Goes R s (MonadState.get >>= f) answers := rest

/-- The same step for each member of a list. -/
theorem forM {f : α → ExceptT ε (StateM σ) PUnit} (refl : ∀ {a b}, R a b → R b b)
    (trans : ∀ {a b c}, R a b → R b c → R a c) : ∀ {as : List α} {s : σ}, R s s →
      (∀ a ∈ as, ∀ s', R s s' → Goes R s' (f a) fun _ _ => True) →
      Goes R s (as.forM f) fun _ _ => True
  | [], _, here, _ => pure here trivial
  | a :: _, s, here, each =>
    bind trans (each a List.mem_cons_self s here) fun _ _ step _ =>
      forM refl trans (refl step) fun b mem t later =>
        each b (List.mem_cons_of_mem _ mem) t (trans step later)

/-- A step on a part of the state. -/
theorem within {τ γ ε' : Type} {S : τ → τ → Prop} {inner : ExceptT ε (StateM τ) α} {part : σ → τ}
    {store : σ → τ → σ} {result : α → τ → γ} {wrap : ε → ε'} {answers : α → τ → Prop}
    {answers' : γ → σ → Prop} (h : Goes S (part s) inner answers)
    (step : ∀ t, S (part s) t → R s (store s t))
    (done : ∀ a t, S (part s) t → answers a t → answers' (result a t) (store s t)) :
    Goes R s (Formwork.within inner part store result wrap) answers' := by
  obtain ⟨leads, asked⟩ := h
  cases run : exec inner (part s) with
  | mk answer t =>
    rw [run] at leads asked
    cases answer with
    | ok a =>
      refine of_exec (exec_within_ok run) (step t leads) fun c same => ?_
      rw [← Except.ok.inj same]
      exact done a t leads (asked a rfl)
    | error e => exact of_exec (exec_within_error run) (step t leads) nofun

end Goes

/-- Steps that are related in some way keep an invariant: where it holds doing nothing is such a step,
and it holds after every one. -/
structure Upholds (R : σ → σ → Prop) (inv : σ → Prop) : Prop where
  refl : ∀ {s}, inv s → R s s
  holds : ∀ {s s'}, R s s' → inv s'
  trans : ∀ {a b c}, R a b → R b c → R a c

namespace Upholds

variable {R : σ → σ → Prop} {inv : σ → Prop} {s : σ}

/-- The answer of a step is made into another. -/
theorem map (h : Upholds R inv) {m : ExceptT ε (StateM σ) α} {answers : α → σ → Prop} {f : α → β}
    (first : Goes R s m answers) : Goes R s (m >>= fun a => pure (f a)) fun _ _ => True :=
  .bind h.trans first fun _ _ step _ => .pure (h.refl (h.holds step)) trivial

/-- The same step for each member of a list. -/
theorem forM (h : Upholds R inv) {f : α → ExceptT ε (StateM σ) PUnit} {as : List α} (here : inv s)
    (each : ∀ a ∈ as, ∀ s, inv s → Goes R s (f a) fun _ _ => True) :
    Goes R s (as.forM f) fun _ _ => True :=
  .forM (fun step => h.refl (h.holds step)) h.trans (h.refl here) fun a mem t step =>
    each a mem t (h.holds step)

theorem mapM (h : Upholds R inv) {f : α → ExceptT ε (StateM σ) β} : ∀ {as : List α} {s : σ}, inv s →
    (∀ a ∈ as, ∀ s, inv s → Goes R s (f a) fun _ _ => True) →
    Goes R s (as.mapM f) fun _ _ => True
  | [], _, here, _ => by
    rw [List.mapM_nil]
    exact .pure (h.refl here) trivial
  | a :: as, s, here, each => by
    rw [List.mapM_cons]
    exact .bind h.trans (each a List.mem_cons_self s here) fun _ _ step _ =>
      h.map (h.mapM (h.holds step) fun b mem => each b (List.mem_cons_of_mem _ mem))

end Upholds

/-! ## Steps over lists -/

theorem exec_forM_cons (a : α) (as : List α) (f : α → ExceptT ε (StateM σ) PUnit) (s : σ) :
    exec ((a :: as).forM f) s = exec (do f a; as.forM f) s := rfl

theorem exec_forM_append (as bs : List α) (f : α → ExceptT ε (StateM σ) PUnit) (s : σ) :
    exec ((as ++ bs).forM f) s = exec (do as.forM f; bs.forM f) s := by
  induction as generalizing s with
  | nil => rfl
  | cons a as ih =>
    rw [List.cons_append, exec_forM_cons, exec_bind, exec_bind, exec_forM_cons, exec_bind]
    cases exec (f a) s with
    | mk answer s' =>
      cases answer with
      | ok x =>
        dsimp only
        rw [ih, exec_bind]
      | error e => rfl

end Formwork
