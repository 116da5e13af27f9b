import Mathlib.Data.List.Basic

/-!
# Runs of a labelled transition system

A system is a partial step function: `step s a = none` when action `a` is not
enabled in state `s`.  `exec` replays a list of actions, which is what a concrete
scenario is checked with; `RunWhere` collects the states reached by runs each of
whose steps satisfies a condition on the state before the step and the action,
which is what an invariant is proved over.  `RunWhere.invariant` is the only
induction on runs: every safety theorem is an initial check and a step lemma.
`rel_exec` compares two runs, and `Reachable.simulate` takes a run to one of a system it
refines.
-/

namespace Transition

variable {σ α : Type*} {step : σ → α → Option σ} {C : σ → α → Prop} {start s : σ}

/-- The state after the actions, in order; `none` as soon as one is not enabled. -/
def exec (step : σ → α → Option σ) : σ → List α → Option σ
  | s, [] => some s
  | s, a :: rest => (step s a).bind fun next => exec step next rest

theorem exec_append (s : σ) (first second : List α) :
    exec step s (first ++ second) = (exec step s first).bind fun next => exec step next second := by
  induction first generalizing s with
  | nil => rfl
  | cons a rest ih =>
      rw [List.cons_append, exec, exec, Option.bind_assoc]
      exact congrArg _ (funext ih)

/-- The states reached from `start` by runs whose every step satisfies `C`. -/
inductive RunWhere (step : σ → α → Option σ) (C : σ → α → Prop) (start : σ) : σ → Prop
  | start : RunWhere step C start start
  | snoc {s s' : σ} {a : α} (run : RunWhere step C start s) (cond : C s a)
      (taken : step s a = some s') : RunWhere step C start s'

/-- The states reached by some run, with no condition on its steps. -/
abbrev Reachable (step : σ → α → Option σ) (start : σ) : σ → Prop :=
  RunWhere step (fun _ _ => True) start

/-- Every step of the run through `actions` satisfies `C`. -/
def EveryStep (step : σ → α → Option σ) (C : σ → α → Prop) : σ → List α → Prop
  | _, [] => True
  | s, a :: rest => C s a ∧ ∀ next ∈ step s a, EveryStep step C next rest

instance decidableEveryStep [∀ s a, Decidable (C s a)] :
    (s : σ) → (actions : List α) → Decidable (EveryStep step C s actions)
  | _, [] => .isTrue trivial
  | s, a :: rest =>
      have : ∀ next, Decidable (EveryStep step C next rest) := fun next =>
        decidableEveryStep next rest
      inferInstanceAs (Decidable (C s a ∧ ∀ next ∈ step s a, EveryStep step C next rest))

/-- What holds initially and is preserved by every admitted step holds of every
state reached. -/
theorem RunWhere.invariant {I : σ → Prop} (hstart : I start)
    (hstep : ∀ s a s', I s → C s a → step s a = some s' → I s')
    (run : RunWhere step C start s) : I s := by
  induction run with
  | start => exact hstart
  | snoc _ cond taken ih => exact hstep _ _ _ ih cond taken

/-- A run is a run, whatever its steps satisfy. -/
theorem RunWhere.reachable (run : RunWhere step C start s) : Reachable step start s :=
  run.invariant .start fun _ _ _ h _ taken => .snoc h trivial taken

theorem RunWhere.trans {middle : σ} (first : RunWhere step C start middle)
    (second : RunWhere step C middle s) : RunWhere step C start s := by
  induction second with
  | start => exact first
  | snoc _ cond taken ih => exact .snoc ih cond taken

/-- A replayed scenario is a run. -/
theorem runWhere_of_exec {actions : List α} (hexec : exec step start actions = some s)
    (hevery : EveryStep step C start actions) : RunWhere step C start s := by
  induction actions generalizing start with
  | nil =>
      obtain rfl : start = s := by simpa [exec] using hexec
      exact .start
  | cons a rest ih =>
      obtain ⟨next, htaken, hrest⟩ := Option.bind_eq_some_iff.mp hexec
      have hfirst : RunWhere step C start next := .snoc .start hevery.1 htaken
      exact hfirst.trans (ih hrest (hevery.2 next htaken))

theorem everyStep_of_forall {actions : List α} (h : ∀ a ∈ actions, ∀ s, C s a) (s : σ) :
    EveryStep step C s actions := by
  induction actions generalizing s with
  | nil => trivial
  | cons a rest ih =>
      rw [List.forall_mem_cons] at h
      exact ⟨h.1 s, fun next _ => ih h.2 next⟩

theorem EveryStep.and {C' : σ → α → Prop} {actions : List α} (h : EveryStep step C s actions)
    (h' : EveryStep step C' s actions) : EveryStep step (fun s a => C s a ∧ C' s a) s actions := by
  induction actions generalizing s with
  | nil => trivial
  | cons a rest ih =>
      exact ⟨⟨h.1, h'.1⟩, fun next htaken => ih (h.2 next htaken) (h'.2 next htaken)⟩

theorem EveryStep.take {actions : List α} (h : EveryStep step C s actions) (n : ℕ) :
    EveryStep step C s (actions.take n) := by
  induction actions generalizing s n with
  | nil => simpa using h
  | cons a rest ih =>
      cases n with
      | zero => trivial
      | succ n => exact ⟨h.1, fun next htaken => ih (h.2 next htaken) n⟩

theorem reachable_of_exec {actions : List α} (hexec : exec step start actions = some s) :
    Reachable step start s :=
  runWhere_of_exec hexec (everyStep_of_forall (fun _ _ _ => trivial) start)

/-- Where each step is, for the view, a step of another system or no step at all, the view of
a run is a run. -/
theorem Reachable.simulate {τ β : Type*} {step' : τ → β → Option τ} (view : σ → τ)
    (hview : ∀ s a s', step s a = some s' →
      (∃ b, step' (view s) b = some (view s')) ∨ view s' = view s)
    (run : Reachable step start s) : Reachable step' (view start) (view s) := by
  induction run with
  | start => exact .start
  | snoc _ _ taken ih =>
      rcases hview _ _ _ taken with ⟨b, hb⟩ | hsame
      · exact .snoc ih trivial hb
      · exact hsame ▸ ih

/-! ## Two runs side by side -/

/-- Where related actions lead from related states to related states, or are both not
enabled, so do related lists of actions. -/
theorem rel_exec {τ β : Type*} {step' : τ → β → Option τ} {R : σ → τ → Prop} {A : α → β → Prop}
    (hstep : ∀ s t a b, R s t → A a b → Option.Rel R (step s a) (step' t b)) {t : τ} (h : R s t)
    {actions : List α} {actions' : List β} (halike : List.Forall₂ A actions actions') :
    Option.Rel R (exec step s actions) (exec step' t actions') := by
  induction halike generalizing s t with
  | nil => exact .some h
  | @cons a b rest rest' hab _ ih =>
      have hnext := hstep s t a b h hab
      rw [exec, exec]
      cases hs : step s a with
      | none =>
          rw [hs] at hnext
          cases ht : step' t b with
          | none => exact .none
          | some t' => rw [ht] at hnext; cases hnext
      | some s' =>
          rw [hs] at hnext
          cases ht : step' t b with
          | none => rw [ht] at hnext; cases hnext
          | some t' =>
              rw [ht] at hnext
              cases hnext with
              | some hrel => exact ih hrel

end Transition
