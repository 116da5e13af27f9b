import WazuhOcsf.Library.Runs
import Mathlib.Algebra.Order.Group.Nat

/-!
# Potentials

The potential method on a labelled transition system.  `total f` adds up what the
steps of a run are worth.  A `Potential` pays for the cost of a step out of what the
step gains and what is stored in the state, so a run costs no more than it gains and
what was stored when it began: `Potential.total_le`, by one induction on the run.
With a gain of zero this bounds the number of costly steps of every run, which is how
termination is proved for a system whose other steps may go on forever.
-/

namespace Transition

variable {σ α : Type*} {step : σ → α → Option σ} {C : σ → α → Prop} {s s' : σ}

/-- What the steps of the run through `actions` add up to. -/
def total (step : σ → α → Option σ) (f : σ → α → ℕ) : σ → List α → ℕ
  | _, [] => 0
  | s, a :: rest => f s a + ((step s a).map fun next => total step f next rest).getD 0

theorem total_cons {f : σ → α → ℕ} {a : α} {next : σ} (htaken : step s a = some next)
    (rest : List α) : total step f s (a :: rest) = f s a + total step f next rest := by
  rw [total, htaken, Option.map_some, Option.getD_some]

/-- Between states with `I`, a step that satisfies `C` pays its cost. -/
structure Potential (step : σ → α → Option σ) (I : σ → Prop) (C : σ → α → Prop)
    (cost gain : σ → α → ℕ) (Φ : σ → ℕ) : Prop where
  keeps : ∀ s a s', I s → C s a → step s a = some s' → I s'
  pays : ∀ s a s', I s → C s a → step s a = some s' → Φ s' + cost s a ≤ Φ s + gain s a

namespace Potential

variable {I : σ → Prop} {cost gain : σ → α → ℕ} {Φ : σ → ℕ} {actions : List α}

/-- The cost of a run is paid by its gain and by what was stored before. -/
theorem total_le (h : Potential step I C cost gain Φ) (hI : I s)
    (hevery : EveryStep step C s actions) (hexec : exec step s actions = some s') :
    Φ s' + total step cost s actions ≤ Φ s + total step gain s actions := by
  induction actions generalizing s with
  | nil =>
      obtain rfl : s = s' := by simpa [exec] using hexec
      exact le_rfl
  | cons a rest ih =>
      obtain ⟨next, htaken, hrest⟩ := Option.bind_eq_some_iff.mp hexec
      have hfirst := h.pays s a next hI hevery.1 htaken
      have hlater := ih (h.keeps s a next hI hevery.1 htaken) (hevery.2 next htaken) hrest
      rw [total_cons htaken, total_cons htaken]
      omega

end Potential

/-- Steps that cost something use up what is stored, until the run is done. -/
structure Leads (step : σ → α → Option σ) (I : σ → Prop) (C : σ → α → Prop)
    (cost : σ → α → ℕ) (Φ : σ → ℕ) (Done : σ → Prop) : Prop where
  keeps : ∀ s a s', I s → C s a → step s a = some s' → I s'
  stays : ∀ s a s', I s → C s a → step s a = some s' → Done s → Done s'
  pays : ∀ s a s', I s → C s a → step s a = some s' → ¬ Done s' → Φ s' + cost s a ≤ Φ s

/-- A run that costs more than was stored is done. -/
theorem Leads.done {I Done : σ → Prop} {cost : σ → α → ℕ} {Φ : σ → ℕ} {actions : List α}
    (h : Leads step I C cost Φ Done) (hI : I s) (hevery : EveryStep step C s actions)
    (hexec : exec step s actions = some s') (hcost : Φ s < total step cost s actions) :
    Done s' := by
  -- a run that is done once stays done to its end
  have hstays : ∀ {s : σ} {actions : List α}, I s → EveryStep step C s actions →
      exec step s actions = some s' → Done s → Done s' := by
    intro s actions hI hevery hexec hdone
    induction actions generalizing s with
    | nil =>
        obtain rfl : s = s' := by simpa [exec] using hexec
        exact hdone
    | cons a rest ih =>
        obtain ⟨next, htaken, hrest⟩ := Option.bind_eq_some_iff.mp hexec
        exact ih (h.keeps s a next hI hevery.1 htaken) (hevery.2 next htaken) hrest
          (h.stays s a next hI hevery.1 htaken hdone)
  induction actions generalizing s with
  | nil => exact absurd hcost (Nat.not_lt_zero _)
  | cons a rest ih =>
      obtain ⟨next, htaken, hrest⟩ := Option.bind_eq_some_iff.mp hexec
      have hnext := h.keeps s a next hI hevery.1 htaken
      by_cases hdone : Done next
      · exact hstays hnext (hevery.2 next htaken) hrest hdone
      · -- the first step is paid, so the rest still costs more than is stored
        have hpaid := h.pays s a next hI hevery.1 htaken hdone
        rw [total_cons htaken] at hcost
        exact ih hnext (hevery.2 next htaken) hrest (by omega)

/-- The steps of a run that happens satisfy what an invariant grants them. -/
theorem everyStep_of_exec {I : σ → Prop} {actions : List α} (hI : I s)
    (hkeeps : ∀ s a s', I s → step s a = some s' → I s' ∧ C s a)
    (hexec : exec step s actions = some s') : EveryStep step C s actions := by
  induction actions generalizing s with
  | nil => trivial
  | cons a rest ih =>
      obtain ⟨next, htaken, hrest⟩ := Option.bind_eq_some_iff.mp hexec
      obtain ⟨hnext, hcond⟩ := hkeeps s a next hI htaken
      refine ⟨hcond, fun next' htaken' => ?_⟩
      obtain rfl : next = next' := Option.some.inj (htaken.symm.trans htaken')
      exact ih hnext hrest

theorem total_eq_zero {f : σ → α → ℕ} {actions : List α}
    (hevery : EveryStep step (fun s a => f s a = 0) s actions) : total step f s actions = 0 := by
  induction actions generalizing s with
  | nil => rfl
  | cons a rest ih =>
      cases htaken : step s a with
      | none => rw [total, htaken, hevery.1]; rfl
      | some next => rw [total_cons htaken, hevery.1, ih (hevery.2 next htaken)]

end Transition
