import Mathlib.Data.Nat.Find
import WazuhOcsf.Library.Runs

/-!
# Infinite runs

A run that never ends, as a sequence of states and of the actions between them.  What is
to happen in the end is stated over such runs: actions of one kind come again and again
(`Recurs`), and from any time on there is a next one, up to which the other actions leave
alone what they leave alone (`exists_next`).
-/

namespace Transition

variable {σ α : Type*} {step : σ → α → Option σ} {start : σ}

/-- The states of a run and the actions that lead from each to the next. -/
structure InfiniteRun (step : σ → α → Option σ) (start : σ) where
  action : ℕ → α
  state : ℕ → σ
  state_zero : state 0 = start
  taken : ∀ n, step (state n) (action n) = some (state (n + 1))

namespace InfiniteRun

variable (r : InfiniteRun step start)

/-- At any time an action of this kind is still to come. -/
def Recurs (P : α → Prop) : Prop := ∀ n, ∃ m, n ≤ m ∧ P (r.action m)

/-- A reflexive and transitive relation that every step obeys holds of any two times. -/
theorem rel_of_le {R : σ → σ → Prop} (hrefl : ∀ s, R s s)
    (htrans : ∀ s s' s'', R s s' → R s' s'' → R s s'')
    (hstep : ∀ n, R (r.state n) (r.state (n + 1))) {n m : ℕ} (hle : n ≤ m) :
    R (r.state n) (r.state m) := by
  induction m, hle using Nat.le_induction with
  | base => exact hrefl _
  | succ m _ ih => exact htrans _ _ _ ih (hstep m)

/-- The next action of a kind, and what the actions before it left alone. -/
theorem exists_next {P : α → Prop} (h : r.Recurs P) {β : Type*} (view : σ → β)
    (hview : ∀ n, ¬ P (r.action n) → view (r.state (n + 1)) = view (r.state n)) (n : ℕ) :
    ∃ m, n ≤ m ∧ P (r.action m) ∧ (∀ i, n ≤ i → i < m → ¬ P (r.action i)) ∧
      ∀ i, n ≤ i → i ≤ m → view (r.state i) = view (r.state n) := by
  classical
  obtain ⟨hle, hkind⟩ := Nat.find_spec (h n)
  have hbefore (i : ℕ) (hi : n ≤ i) (hlt : i < Nat.find (h n)) : ¬ P (r.action i) :=
    fun hP => Nat.find_min (h n) hlt ⟨hi, hP⟩
  refine ⟨Nat.find (h n), hle, hkind, hbefore, fun i hi => ?_⟩
  induction i, hi using Nat.le_induction with
  | base => exact fun _ => rfl
  | succ i hi ih =>
      intro hlast
      rw [hview i (hbefore i hi hlast), ih (Nat.le_of_succ_le hlast)]

/-- From equal states the same actions lead to equal states. -/
theorem state_add {n m : ℕ} (hstate : r.state n = r.state m)
    (haction : ∀ k, r.action (n + k) = r.action (m + k)) (k : ℕ) :
    r.state (n + k) = r.state (m + k) := by
  induction k with
  | zero => exact hstate
  | succ k ih =>
      have hfirst := r.taken (n + k)
      rw [ih, haction k, r.taken (m + k)] at hfirst
      exact (Option.some.inj hfirst).symm

/-- The run through given actions, where an invariant keeps each of them enabled. -/
def ofActions (action : ℕ → α) (I : σ → Prop) (hstart : I start)
    (henabled : ∀ s n, I s → ∃ s', step s (action n) = some s' ∧ I s') :
    InfiniteRun step start where
  action := action
  state n := n.rec start fun n s => (step s (action n)).getD s
  state_zero := rfl
  taken n := by
    have hI (m : ℕ) : I (Nat.rec start (fun n s => (step s (action n)).getD s) m) := by
      induction m with
      | zero => exact hstart
      | succ m ih =>
          obtain ⟨s', htaken, hs'⟩ := henabled _ m ih
          dsimp only
          rwa [htaken]
    obtain ⟨s', htaken, -⟩ := henabled _ n (hI n)
    dsimp only
    rw [htaken]
    rfl

end InfiniteRun

end Transition
