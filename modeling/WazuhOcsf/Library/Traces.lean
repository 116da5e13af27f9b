import Mathlib.Data.List.Basic
import Mathlib.Data.List.Infix

/-!
# Traces of events

A trace is the list of the events of a run, oldest first.  `Guarded p trace` says
of every event that `p` held of it and the events before it when it happened;
such a property is established event by event (`guarded_concat`), and an event
that was fine stays fine however the trace goes on.
-/

namespace Trace

variable {ε α β : Type*} {p : List ε → ε → Prop}

/-- Every event of the trace satisfies `p` together with the events before it. -/
def Guarded (p : List ε → ε → Prop) (trace : List ε) : Prop :=
  ∀ before e after, trace = before ++ e :: after → p before e

theorem guarded_nil : Guarded p [] := by
  intro before e after h
  simp at h

theorem guarded_concat {trace : List ε} {e : ε} :
    Guarded p (trace ++ [e]) ↔ Guarded p trace ∧ p trace e := by
  constructor
  · intro h
    refine ⟨fun before f after hsplit => h before f (after ++ [e]) (by simp [hsplit]), ?_⟩
    exact h trace e [] rfl
  · rintro ⟨htrace, he⟩ before f after hsplit
    rcases List.eq_nil_or_concat after with rfl | ⟨middle, last, rfl⟩
    · obtain ⟨rfl, hlast⟩ := List.append_inj' hsplit rfl
      exact List.singleton_inj.mp hlast ▸ he
    · have hsplit' : trace ++ [e] = (before ++ f :: middle) ++ [last] := by simpa using hsplit
      exact htrace before f middle (List.append_inj' hsplit' rfl).1

/-- Events that satisfy `p` whatever came before do not disturb the trace. -/
theorem Guarded.append {trace new : List ε} (h : Guarded p trace)
    (hnew : ∀ e ∈ new, ∀ before, p before e) : Guarded p (trace ++ new) := by
  induction new generalizing trace with
  | nil => simpa using h
  | cons e rest ih =>
      rw [List.forall_mem_cons] at hnew
      rw [List.append_cons]
      exact ih (guarded_concat.mpr ⟨h, hnew.1 trace⟩) hnew.2

/-- A trace may grow by events that a projection does not see, when `p` is about the
events it sees. -/
theorem Guarded.extend {f : ε → Option β} {trace trace' : List ε} (h : Guarded p trace)
    (hpre : trace <+: trace') (hunseen : trace'.filterMap f = trace.filterMap f)
    (hp : ∀ e, f e = none → ∀ before, p before e) : Guarded p trace' := by
  obtain ⟨new, rfl⟩ := hpre
  refine h.append fun e he => hp e ?_
  rw [List.filterMap_append] at hunseen
  have hnew : new.filterMap f = [] := List.append_right_eq_self.mp hunseen
  exact List.filterMap_eq_nil_iff.mp hnew e he

/-- What was fine in a trace was fine when the trace was shorter. -/
theorem Guarded.of_prefix {trace trace' : List ε} (h : Guarded p trace') (hpre : trace <+: trace') :
    Guarded p trace := by
  obtain ⟨rest, rfl⟩ := hpre
  exact fun before e after hsplit => h before e (after ++ rest) (by simp [hsplit])

theorem Guarded.mono {q : List ε → ε → Prop} {trace : List ε} (h : Guarded p trace)
    (hpq : ∀ before e, p before e → q before e) : Guarded q trace :=
  fun before e after hsplit => hpq before e (h before e after hsplit)

end Trace
