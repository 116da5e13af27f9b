import WazuhOcsf.Pipeline.Overlay
import WazuhOcsf.Pipeline.Statements

/-!
# Statements place by place

What a native statement leaves in one place of the draft depends on what was in that
place alone.  `Together` compares two statements there: run on drafts that agree in the
place they leave drafts that do.  A statement that is `Together` with `id` leaves the
place alone.
-/

namespace WazuhOcsf

open Json RustString Draft

/-! ## Places of a draft -/

/-- A part of the draft that is written on its own. -/
inductive Place
  | str (c : StrCol)
  | num (c : NumCol)
  | extension (key : String)
  | title
  | severity
  | finding
  deriving DecidableEq

/-- Two drafts hold the same in a place. -/
def SameAt (a b : Draft) : Place → Prop
  | .str c => a.cols.str c = b.cols.str c
  | .num c => a.cols.num c = b.cols.num c
  | .extension key => a.extensions[key]? = b.extensions[key]?
  | .title => a.findingTitleOverride = b.findingTitleOverride
  | .severity => a.sevId = b.sevId ∧ a.sevLabel = b.sevLabel
  | .finding => a.cveId = b.cveId ∧ a.vulnSev = b.vulnSev ∧ a.cvssScore = b.cvssScore

theorem SameAt.refl (d : Draft) (place : Place) : SameAt d d place := by
  cases place <;> simp [SameAt]

theorem SameAt.trans {a b c : Draft} {place : Place} (hab : SameAt a b place)
    (hbc : SameAt b c place) : SameAt a c place := by
  cases place with
  | finding => exact ⟨hab.1.trans hbc.1, hab.2.1.trans hbc.2.1, hab.2.2.trans hbc.2.2⟩
  | severity => exact ⟨hab.1.trans hbc.1, hab.2.trans hbc.2⟩
  | _ => exact Eq.trans hab hbc

theorem SameAt.symm {a b : Draft} {place : Place} (h : SameAt a b place) : SameAt b a place := by
  cases place with
  | finding => exact ⟨h.1.symm, h.2.1.symm, h.2.2.symm⟩
  | severity => exact ⟨h.1.symm, h.2.symm⟩
  | _ => exact Eq.symm h

/-- Run on drafts that hold the same in the place, the two statements leave the same
there. -/
def Together (place : Place) (f g : Draft → Draft) : Prop :=
  ∀ a b, SameAt a b place → SameAt (f a) (g b) place

variable {place : Place} {f g : Draft → Draft}

@[simp] theorem together_id : Together place id id := fun _ _ h => h

/-- Statements that leave the place alone leave the same there. -/
theorem Together.of_spares (hf : Together place f id) (hg : Together place g id) :
    Together place f g :=
  fun a b hab => (hg b _ (hf a b hab).symm).symm

theorem Together.sameAt (h : Together place f g) (d : Draft) : SameAt (f d) (g d) place :=
  h d d (.refl d place)

theorem sameAt_of_spares (h : Together place f id) (d : Draft) : SameAt (f d) d place :=
  h.sameAt d

theorem together_seq {fs gs : List (Draft → Draft)} (h : List.Forall₂ (Together place) fs gs) :
    Together place (seq fs) (seq gs) := by
  intro a b hab
  induction h generalizing a b with
  | nil => exact hab
  | cons hfirst _ ih => exact ih _ _ (hfirst a b hab)

theorem together_seq_self {fs : List (Draft → Draft)} (h : ∀ f ∈ fs, Together place f f) :
    Together place (seq fs) (seq fs) :=
  together_seq (List.forall₂_same.mpr h)

/-- A block of statements that leave the place alone does. -/
theorem spares_seq {fs : List (Draft → Draft)} (h : ∀ f ∈ fs, Together place f id) :
    Together place (seq fs) id := by
  intro a b hab
  induction fs generalizing a with
  | nil => exact hab
  | cons first rest ih =>
      rw [List.forall_mem_cons] at h
      exact ih h.2 _ (h.1 a b hab)

/-! ### Every statement works place by place -/

@[simp] theorem together_fill (c : StrCol) (v : String) : Together place (fill c v) (fill c v) := by
  intro a b h
  cases place with
  | str other =>
      simp only [SameAt, fill, Columns.fillStr_str] at h ⊢
      by_cases hcol : other = c
      · subst hcol
        rw [h]
      · rw [if_neg fun hc => hcol hc.1, if_neg fun hc => hcol hc.1, h]
  | _ => exact h

@[simp] theorem together_fillNum (c : NumCol) (v : BitVec c.width) :
    Together place (fillNum c v) (fillNum c v) := by
  intro a b h
  cases place with
  | num other =>
      simp only [SameAt, fillNum] at h ⊢
      by_cases hcol : other = c
      · subst hcol
        rw [Columns.fillNum_num_self, Columns.fillNum_num_self, h]
      · rw [Columns.fillNum_num_of_ne _ _ hcol, Columns.fillNum_num_of_ne _ _ hcol, h]
  | _ => exact h

@[simp] theorem together_put (key v : String) : Together place (put key v) (put key v) := by
  intro a b h
  cases place with
  | extension other =>
      simp only [SameAt, put] at h ⊢
      split
      · exact h
      · rw [Std.ExtTreeMap.getElem?_insert, Std.ExtTreeMap.getElem?_insert, h]
  | _ => exact h

@[simp] theorem together_fillTitle (v : String) :
    Together place (fillTitle v) (fillTitle v) := by
  intro a b h
  cases place with
  | title =>
      simp only [SameAt, fillTitle] at h ⊢
      rw [h]
  | _ => exact h

@[simp] theorem together_setFinding (cve severity : String) (score : Float32) :
    Together place (setFinding cve severity score) (setFinding cve severity score) := by
  intro a b h
  cases place with
  | finding => exact ⟨rfl, rfl, rfl⟩
  | _ => exact h

@[simp] theorem together_setSeverity (severity : Option (BitVec 8 × String)) :
    Together place (setSeverity severity) (setSeverity severity) := by
  intro a b h
  cases severity with
  | none => cases place <;> exact h
  | some s =>
      cases place with
      | severity => exact ⟨rfl, rfl⟩
      | _ => exact h

@[simp] theorem together_raiseSeverity (severity : BitVec 8 × String) :
    Together place (raiseSeverity severity) (raiseSeverity severity) := by
  intro a b h
  cases place with
  | severity =>
      unfold raiseSeverity
      rw [h.1]
      exact together_setSeverity _ a b h
  | _ => exact h

@[simp] theorem together_renameProtocol (rename : String → String) :
    Together place (renameProtocol rename) (renameProtocol rename) := by
  intro a b h
  cases place with
  | str c =>
      simp only [SameAt, renameProtocol] at h ⊢
      by_cases hcol : c = .networkProtocol
      · subst hcol
        rw [Function.update_self, Function.update_self, h]
      · rw [Function.update_of_ne hcol, Function.update_of_ne hcol, h]
  | _ => exact h

@[simp] theorem together_putChangedAttributes (syscheck : Map) :
    Together place (putChangedAttributes syscheck) (putChangedAttributes syscheck) := by
  intro a b h
  cases place with
  | extension key =>
      simp only [SameAt, putChangedAttributes] at h ⊢
      split
      · rw [Std.ExtTreeMap.getElem?_insert, Std.ExtTreeMap.getElem?_insert, h]
      · exact h
  | _ => exact h

@[simp] theorem together_putAll (m : Map) (table : List (String × String)) :
    Together place (putAll m table) (putAll m table) :=
  together_seq_self (List.forall_mem_map.mpr fun _ _ => together_put _ _)

@[simp] theorem together_putPaths (data : Value) (table : List (String × String)) :
    Together place (putPaths data table) (putPaths data table) :=
  together_seq_self (List.forall_mem_map.mpr fun _ _ => together_put _ _)

/-! ### Statements that leave a place alone -/

theorem spares_fill {c : StrCol} (h : place ≠ .str c) (v : String) :
    Together place (fill c v) id := by
  intro a b hab
  cases place with
  | str other =>
      simp only [SameAt, fill, Columns.fillStr_str, id] at hab ⊢
      rw [if_neg fun hc => h (congrArg _ hc.1), hab]
  | _ => exact hab

theorem spares_put {key : String} (h : place ≠ .extension key) (v : String) :
    Together place (put key v) id := by
  intro a b hab
  cases place with
  | extension other =>
      simp only [SameAt, put, id] at hab ⊢
      split
      · exact hab
      · have hne : ¬ key = other := fun heq => h (congrArg _ heq.symm)
        rw [Std.ExtTreeMap.getElem?_insert, if_neg (by simpa using hne), hab]
  | _ => exact hab

theorem spares_putAll {table : List (String × String)}
    (h : ∀ entry ∈ table, place ≠ .extension entry.2) (m : Map) :
    Together place (putAll m table) id :=
  spares_seq (List.forall_mem_map.mpr fun entry hentry => spares_put (h entry hentry) _)

theorem spares_putPaths {table : List (String × String)}
    (h : ∀ entry ∈ table, place ≠ .extension entry.2) (data : Value) :
    Together place (putPaths data table) id :=
  spares_seq (List.forall_mem_map.mpr fun entry hentry => spares_put (h entry hentry) _)

theorem spares_fillNum {c : NumCol} (h : place ≠ .num c) (v : BitVec c.width) :
    Together place (fillNum c v) id := by
  intro a b hab
  cases place with
  | num other =>
      have hcol : other ≠ c := fun heq => h (congrArg _ heq)
      simp only [SameAt, fillNum, id] at hab ⊢
      rw [Columns.fillNum_num_of_ne _ _ hcol, hab]
  | _ => exact hab

theorem spares_fillTitle (h : place ≠ .title) (v : String) :
    Together place (fillTitle v) id := by
  intro a b hab
  cases place with
  | title => exact absurd rfl h
  | _ => exact hab

theorem spares_setFinding (h : place ≠ .finding) (cve severity : String) (score : Float32) :
    Together place (setFinding cve severity score) id := by
  intro a b hab
  cases place with
  | finding => exact absurd rfl h
  | _ => exact hab

theorem spares_setSeverity (h : place ≠ .severity) (severity : Option (BitVec 8 × String)) :
    Together place (setSeverity severity) id := by
  intro a b hab
  cases place with
  | severity => exact absurd rfl h
  | _ => exact hab

theorem spares_raiseSeverity (h : place ≠ .severity) (severity : BitVec 8 × String) :
    Together place (raiseSeverity severity) id := by
  intro a b hab
  cases place with
  | severity => exact absurd rfl h
  | _ => exact hab

theorem spares_renameProtocol (h : place ≠ .str .networkProtocol) (rename : String → String) :
    Together place (renameProtocol rename) id := by
  intro a b hab
  cases place with
  | str c =>
      have hcol : c ≠ .networkProtocol := fun heq => h (congrArg _ heq)
      simp only [SameAt, renameProtocol, id] at hab ⊢
      rw [Function.update_of_ne hcol, hab]
  | _ => exact hab

theorem spares_putChangedAttributes (h : place ≠ .extension "fim_changed_attrs") (syscheck : Map) :
    Together place (putChangedAttributes syscheck) id := by
  intro a b hab
  cases place with
  | extension key =>
      have hne : ¬ "fim_changed_attrs" = key := fun heq => h (congrArg _ heq.symm)
      simp only [SameAt, putChangedAttributes, id] at hab ⊢
      split
      · rw [Std.ExtTreeMap.getElem?_insert, if_neg (by simpa using hne), hab]
      · exact hab
  | _ => exact hab

end WazuhOcsf
