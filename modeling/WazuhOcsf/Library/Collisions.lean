import Mathlib.Data.List.Perm.Basic

/-!
# Folds that collide

Several elements of a list may offer a value for one place.  The place keeps the
first offer (`get_foldl_first`) or the last (`get_foldl_last`).  Whether the
result depends on the order of the list is a question about the offers alone:
it does not exactly when they agree (`agree_iff_perm`).
-/

namespace Collisions

variable {α β σ : Type*} {offer : α → Option β} {l l₁ l₂ : List α}

/-- All offers the elements of `l` make are equal. -/
def Agree (offer : α → Option β) (l : List α) : Prop :=
  ∀ a ∈ l, ∀ b ∈ l, ∀ x ∈ offer a, ∀ y ∈ offer b, x = y

theorem findSome?_eq_of_mem (hagree : Agree offer l) {a : α} {x : β} (ha : a ∈ l)
    (hx : x ∈ offer a) : l.findSome? offer = some x := by
  have hsome : (l.findSome? offer).isSome :=
    List.findSome?_isSome_iff.mpr ⟨a, ha, Option.isSome_iff_exists.mpr ⟨x, hx⟩⟩
  obtain ⟨y, hy⟩ := Option.isSome_iff_exists.mp hsome
  obtain ⟨b, hb, hyb⟩ := List.exists_of_findSome?_eq_some hy
  rw [hy, hagree b hb a ha y hyb x hx]

/-- Where one element alone makes an offer, its offer is found. -/
theorem findSome?_of_sole {a : α} (ha : a ∈ l) (hsole : ∀ b ∈ l, (offer b).isSome → b = a) :
    l.findSome? offer = offer a := by
  cases hoffer : offer a with
  | none =>
      refine List.findSome?_eq_none_iff.mpr fun b hb => Option.not_isSome_iff_eq_none.mp fun h => ?_
      rw [hsole b hb h, hoffer] at h
      exact absurd h (by simp)
  | some x =>
      refine findSome?_eq_of_mem (fun b hb c hc y hy z hz => ?_) ha hoffer
      have hb' := hsole b hb (Option.isSome_iff_exists.mpr ⟨y, hy⟩)
      have hc' := hsole c hc (Option.isSome_iff_exists.mpr ⟨z, hz⟩)
      rw [hb'] at hy
      rw [hc'] at hz
      exact Option.some.inj (hy.symm.trans hz)

/-- Elements that make no offer can be left out. -/
theorem findSome?_filter_eq {p : α → Bool} (h : ∀ a ∈ l, p a = false → offer a = none) :
    (l.filter p).findSome? offer = l.findSome? offer := by
  induction l with
  | nil => rfl
  | cons a rest ih =>
      rw [List.forall_mem_cons] at h
      cases hp : p a with
      | true => rw [List.filter_cons_of_pos hp, List.findSome?_cons, List.findSome?_cons, ih h.2]
      | false =>
          have hnot : ¬ p a = true := by simp [hp]
          rw [List.filter_cons_of_neg hnot, List.findSome?_cons, h.1 hp, ih h.2]

/-- A reordering finds something whenever the list does. -/
theorem findSome?_eq_none_of_perm (hperm : l₁.Perm l₂) (h : l₁.findSome? offer = none) :
    l₂.findSome? offer = none := by
  rw [List.findSome?_eq_none_iff] at h ⊢
  exact fun a ha => h a (hperm.mem_iff.mpr ha)

/-- Agreeing offers make the order irrelevant. -/
theorem findSome?_perm (hagree : Agree offer l₁) (hperm : l₁.Perm l₂) :
    l₁.findSome? offer = l₂.findSome? offer := by
  cases h : l₁.findSome? offer with
  | none => exact (findSome?_eq_none_of_perm hperm h).symm
  | some x =>
      obtain ⟨a, ha, hx⟩ := List.exists_of_findSome?_eq_some h
      have hagree₂ : Agree offer l₂ := fun b hb c hc =>
        hagree b (hperm.mem_iff.mpr hb) c (hperm.mem_iff.mpr hc)
      exact (findSome?_eq_of_mem hagree₂ (hperm.mem_iff.mp ha) hx).symm

/-- An element can be visited first. -/
theorem exists_perm_findSome?_eq {a : α} {x : β} (ha : a ∈ l) (hx : x ∈ offer a) :
    ∃ l' : List α, l'.Perm l ∧ l'.findSome? offer = some x := by
  obtain ⟨before, after, rfl⟩ := List.append_of_mem ha
  refine ⟨a :: (before ++ after), List.perm_middle.symm, ?_⟩
  rw [List.findSome?_cons, Option.mem_def.mp hx]

/-- What is found depends on the order exactly when two offers disagree, and an
observer that tells offers apart notices it. -/
theorem agree_iff_perm {γ : Type*} (observe : Option β → γ)
    (hinj : ∀ x y, observe (some x) = observe (some y) → x = y) :
    Agree offer l ↔
      ∀ l₁ l₂ : List α, l₁.Perm l → l₂.Perm l →
        observe (l₁.findSome? offer) = observe (l₂.findSome? offer) := by
  constructor
  · intro hagree l₁ l₂ h₁ h₂
    rw [← findSome?_perm hagree h₁.symm, ← findSome?_perm hagree h₂.symm]
  · intro horder a ha b hb x hx y hy
    obtain ⟨l₁, h₁, hfound₁⟩ := exists_perm_findSome?_eq ha hx
    obtain ⟨l₂, h₂, hfound₂⟩ := exists_perm_findSome?_eq hb hy
    have hsame := horder l₁ l₂ h₁ h₂
    rw [hfound₁, hfound₂] at hsame
    exact hinj x y hsame

/-- A value that gives way to every offer is left in every order exactly when no offer
differs from it. -/
theorem kept_iff_perm {x : β} :
    (∀ l' : List α, l'.Perm l → (l'.findSome? offer).or (some x) = some x) ↔
      ∀ a ∈ l, ∀ y ∈ offer a, y = x := by
  constructor
  · intro hkept a ha y hy
    obtain ⟨l', hperm, hfound⟩ := exists_perm_findSome?_eq ha hy
    have hleft := hkept l' hperm
    rw [hfound, Option.some_or] at hleft
    exact Option.some.inj hleft
  · intro hoffers l' hperm
    cases hfound : l'.findSome? offer with
    | none => rfl
    | some y =>
        obtain ⟨a, ha, hy⟩ := List.exists_of_findSome?_eq_some hfound
        rw [hoffers a (hperm.mem_iff.mp ha) y hy, Option.some_or]

/-! ## Folds over a state with one observed place -/

variable {step : σ → α → σ}

/-- Without an offer an empty place stays as it is. -/
@[simp] theorem ite_eq_empty_self [DecidableEq β] (x empty : β) :
    (if x = empty then empty else x) = x := by
  split
  · next h => exact h.symm
  · rfl

/-- A place that is filled while it is empty keeps the first offer. -/
theorem get_foldl_first [DecidableEq β] (get : σ → β) {empty : β}
    (hoffer : ∀ a, empty ∉ offer a)
    (hstep : ∀ s a, get (step s a) = if get s = empty then (offer a).getD empty else get s)
    (s : σ) : get (l.foldl step s) =
      if get s = empty then (l.findSome? offer).getD empty else get s := by
  induction l generalizing s with
  | nil => simp
  | cons a rest ih =>
      rw [List.foldl_cons, ih, hstep, List.findSome?_cons]
      by_cases hempty : get s = empty
      · cases hfirst : offer a with
        | none => simp [hempty]
        | some x =>
            have hne : x ≠ empty := fun h => hoffer a (h ▸ hfirst)
            simp [hempty, hne]
      · simp [hempty]

/-- A place that every offer overwrites keeps the last one. -/
theorem get_foldl_last (get : σ → Option β)
    (hstep : ∀ s a, get (step s a) = (offer a).or (get s)) (s : σ) :
    get (l.foldl step s) = (l.reverse.findSome? offer).or (get s) := by
  induction l generalizing s with
  | nil => simp
  | cons a rest ih =>
      rw [List.foldl_cons, ih, hstep, List.reverse_cons, List.findSome?_append]
      cases h : offer a <;> simp [h]

end Collisions
