import Mathlib.Algebra.Order.Ring.Nat
import Mathlib.Data.List.Perm.Basic
import Mathlib.Data.List.Nodup

/-!
# Maps without an order

A hash map is its entries, each key once.  The list they are stored in carries no
meaning: an iteration visits them in an order chosen from outside, an
`IterOrder`.  `upsert` is the entry API (`entry(k).or_default()` followed by an
update in place).
-/

/-- The order in which one pass over a hashed collection visits its elements. -/
structure IterOrder (α : Type*) where
  arrange : List α → List α
  perm (elements : List α) : (arrange elements).Perm elements

namespace IterOrder

variable {α : Type*}

instance : Inhabited (IterOrder α) := ⟨⟨id, fun _ => .rfl⟩⟩

@[simp] theorem mem_arrange (order : IterOrder α) {elements : List α} {a : α} :
    a ∈ order.arrange elements ↔ a ∈ elements :=
  (order.perm elements).mem_iff

@[simp] theorem arrange_nil (order : IterOrder α) : order.arrange [] = [] :=
  List.perm_nil.mp (order.perm [])

/-- The order that visits `elements` as `arranged` and leaves every other
collection alone. -/
def ofPerm [DecidableEq α] {elements arranged : List α} (h : arranged.Perm elements) :
    IterOrder α where
  arrange l := if l = elements then arranged else l
  perm l := by
    split
    · next heq => exact heq ▸ h
    · exact .rfl

@[simp] theorem ofPerm_arrange [DecidableEq α] {elements arranged : List α}
    (h : arranged.Perm elements) : (ofPerm h).arrange elements = arranged :=
  if_pos rfl

/-- What holds of a collection visited in any two orders holds of any two
rearrangements of it. -/
theorem forall_arrange [DecidableEq α] {elements : List α} {p : List α → List α → Prop} :
    (∀ first second : IterOrder α, p (first.arrange elements) (second.arrange elements)) ↔
      ∀ l₁ l₂ : List α, l₁.Perm elements → l₂.Perm elements → p l₁ l₂ := by
  constructor
  · intro h l₁ l₂ h₁ h₂
    rw [← ofPerm_arrange h₁, ← ofPerm_arrange h₂]
    exact h _ _
  · exact fun h first second => h _ _ (first.perm elements) (second.perm elements)

end IterOrder

/-- A map with each key stored once. -/
structure HashMap (κ ν : Type*) where
  entries : List (κ × ν)
  nodup : (entries.map Prod.fst).Nodup

namespace HashMap

variable {κ ν : Type*}

/-- The map without entries. -/
def empty : HashMap κ ν := ⟨[], List.nodup_nil⟩

instance : Inhabited (HashMap κ ν) := ⟨empty⟩

@[simp] theorem empty_entries : (empty : HashMap κ ν).entries = [] := rfl

/-- The keys, in the order of insertion. -/
def keys (m : HashMap κ ν) : List κ := m.entries.map Prod.fst

/-- Keep the entries that satisfy `p`. -/
def retain (p : κ × ν → Bool) (m : HashMap κ ν) : HashMap κ ν :=
  ⟨m.entries.filter p, m.nodup.sublist (List.filter_sublist.map _)⟩

/-- Replace every value, keys unchanged. -/
def mapValues (f : ν → ν) (m : HashMap κ ν) : HashMap κ ν :=
  ⟨m.entries.map fun entry => (entry.1, f entry.2), by simpa [Function.comp_def] using m.nodup⟩

variable [DecidableEq κ]

/-- The value stored under `key`. -/
def get (m : HashMap κ ν) (key : κ) : Option ν := m.entries.lookup key

/-- Update the value under `key`, seeing the one stored there, if any. -/
def upsertEntries (key : κ) (f : Option ν → ν) : List (κ × ν) → List (κ × ν)
  | [] => [(key, f none)]
  | entry :: rest =>
      if entry.1 = key then (key, f (some entry.2)) :: rest else entry :: upsertEntries key f rest

theorem map_fst_upsertEntries (key : κ) (f : Option ν → ν) (entries : List (κ × ν)) :
    (upsertEntries key f entries).map Prod.fst =
      if key ∈ entries.map Prod.fst then entries.map Prod.fst
      else entries.map Prod.fst ++ [key] := by
  induction entries with
  | nil => simp [upsertEntries]
  | cons entry rest ih =>
      by_cases hkey : entry.1 = key
      · simp [upsertEntries, hkey]
      · have hne : ¬ key = entry.1 := fun h => hkey h.symm
        by_cases hmem : key ∈ rest.map Prod.fst <;>
          simp_all [upsertEntries]

/-- The value of a key is updated where it stands, or a new entry is put at the end. -/
def upsert (key : κ) (f : Option ν → ν) (m : HashMap κ ν) : HashMap κ ν where
  entries := upsertEntries key f m.entries
  nodup := by
    rw [map_fst_upsertEntries]
    split
    · exact m.nodup
    · next hnot =>
        refine List.nodup_append.mpr ⟨m.nodup, List.nodup_singleton _, ?_⟩
        intro a ha b hb heq
        rw [List.mem_singleton] at hb
        exact hnot (hb ▸ heq ▸ ha)

private theorem lookup_cons_ite (key : κ) (entry : κ × ν) (rest : List (κ × ν)) :
    (entry :: rest).lookup key = if key = entry.1 then some entry.2 else rest.lookup key := by
  obtain ⟨k, v⟩ := entry
  rw [List.lookup_cons]
  by_cases h : key = k
  · simp [h]
  · rw [beq_eq_false_iff_ne.mpr h, if_neg h]

private theorem lookup_upsertEntries (key other : κ) (f : Option ν → ν)
    (entries : List (κ × ν)) :
    (upsertEntries key f entries).lookup other =
      if other = key then some (f (entries.lookup key)) else entries.lookup other := by
  induction entries with
  | nil => simp [upsertEntries, lookup_cons_ite]
  | cons entry rest ih =>
      by_cases hkey : entry.1 = key
      · rw [upsertEntries, if_pos hkey, lookup_cons_ite, lookup_cons_ite, lookup_cons_ite,
          if_pos hkey.symm, hkey]
        split <;> rfl
      · have hne : ¬ key = entry.1 := fun h => hkey h.symm
        simp only [upsertEntries, if_neg hkey, lookup_cons_ite, if_neg hne, ih]
        by_cases hother : other = entry.1
        · have : ¬ other = key := fun h => hkey (hother ▸ h)
          simp [hother, hkey]
        · simp [hother]

theorem mem_keys_upsert {m : HashMap κ ν} {key other : κ} {f : Option ν → ν} :
    other ∈ (m.upsert key f).keys ↔ other = key ∨ other ∈ m.keys := by
  have hkeys : (m.upsert key f).keys = _ := map_fst_upsertEntries key f m.entries
  rw [hkeys]
  split
  · next hmem => exact ⟨.inr, fun h => h.elim (fun heq => heq ▸ hmem) id⟩
  · rw [List.mem_append, List.mem_singleton]
    exact or_comm

/-- An update that adds `n` to the measure of a value adds `n` to the total. -/
theorem sum_upsert {g : ν → ℕ} {f : Option ν → ν} {n : ℕ}
    (hf : ∀ old, g (f old) = (old.map g).getD 0 + n) (m : HashMap κ ν) (key : κ) :
    ((m.upsert key f).entries.map fun entry => g entry.2).sum =
      (m.entries.map fun entry => g entry.2).sum + n := by
  show ((upsertEntries key f m.entries).map fun entry => g entry.2).sum = _
  induction m.entries with
  | nil =>
      simp only [upsertEntries, List.map_cons, List.map_nil, List.sum_cons, List.sum_nil, hf,
        Option.map_none, Option.getD_none]
      omega
  | cons entry rest ih =>
      rw [upsertEntries]
      split
      · simp only [List.map_cons, List.sum_cons, hf, Option.map_some, Option.getD_some]
        omega
      · simp only [List.map_cons, List.sum_cons, ih]
        omega

theorem get_upsert (m : HashMap κ ν) (key other : κ) (f : Option ν → ν) :
    (m.upsert key f).get other = if other = key then some (f (m.get key)) else m.get other :=
  lookup_upsertEntries key other f m.entries

theorem get_eq_some_iff (m : HashMap κ ν) {key : κ} {value : ν} :
    m.get key = some value ↔ (key, value) ∈ m.entries := by
  obtain ⟨entries, hnodup⟩ := m
  simp only [get]
  induction entries with
  | nil => simp
  | cons entry rest ih =>
      obtain ⟨k, v⟩ := entry
      rw [List.map_cons, List.nodup_cons] at hnodup
      rw [lookup_cons_ite, List.mem_cons, ← ih hnodup.2, Prod.mk.injEq]
      by_cases hkey : key = k
      · have habsent : rest.lookup key ≠ some value := fun h =>
          hnodup.1 (hkey ▸ List.mem_map.mpr ⟨_, (ih hnodup.2).mp h, rfl⟩)
        rw [if_pos hkey, Option.some.injEq]
        exact ⟨fun h => .inl ⟨hkey, h.symm⟩, fun h => (h.resolve_right habsent).2.symm⟩
      · simp [hkey]

/-- The entries under a key are the one value stored under it, if any. -/
theorem filter_key (m : HashMap κ ν) (key : κ) :
    m.entries.filter (·.1 = key) = ((m.get key).map (key, ·)).toList := by
  obtain ⟨entries, hnodup⟩ := m
  simp only [get]
  induction entries with
  | nil => rfl
  | cons entry rest ih =>
      obtain ⟨k, v⟩ := entry
      rw [List.map_cons, List.nodup_cons] at hnodup
      rw [lookup_cons_ite, List.filter_cons]
      by_cases hkey : k = key
      · subst hkey
        have habsent : rest.filter (·.1 = k) = [] :=
          List.filter_eq_nil_iff.mpr fun entry hentry h =>
            hnodup.1 (List.mem_map.mpr ⟨entry, hentry, of_decide_eq_true h⟩)
        simp [habsent]
      · have hne : ¬ key = k := fun h => hkey h.symm
        simp [hkey, hne, ih hnodup.2]

end HashMap

/-! ## Lists of entries -/

namespace Entries

variable {κ ν : Type*} [DecidableEq κ] {entries : List (κ × ν)}

/-- Where each key is stored once, every entry is found. -/
theorem lookup_of_mem (hnodup : (entries.map Prod.fst).Nodup) {entry : κ × ν}
    (h : entry ∈ entries) : entries.lookup entry.1 = some entry.2 := by
  obtain ⟨before, after, rfl⟩ := List.append_of_mem h
  rw [List.map_append, List.map_cons] at hnodup
  refine List.lookup_eq_some_iff.mpr ⟨before, after, rfl, fun earlier hearlier => ?_⟩
  have hne := (List.nodup_append.mp hnodup).2.2 _ (List.mem_map_of_mem hearlier) _ List.mem_cons_self
  simpa using Ne.symm hne

theorem lookup_of_not_mem {key : κ} (h : key ∉ entries.map Prod.fst) : entries.lookup key = none := by
  refine List.lookup_eq_none_iff.mpr fun entry hentry => ?_
  rw [bne_iff_ne]
  rintro rfl
  exact h (List.mem_map_of_mem hentry)

theorem lookup_append_of_not_mem {key : κ} (h : key ∉ entries.map Prod.fst) (v : ν) :
    (entries ++ [(key, v)]).lookup key = some v := by
  rw [List.lookup_append, List.lookup_cons_self, lookup_of_not_mem h, Option.none_or]

end Entries
