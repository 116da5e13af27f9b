import Mathlib.Data.List.Nodup
import WazuhOcsf.Library.Json

/-!
# Places in a document

An address leads from the root of a document to a value below it, through object
keys and array indices.  `Value.locate` follows one, `Value.replace` puts another
value there.  An address never depends on the value it leads to, so what a program
reads of a document is a set of addresses.
-/

namespace Json

/-- One step down. -/
inductive Step
  | key (k : String)
  | index (i : ℕ)
  deriving DecidableEq

/-- The steps from a value down to one inside it. -/
abbrev Address := List Step

namespace Value

/-- Induction on documents: a container is reached after everything in it. -/
@[elab_as_elim]
theorem induct {motive : Value → Prop} (null : motive .null) (bool : ∀ b, motive (.bool b))
    (number : ∀ n, motive (.number n)) (string : ∀ s, motive (.string s))
    (array : ∀ elements, (∀ v ∈ elements, motive v) → motive (.array elements))
    (object : ∀ entries : Map, (∀ entry ∈ entries, motive entry.2) → motive (.object entries)) :
    ∀ v, motive v
  | .null => null
  | .bool b => bool b
  | .number n => number n
  | .string s => string s
  | .array elements => array elements fun v _ => induct null bool number string array object v
  | .object entries => object entries fun entry _ =>
      induct null bool number string array object entry.2
termination_by v => sizeOf v
decreasing_by
  · have hmem := List.sizeOf_lt_of_mem ‹v ∈ elements›
    simp only [Value.array.sizeOf_spec]
    omega
  · have hmem := List.sizeOf_lt_of_mem ‹entry ∈ entries›
    obtain ⟨key, v⟩ := entry
    simp only [Prod.mk.sizeOf_spec, Value.object.sizeOf_spec] at hmem ⊢
    omega

/-- The value one step below. -/
def child : Value → Step → Option Value
  | object entries, .key k => Map.get entries k
  | array elements, .index i => elements[i]?
  | _, _ => none

/-- The value at an address. -/
def locate : Value → Address → Option Value
  | v, [] => some v
  | v, step :: rest => (v.child step).bind fun below => below.locate rest

@[simp] theorem locate_nil (v : Value) : v.locate [] = some v := rfl

theorem locate_cons (v : Value) (step : Step) (rest : Address) :
    v.locate (step :: rest) = (v.child step).bind fun below => below.locate rest := rfl

theorem child_key (v : Value) (k : String) : v.child (.key k) = v.get k := by
  cases v <;> rfl

theorem locate_append (v : Value) (first second : Address) :
    v.locate (first ++ second) = (v.locate first).bind fun below => below.locate second := by
  induction first generalizing v with
  | nil => rfl
  | cons step rest ih =>
      rw [List.cons_append, locate_cons, locate_cons, Option.bind_assoc]
      exact congrArg _ (funext ih)

theorem mem_of_get {entries : Map} {key : String} {v : Value}
    (h : Map.get entries key = some v) : (key, v) ∈ entries := by
  obtain ⟨before, after, rfl, -⟩ := List.lookup_eq_some_iff.mp h
  simp

/-! ## Replacing a leaf -/

/-- The document with another value at an address, if the address leads somewhere. -/
def replace (w : Value) : Address → Value → Value
  | [], _ => w
  | .key k :: rest, object entries =>
      object (entries.map fun entry => if entry.1 = k then (k, replace w rest entry.2) else entry)
  | .index i :: rest, array elements => array (elements.modify i (replace w rest))
  | _, v => v

/-- The value without what lies below it. -/
def outline : Value → Value
  | array _ => array []
  | object _ => object []
  | v => v

@[simp] theorem asStr_outline (v : Value) : v.outline.asStr = v.asStr := by cases v <;> rfl

theorem lookup_map_replace (w : Value) (rest : Address) (entries : Map) (k key : String) :
    (entries.map fun entry => if entry.1 = k then (k, replace w rest entry.2) else entry).lookup
        key =
      if key = k then (entries.lookup key).map (replace w rest) else entries.lookup key := by
  induction entries with
  | nil => simp
  | cons entry tail ih =>
      obtain ⟨head, v⟩ := entry
      by_cases hhead : head = k
      · by_cases hkey : key = k
        · simp [hhead, hkey]
        · simp [List.lookup_cons, hhead, hkey, ih, beq_eq_false_iff_ne.mpr hkey]
      · by_cases hkey : key = head
        · simp [hkey, hhead]
        · simp only [List.map_cons, hhead, if_false, List.lookup_cons,
            beq_eq_false_iff_ne.mpr hkey, ih]

theorem child_replace_self (w v : Value) (step : Step) (rest : Address) :
    (replace w (step :: rest) v).child step = (v.child step).map (replace w rest) := by
  cases step <;> cases v <;> simp [replace, child, Map.get, lookup_map_replace]

theorem child_replace_of_ne (w v : Value) {step other : Step} (rest : Address)
    (hne : other ≠ step) : (replace w (step :: rest) v).child other = v.child other := by
  cases step <;> cases v <;> cases other <;>
    simp_all [replace, child, Map.get, lookup_map_replace, Ne.symm]

theorem outline_replace (w v : Value) (step : Step) (rest : Address) :
    (replace w (step :: rest) v).outline = v.outline := by
  cases step <;> cases v <;> rfl

theorem locate_replace {w v : Value} {address : Address} (h : (v.locate address).isSome) :
    (replace w address v).locate address = some w := by
  induction address generalizing v with
  | nil => rfl
  | cons step rest ih =>
      rw [locate_cons, Option.isSome_bind, Option.any_eq_true] at h
      obtain ⟨below, hchild, hrest⟩ := h
      rw [locate_cons, child_replace_self, hchild, Option.map_some, Option.bind_some, ih hrest]

/-- A value with nothing below it. -/
def IsScalar (v : Value) : Prop := ∀ step, v.child step = none

theorem isScalar_string (s : String) : (string s).IsScalar := fun step => by cases step <;> rfl

theorem isScalar_number (n : Number) : (number n).IsScalar := fun step => by cases step <;> rfl

/-- Replacing a scalar by a scalar leaves every other place as it is. -/
theorem outline_locate_replace {v leaf w : Value} {address other : Address}
    (hleaf : leaf.IsScalar) (hw : w.IsScalar) (h : v.locate address = some leaf)
    (hne : other ≠ address) :
    ((replace w address v).locate other).map outline = (v.locate other).map outline := by
  induction address generalizing v other with
  | nil =>
      obtain rfl := Option.some.inj h
      obtain ⟨step, rest, rfl⟩ := List.exists_cons_of_ne_nil hne
      rw [replace, locate_cons, locate_cons, hleaf, hw, Option.bind_none]
  | cons step rest ih =>
      obtain ⟨below, hchild, hbelow⟩ := Option.bind_eq_some_iff.mp h
      cases other with
      | nil => exact congrArg some (outline_replace w v step rest)
      | cons step' rest' =>
          rw [locate_cons, locate_cons]
          by_cases hstep : step' = step
          · subst hstep
            rw [child_replace_self, hchild, Option.map_some, Option.bind_some, Option.bind_some]
            exact ih hbelow fun heq => hne (heq ▸ rfl)
          · rw [child_replace_of_ne _ _ _ hstep]

/-- What does not look below a value sees no more than its outline. -/
theorem bind_eq_of_outline {β : Type*} {f : Value → Option β} (hf : ∀ w : Value, f w.outline = f w)
    {o o' : Option Value} (h : o'.map outline = o.map outline) : o'.bind f = o.bind f := by
  have houtline : ∀ o : Option Value, (o.map outline).bind f = o.bind f := by
    rintro (_ | w)
    · rfl
    · exact hf w
  rw [← houtline, h, houtline]

theorem isSome_locate_replace {v leaf w : Value} {address : Address} (hleaf : leaf.IsScalar)
    (hw : w.IsScalar) (h : v.locate address = some leaf) (other : Address) :
    ((replace w address v).locate other).isSome = (v.locate other).isSome := by
  by_cases hne : other = address
  · rw [hne, locate_replace (h ▸ rfl), h, Option.isSome_some, Option.isSome_some]
  · rw [← Option.isSome_map (f := outline), outline_locate_replace hleaf hw h hne,
      Option.isSome_map]

/-- What does not look below a value tells the documents apart at the address only. -/
theorem bind_locate_replace {β : Type*} {v leaf w : Value} {address other : Address}
    {f : Value → Option β} (hf : ∀ w : Value, f w.outline = f w) (hleaf : leaf.IsScalar)
    (hw : w.IsScalar) (h : v.locate address = some leaf) (hsame : other = address → f w = f leaf) :
    ((replace w address v).locate other).bind f = (v.locate other).bind f := by
  by_cases hne : other = address
  · rw [hne, locate_replace (h ▸ rfl), h, Option.bind_some, Option.bind_some, hsame hne]
  · exact bind_eq_of_outline hf (outline_locate_replace hleaf hw h hne)

/-- The documents are the same but for the string at the address. -/
structure Varies (address : Address) (v v' : Value) : Prop where
  outline_eq : ∀ other, other ≠ address →
    (v'.locate other).map outline = (v.locate other).map outline
  string_at : ∃ s t, v.locate address = some (.string s) ∧ v'.locate address = some (.string t)

theorem varies_replace {v : Value} {address : Address} {s : String}
    (h : v.locate address = some (.string s)) (t : String) :
    Varies address v (replace (.string t) address v) where
  outline_eq _ := outline_locate_replace (isScalar_string s) (isScalar_string t) h
  string_at := ⟨s, t, h, locate_replace (h ▸ rfl)⟩

namespace Varies

variable {address other : Address} {v v' : Value} {β : Type*}

/-- What does not look below a value sees the same elsewhere. -/
theorem bind_eq (h : Varies address v v') (hne : other ≠ address) {f : Value → Option β}
    (hf : ∀ w : Value, f w.outline = f w) : (v'.locate other).bind f = (v.locate other).bind f :=
  bind_eq_of_outline hf (h.outline_eq other hne)

theorem isSome_locate (h : Varies address v v') (other : Address) :
    (v'.locate other).isSome = (v.locate other).isSome := by
  by_cases hne : other = address
  · obtain ⟨s, t, hs, ht⟩ := h.string_at
    rw [hne, hs, ht]
    rfl
  · rw [← Option.isSome_map (f := outline), h.outline_eq other hne, Option.isSome_map]

/-- What sees no string sees the same everywhere. -/
theorem bind_eq_of_string (h : Varies address v v') (other : Address) {f : Value → Option β}
    (hf : ∀ w : Value, f w.outline = f w) (hstring : ∀ s, f (.string s) = none) :
    (v'.locate other).bind f = (v.locate other).bind f := by
  by_cases hne : other = address
  · obtain ⟨s, t, hs, ht⟩ := h.string_at
    rw [hne, hs, ht, Option.bind_some, Option.bind_some, hstring, hstring]
  · exact h.bind_eq hne hf

end Varies

/-! ## Well-formed objects -/

/-- Every object in the document satisfies `P`. -/
def EveryObject (P : Map → Prop) (v : Value) : Prop :=
  ∀ address entries, v.locate address = some (.object entries) → P entries

namespace EveryObject

variable {P : Map → Prop}

theorem child {v below : Value} {step : Step} (h : v.EveryObject P)
    (hchild : v.child step = some below) : below.EveryObject P := fun address entries hobject =>
  h (step :: address) entries (by rw [locate_cons, hchild]; exact hobject)

/-- It is enough to look at the root and at what lies one step below. -/
theorem of_children {v : Value} (hroot : ∀ entries, v = .object entries → P entries)
    (hbelow : ∀ step below, v.child step = some below → below.EveryObject P) :
    v.EveryObject P := by
  intro address entries hlocate
  cases address with
  | nil => exact hroot entries (Option.some.inj hlocate)
  | cons step rest =>
      obtain ⟨below, hchild, hrest⟩ := Option.bind_eq_some_iff.mp hlocate
      exact hbelow step below hchild rest entries hrest

theorem object {entries : Map} (hroot : P entries)
    (hbelow : ∀ entry ∈ entries, entry.2.EveryObject P) : (Value.object entries).EveryObject P := by
  refine of_children (fun _ heq => Value.object.inj heq ▸ hroot) fun step below hchild => ?_
  cases step with
  | key k => exact hbelow (k, below) (mem_of_get hchild)
  | index i => simp [Value.child] at hchild

theorem array {elements : List Value} (hbelow : ∀ v ∈ elements, v.EveryObject P) :
    (Value.array elements).EveryObject P := by
  refine of_children (by simp) fun step below hchild => ?_
  cases step with
  | key k => simp [Value.child] at hchild
  | index i => exact hbelow below (List.mem_of_getElem? hchild)

theorem string (s : String) : (Value.string s).EveryObject P :=
  of_children (by simp) fun step below hchild => by cases step <;> simp [Value.child] at hchild

theorem number (n : Number) : (Value.number n).EveryObject P :=
  of_children (by simp) fun step below hchild => by cases step <;> simp [Value.child] at hchild

end EveryObject

/-- Every object in the document stores a key once. -/
def UniqueKeys (v : Value) : Prop := v.EveryObject fun entries => (entries.map Prod.fst).Nodup

/-- In an object that stores a key once, an entry is what its key finds. -/
theorem get_of_mem {entries : Map} {entry : String × Value}
    (hnodup : (entries.map Prod.fst).Nodup) (hmem : entry ∈ entries) :
    Map.get entries entry.1 = some entry.2 := by
  induction entries with
  | nil => exact absurd hmem List.not_mem_nil
  | cons head rest ih =>
      obtain ⟨key, v⟩ := head
      rw [List.map_cons, List.nodup_cons] at hnodup
      rw [Map.get, List.lookup_cons]
      rcases List.mem_cons.mp hmem with rfl | hrest
      · simp
      · have hne : ¬ entry.1 = key := fun heq => hnodup.1 (heq ▸ List.mem_map.mpr ⟨entry, hrest, rfl⟩)
        rw [beq_eq_false_iff_ne.mpr hne]
        exact ih hnodup.2 hrest

/-! ## Children -/

/-- What lies one step below a value, in document order. -/
def children : Value → List (Step × Value)
  | object entries => entries.map fun entry => (.key entry.1, entry.2)
  | array elements => elements.zipIdx.map fun element => (.index element.2, element.1)
  | _ => []

/-- Induction on documents, objects and arrays alike. -/
@[elab_as_elim]
theorem induct_children {motive : Value → Prop}
    (h : ∀ v, (∀ child ∈ v.children, motive child.2) → motive v) (v : Value) : motive v := by
  induction v using induct with
  | array elements ih =>
      refine h _ fun child hmem => ?_
      obtain ⟨element, helement, rfl⟩ := List.mem_map.mp hmem
      exact ih _ (List.fst_mem_of_mem_zipIdx helement)
  | object entries ih =>
      refine h _ fun child hmem => ?_
      obtain ⟨entry, hentry, rfl⟩ := List.mem_map.mp hmem
      exact ih entry hentry
  | _ => exact h _ fun _ hmem => absurd hmem List.not_mem_nil

theorem mem_children_iff {v : Value} (hunique : v.UniqueKeys) {step : Step} {below : Value} :
    (step, below) ∈ v.children ↔ v.child step = some below := by
  cases v with
  | object entries =>
      cases step with
      | key k =>
          simp only [children, List.mem_map, Prod.mk.injEq, Step.key.injEq]
          constructor
          · rintro ⟨entry, hentry, rfl, rfl⟩
            exact get_of_mem (hunique [] entries rfl) hentry
          · intro hchild
            exact ⟨(k, below), mem_of_get hchild, rfl, rfl⟩
      | index i => simp [children, child]
  | array elements =>
      cases step with
      | key k => simp [children, child]
      | index i => simp [children, child, List.mk_mem_zipIdx_iff_getElem?]
  | _ => cases step <;> simp [children, child]

/-- The steps to the children differ. -/
theorem nodup_children {v : Value} (hunique : v.UniqueKeys) :
    (v.children.map Prod.fst).Nodup := by
  cases v with
  | object entries =>
      have hkeys : (entries.map Prod.fst).Nodup := hunique [] entries rfl
      have hsteps := hkeys.map (f := Step.key) fun _ _ => Step.key.inj
      rw [List.map_map] at hsteps
      rwa [children, List.map_map]
  | array elements =>
      have hindices : (elements.zipIdx.map Prod.snd).Nodup := by
        rw [List.zipIdx_map_snd]
        exact List.nodup_range' ..
      have hsteps := hindices.map (f := Step.index) fun _ _ => Step.index.inj
      rw [List.map_map] at hsteps
      rwa [children, List.map_map]
  | _ => exact List.nodup_nil

end Value

end Json
