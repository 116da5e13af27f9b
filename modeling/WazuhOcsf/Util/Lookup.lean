import WazuhOcsf.Library.JsonAddress
import WazuhOcsf.Util.Json

/-!
# How a path resolves

The resolvers differ in what they make of a value; which value they look at is `found`,
the literal key first.  A search over a list of paths sees a document through the values
found there and nothing else (`firstStr_congr`, `firstPort_congr`, `firstU64_congr`).
-/

namespace WazuhOcsf

open Json Json.Value RustString

/-- The address a dotted path is walked along. -/
def dotted (path : String) : Address := (split '.' path).map .key

theorem walk_eq_locate (v : Value) (keys : List String) :
    walk v keys = v.locate (keys.map .key) := by
  induction keys generalizing v with
  | nil => rfl
  | cons key rest ih =>
      rw [walk, List.map_cons, locate_cons, child_key]
      exact congrArg _ (funext ih)

theorem get_eq_locate (v : Value) (key : String) : v.get key = v.locate [.key key] := by
  rw [locate_cons, child_key]
  cases v.get key <;> rfl

theorem jpath_eq_locate (v : Value) (path : String) :
    jpath v path = ((v.locate (dotted path)).bind Value.asStr).getD "" := by
  rw [jpath, walk_eq_locate, dotted]

/-- The value a path resolves to, the literal key first. -/
def found (root : Value) (path : String) : Option Value :=
  (root.get path).or (walk root (split '.' path))

/-- The address a path is resolved at. -/
def place (root : Value) (path : String) : Address :=
  if (root.get path).isSome then [.key path] else dotted path

theorem found_eq_locate (root : Value) (path : String) :
    found root path = root.locate (place root path) := by
  rw [found, place]
  cases hget : root.get path with
  | none =>
      rw [Option.none_or, walk_eq_locate]
      rfl
  | some w =>
      rw [Option.some_or, Option.isSome_some, if_pos rfl, ← get_eq_locate, hget]

/-- Only what a document has decides where a path is resolved. -/
theorem place_congr {v v' : Value}
    (h : ∀ address, (v'.locate address).isSome = (v.locate address).isSome) (path : String) :
    place v' path = place v path := by
  rw [place, place, get_eq_locate, get_eq_locate, h]

/-! ## What a resolver makes of a value -/

theorem valueToStr_outline (w : Value) : valueToStr w.outline = valueToStr w := by cases w <;> rfl

theorem portOf_outline (w : Value) : portOf w.outline = portOf w := by cases w <;> rfl

theorem counterOf_outline (w : Value) : counterOf w.outline = counterOf w := by cases w <;> rfl

/-! ## Searches -/

/-- The value of a first-match search that stops at an acceptable value. -/
theorem getD_filter_some {β : Type} (p : β → Prop) [DecidablePred p] (b fallback : β) :
    ((some b).filter (p ·)).getD fallback = if p b then b else fallback := by
  rw [Option.filter_some]
  simp only [decide_eq_true_eq]
  split <;> rfl

theorem firstStr_cons (root : Value) (path : String) (rest : List String) :
    firstStr root (path :: rest) =
      (((found root path).bind Value.asStr).filter (· ≠ "")).getD (firstStr root rest) := by
  rw [firstStr, found]
  cases root.get path with
  | none =>
      rw [Option.none_or, jpath]
      cases (walk root (split '.' path)).bind Value.asStr with
      | none => rfl
      | some s => exact (getD_filter_some (· ≠ "") s _).symm
  | some w =>
      rw [Option.some_or, Option.bind_some]
      dsimp only
      cases w.asStr with
      | none => rfl
      | some s => exact (getD_filter_some (· ≠ "") s _).symm

theorem firstPort_cons (root : Value) (path : String) (rest : List String) :
    firstPort root (path :: rest) =
      (((found root path).bind portOf).filter (0 < ·)).getD (firstPort root rest) := by
  rw [firstPort, found]
  cases root.get path with
  | none =>
      rw [Option.none_or]
      dsimp only
      cases (walk root (split '.' path)).bind portOf with
      | none => rfl
      | some port => exact (getD_filter_some (0 < ·) port _).symm
  | some w =>
      rw [Option.some_or, Option.bind_some]
      dsimp only
      cases portOf w with
      | none => rfl
      | some port => exact (getD_filter_some (0 < ·) port _).symm

theorem firstU64_cons (root : Value) (path : String) (rest : List String) :
    firstU64 root (path :: rest) =
      ((found root path).bind counterOf).getD (firstU64 root rest) := by
  rw [firstU64, found]
  cases root.get path <;> rfl

section

variable {v v' : Value} {paths : List String}

theorem firstStr_congr
    (h : ∀ path ∈ paths, (found v' path).bind Value.asStr = (found v path).bind Value.asStr) :
    firstStr v' paths = firstStr v paths := by
  induction paths with
  | nil => rfl
  | cons path rest ih =>
      rw [List.forall_mem_cons] at h
      rw [firstStr_cons, firstStr_cons, h.1, ih h.2]

theorem firstPort_congr
    (h : ∀ path ∈ paths, (found v' path).bind portOf = (found v path).bind portOf) :
    firstPort v' paths = firstPort v paths := by
  induction paths with
  | nil => rfl
  | cons path rest ih =>
      rw [List.forall_mem_cons] at h
      rw [firstPort_cons, firstPort_cons, h.1, ih h.2]

theorem firstU64_congr
    (h : ∀ path ∈ paths, (found v' path).bind counterOf = (found v path).bind counterOf) :
    firstU64 v' paths = firstU64 v paths := by
  induction paths with
  | nil => rfl
  | cons path rest ih =>
      rw [List.forall_mem_cons] at h
      rw [firstU64_cons, firstU64_cons, h.1, ih h.2]

end

end WazuhOcsf
