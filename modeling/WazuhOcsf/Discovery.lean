import WazuhOcsf.Library.JsonAddress
import WazuhOcsf.Util.Json

/-!
# Discovered paths and the lookup

`flattenToPaths` names every leaf of a document by a dotted path, `getDataField`
resolves one.  `mem_flattenToPaths_iff` says which paths are produced: those of the
addresses of leaves.  The lookup goes through objects only, while discovery also goes
through arrays, so the two agree exactly on the leaves outside arrays
(`discovered_path_resolves_iff`).
-/

namespace WazuhOcsf

open Json RustString

/-! ## The path of an address -/

/-- The segment a step adds to a path. -/
def segment : Step → String
  | .key k => k
  | .index i => Nat.repr i

/-- The path below `path` that an address is given. -/
def pathFrom (path : String) (address : Address) : String :=
  (address.map segment).foldl childPath path

/-- The path of an address in a document. -/
def pathOf (address : Address) : String := pathFrom "" address

/-- A value that discovery lists. -/
def IsLeaf : Value → Prop
  | .bool _ | .number _ | .string _ => True
  | _ => False

theorem flattenEntries_eq (path : String) (entries : Map) :
    flattenEntries path entries =
      entries.flatMap fun entry => flattenToPaths (childPath path entry.1) entry.2 := by
  induction entries with
  | nil => rfl
  | cons entry rest ih => rw [flattenEntries, List.flatMap_cons, ih]

theorem flattenElements_eq (path : String) (i : ℕ) (elements : List Value) :
    flattenElements path i elements = (elements.zipIdx i).flatMap fun element =>
      flattenToPaths (childPath path (Nat.repr element.2)) element.1 := by
  induction elements generalizing i with
  | nil => rfl
  | cons v rest ih => rw [flattenElements, List.zipIdx_cons, List.flatMap_cons, ih]

theorem flattenToPaths_of_leaf {v : Value} (hleaf : IsLeaf v) (path : String) :
    flattenToPaths path v = if path = "" then [] else [(path, valueToStr v)] := by
  cases v with
  | null | array _ | object _ => exact hleaf.elim
  | _ => rfl

/-- Discovery goes through the children of a container, named by key or by index. -/
theorem flattenToPaths_of_container {v : Value} (hcontainer : ¬ IsLeaf v) (path : String) :
    flattenToPaths path v = v.children.flatMap fun child =>
      flattenToPaths (childPath path (segment child.1)) child.2 := by
  cases v with
  | null => rfl
  | array elements => rw [flattenToPaths, flattenElements_eq, Value.children, List.flatMap_map]; rfl
  | object entries => rw [flattenToPaths, flattenEntries_eq, Value.children, List.flatMap_map]; rfl
  | _ => exact absurd trivial hcontainer

/-- The leaves of a container are the leaves one step below. -/
theorem exists_leaf_iff {v : Value} (hcontainer : ¬ IsLeaf v) {P : Address → Value → Prop} :
    (∃ address leaf, v.locate address = some leaf ∧ IsLeaf leaf ∧ P address leaf) ↔
      ∃ step below, v.child step = some below ∧
        ∃ rest leaf, below.locate rest = some leaf ∧ IsLeaf leaf ∧ P (step :: rest) leaf := by
  constructor
  · rintro ⟨address, leaf, hlocate, hleaf, hP⟩
    cases address with
    | nil => exact absurd (Option.some.inj hlocate ▸ hleaf) hcontainer
    | cons step rest =>
        obtain ⟨below, hchild, hrest⟩ := Option.bind_eq_some_iff.mp hlocate
        exact ⟨step, below, hchild, rest, leaf, hrest, hleaf, hP⟩
  · rintro ⟨step, below, hchild, rest, leaf, hrest, hleaf, hP⟩
    exact ⟨step :: rest, leaf, Option.bind_eq_some_iff.mpr ⟨below, hchild, hrest⟩, hleaf, hP⟩

/-- Nothing lies below a leaf. -/
theorem locate_of_leaf {v : Value} (hv : IsLeaf v) {address : Address} {leaf : Value} :
    v.locate address = some leaf ↔ address = [] ∧ leaf = v := by
  cases address with
  | nil => simp [eq_comm]
  | cons step rest =>
      have hchild : v.child step = none := by
        cases v <;> first | exact hv.elim | cases step <;> rfl
      simp [Value.locate_cons, hchild]

/-- A leaf is listed under the path it is reached by. -/
theorem mem_leaf_iff {v : Value} (hleaf : IsLeaf v) {path p s : String} :
    (p, s) ∈ (if path = "" then [] else [(path, valueToStr v)]) ↔
      p ≠ "" ∧ ∃ address leaf, v.locate address = some leaf ∧ IsLeaf leaf ∧
        pathFrom path address = p ∧ valueToStr leaf = s := by
  by_cases hpath : path = ""
  · simp only [hpath, if_true, List.not_mem_nil, false_iff, not_and, locate_of_leaf hleaf]
    rintro hp ⟨-, -, ⟨rfl, rfl⟩, -, rfl, -⟩
    exact hp rfl
  · simp only [hpath, if_false, List.mem_singleton, Prod.mk.injEq, locate_of_leaf hleaf]
    constructor
    · rintro ⟨rfl, rfl⟩
      exact ⟨hpath, [], v, ⟨rfl, rfl⟩, hleaf, rfl, rfl⟩
    · rintro ⟨-, -, -, ⟨rfl, rfl⟩, -, rfl, rfl⟩
      exact ⟨rfl, rfl⟩

/-- Discovery lists the leaves that have a path. -/
theorem mem_flattenToPaths_iff {v : Value} (hunique : v.UniqueKeys) {path p s : String} :
    (p, s) ∈ flattenToPaths path v ↔
      p ≠ "" ∧ ∃ address leaf, v.locate address = some leaf ∧ IsLeaf leaf ∧
        pathFrom path address = p ∧ valueToStr leaf = s := by
  induction v using Value.induct_children generalizing path with
  | h v ih =>
      by_cases hv : IsLeaf v
      · rw [flattenToPaths_of_leaf hv]
        exact mem_leaf_iff hv
      · rw [flattenToPaths_of_container hv, List.mem_flatMap, exists_leaf_iff hv]
        constructor
        · rintro ⟨⟨step, below⟩, hmem, hitem⟩
          have hchild := (Value.mem_children_iff hunique).mp hmem
          rw [ih _ hmem (hunique.child hchild)] at hitem
          exact ⟨hitem.1, step, below, hchild, hitem.2⟩
        · rintro ⟨hp, step, below, hchild, hrest⟩
          have hmem := (Value.mem_children_iff hunique).mpr hchild
          refine ⟨(step, below), hmem, ?_⟩
          rw [ih _ hmem (hunique.child hchild)]
          exact ⟨hp, hrest⟩

/-! ## Resolving a discovered path -/

/-- No key of the document is empty or contains a dot. -/
def PlainKeys (v : Value) : Prop :=
  v.EveryObject fun entries => ∀ entry ∈ entries, entry.1 ≠ "" ∧ '.' ∉ entry.1.toList

theorem plain_repr (n : ℕ) : Nat.repr n ≠ "" ∧ '.' ∉ (Nat.repr n).toList := by
  refine ⟨fun hempty => repr_ne_empty n (by simp [hempty]), fun hdot => ?_⟩
  exact absurd (isDigit_of_mem_repr hdot) (by decide)

/-- In a document with plain keys every segment of an address is plain. -/
theorem PlainKeys.segment {v : Value} (h : PlainKeys v) {address : Address}
    (hlocate : (v.locate address).isSome) :
    ∀ name ∈ address.map segment, name ≠ "" ∧ '.' ∉ name.toList := by
  induction address generalizing v with
  | nil => simp
  | cons step rest ih =>
      rw [Value.locate_cons, Option.isSome_bind, Option.any_eq_true] at hlocate
      obtain ⟨below, hchild, hrest⟩ := hlocate
      rw [List.map_cons, List.forall_mem_cons]
      refine ⟨?_, ih (Value.EveryObject.child h hchild) hrest⟩
      cases step with
      | index i => exact plain_repr i
      | key k =>
          cases v with
          | object entries => exact h [] entries rfl (k, below) (Value.mem_of_get hchild)
          | _ => simp [Value.child] at hchild

theorem childPath_ne {path : String} (hpath : path ≠ "") (name : String) :
    childPath path name ≠ "" := by
  rw [childPath, if_neg hpath, ← String.toList_inj.ne]
  simp

/-- A path below a path joins the segments with dots. -/
theorem toList_foldl_childPath {path : String} (hpath : path ≠ "") (names : List String) :
    (names.foldl childPath path).toList =
      ['.'].intercalate (path.toList :: names.map String.toList) := by
  induction names generalizing path with
  | nil => simp
  | cons name rest ih =>
      have hchild : childPath path name = path ++ "." ++ name := if_neg hpath
      rw [List.foldl_cons, ih (childPath_ne hpath name), hchild]
      cases rest <;> simp [List.intercalate_cons_cons]

/-- Splitting the path of an address gives its segments back. -/
theorem split_pathOf {address : Address} (hne : address ≠ [])
    (hplain : ∀ name ∈ address.map segment, name ≠ "" ∧ '.' ∉ name.toList) :
    split '.' (pathOf address) = address.map segment := by
  obtain ⟨step, rest, rfl⟩ := List.exists_cons_of_ne_nil hne
  rw [List.map_cons, List.forall_mem_cons] at hplain
  rw [split, pathOf, pathFrom, List.map_cons, List.foldl_cons, childPath, if_pos rfl,
    toList_foldl_childPath hplain.1.1, List.splitOn_intercalate]
  · simp [Function.comp_def]
  · simpa using ⟨hplain.1.2, fun a ha => (hplain.2 _ (List.mem_map_of_mem ha)).2⟩
  · simp

/-- Without dotted keys the literal lookup adds nothing to the walk. -/
theorem getDataField_of_plain {data : Value} (hplain : PlainKeys data) (p : String) :
    getDataField data p = ((walk data (split '.' p)).map valueToStr).getD "" := by
  rw [getDataField]
  split_ifs with hliteral
  · cases hget : data.get p with
    | none => simp [hget] at hliteral
    | some v =>
        cases data with
        | object entries =>
            have hdot := (hplain [] entries rfl (p, v) (Value.mem_of_get hget)).2
            have hsplit : split '.' p = [p] := by simp [split, List.splitOn_eq_singleton hdot]
            rw [hsplit, walk, hget]
            rfl
        | _ => simp [Value.get, Value.asObject] at hget
  · rfl

/-- Through objects the walk follows the address. -/
theorem walk_of_keys {v : Value} {address : Address} (hkeys : ∀ i, Step.index i ∉ address) :
    walk v (address.map segment) = v.locate address := by
  induction address generalizing v with
  | nil => rfl
  | cons step rest ih =>
      cases step with
      | index i => exact absurd List.mem_cons_self (hkeys i)
      | key k =>
          rw [List.map_cons, segment, walk, Value.locate_cons, Value.child_key]
          exact congrArg _ (funext fun below => ih fun i hi => hkeys i (List.mem_cons_of_mem _ hi))

/-- The walk does not enter an array. -/
theorem walk_of_index {v : Value} {address : Address} (hlocate : (v.locate address).isSome)
    {i : ℕ} (hindex : Step.index i ∈ address) : walk v (address.map segment) = none := by
  induction address generalizing v with
  | nil => exact absurd hindex List.not_mem_nil
  | cons step rest ih =>
      rw [Value.locate_cons, Option.isSome_bind, Option.any_eq_true] at hlocate
      obtain ⟨below, hchild, hrest⟩ := hlocate
      rw [List.map_cons, walk]
      cases step with
      | index j =>
          cases v with
          | array elements => rfl
          | _ => simp [Value.child] at hchild
      | key k =>
          rw [Value.child_key] at hchild
          rw [segment, hchild, Option.bind_some]
          exact ih hrest ((List.mem_cons.mp hindex).resolve_left (by simp))

/-- A value with this path lies inside an array. -/
def InArray (data : Value) (p : String) : Prop :=
  ∃ address i, (data.locate address).isSome ∧ pathOf address = p ∧ Step.index i ∈ address

/-- A discovered path fetches the value that was seen exactly when the value lies
outside arrays. -/
theorem discovered_path_resolves_iff {data : Value} (hunique : data.UniqueKeys)
    (hplain : PlainKeys data) {p s : String} (hmem : (p, s) ∈ flattenToPaths "" data)
    (hs : s ≠ "") : getDataField data p = s ↔ ¬ InArray data p := by
  obtain ⟨hp, address, leaf, hlocate, -, rfl, rfl⟩ := (mem_flattenToPaths_iff hunique).mp hmem
  have hsplit : ∀ address', (data.locate address').isSome → pathOf address' = pathOf address →
      split '.' (pathOf address) = address'.map segment := by
    intro address' hlocate' hpath
    have hne : address' ≠ [] := by
      rintro rfl
      exact hp hpath.symm
    rw [← hpath, split_pathOf hne (hplain.segment hlocate')]
  have hlookup := getDataField_of_plain hplain (pathOf address)
  constructor
  · rintro hresolves ⟨address', i, hlocate', hpath, hindex⟩
    rw [hsplit address' hlocate' hpath, walk_of_index hlocate' hindex] at hlookup
    exact hs (hresolves.symm.trans hlookup)
  · intro houtside
    have hkeys : ∀ i, Step.index i ∉ address := fun i hi =>
      houtside ⟨address, i, by rw [hlocate]; rfl, rfl, hi⟩
    rw [hsplit address (by rw [hlocate]; rfl) rfl, walk_of_keys hkeys, hlocate] at hlookup
    exact hlookup

/-- A string under two keys. -/
def nestedValue : Value := .object [("edr", .object [("name", .string "trojan")])]

/-- A string in an array. -/
def listedValue : Value := .object [("tags", .array [.string "web"])]

theorem discovered_path_resolves_name :
    getDataField nestedValue "edr.name" = "trojan" ↔ ¬ InArray nestedValue "edr.name" :=
  discovered_path_resolves_iff
    (.object (by decide) <| List.forall_mem_singleton.mpr <|
      .object (by decide) <| List.forall_mem_singleton.mpr <| .string _)
    (.object (by decide) <| List.forall_mem_singleton.mpr <|
      .object (by decide) <| List.forall_mem_singleton.mpr <| .string _)
    (by decide) (by decide)

/-- The report lists `tags.0`, and no mapping entry can fetch it. -/
theorem discovered_path_unresolved : listedValue.UniqueKeys ∧ PlainKeys listedValue ∧
    ("tags.0", "web") ∈ flattenToPaths "" listedValue ∧ getDataField listedValue "tags.0" = "" :=
  ⟨.object (by decide) <| List.forall_mem_singleton.mpr <|
      .array <| List.forall_mem_singleton.mpr <| .string _,
    .object (by decide) <| List.forall_mem_singleton.mpr <|
      .array <| List.forall_mem_singleton.mpr <| .string _,
    by decide, by decide⟩

end WazuhOcsf
