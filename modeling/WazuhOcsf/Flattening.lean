import WazuhOcsf.Discovery
import WazuhOcsf.Util.Lookup

/-!
# Nested and flattened documents

Some decoders nest their output, others flatten it to literal dotted keys.  `flat` is the
flattened form of a document; in a document with plain keys a path finds the same value
in both, objects apart (`found_flat`), and no lookup makes anything of an object
(`lookup_flat`).

Where a document has a literal key beside a nested object, the built-in and the custom
lookup part: the built-in one stays with the literal key, the custom one goes on to the
nested value if the literal one is unusable (`firstStr_eq_getDataField_iff`).
-/

namespace WazuhOcsf

open Json RustString

/-! ## The flattened form -/

mutual

/-- The leaves below `path` that are no objects, each under its dotted path. -/
def flattenValue (path : String) : Value → Map
  | .object entries => flattenMap path entries
  | leaf => [(path, leaf)]

/-- The flattening of the fields of an object. -/
def flattenMap (path : String) : List (String × Value) → Map
  | [] => []
  | (key, v) :: rest => flattenValue (childPath path key) v ++ flattenMap path rest

end

/-- The one-level form of an object. -/
def flat (d : Map) : Value := .object (flattenMap "" d)

theorem flattenMap_eq (path : String) (entries : Map) :
    flattenMap path entries =
      entries.flatMap fun entry => flattenValue (childPath path entry.1) entry.2 := by
  induction entries with
  | nil => rfl
  | cons entry rest ih => rw [flattenMap, List.flatMap_cons, ih]

/-- Nothing lies below a value that is no object. -/
theorem walk_eq_some_of_leaf {v leaf : Value} (hv : v.asObject = none) {names : List String} :
    walk v names = some leaf ↔ names = [] ∧ v = leaf := by
  cases names with
  | nil => simp [walk]
  | cons name rest => simp [walk, Value.get, hv]

/-- A value that is no object is listed under the path it is reached by. -/
theorem mem_leaf_of_not_object {v : Value} (hv : v.asObject = none) {path p : String}
    {leaf : Value} :
    (p, leaf) ∈ [(path, v)] ↔
      ∃ names, walk v names = some leaf ∧ leaf.asObject = none ∧ names.foldl childPath path = p := by
  rw [List.mem_singleton, Prod.mk.injEq]
  constructor
  · rintro ⟨rfl, rfl⟩
    exact ⟨[], rfl, hv, rfl⟩
  · rintro ⟨names, hwalk, -, rfl⟩
    obtain ⟨rfl, rfl⟩ := (walk_eq_some_of_leaf hv).mp hwalk
    exact ⟨rfl, rfl⟩

/-- A leaf is listed under the path that is walked to it. -/
theorem mem_flattenValue_iff {v : Value} (hunique : v.UniqueKeys) {path p : String}
    {leaf : Value} :
    (p, leaf) ∈ flattenValue path v ↔
      ∃ names, walk v names = some leaf ∧ leaf.asObject = none ∧ names.foldl childPath path = p := by
  induction v using Value.induct generalizing path with
  | object entries ih =>
      rw [flattenValue, flattenMap_eq, List.mem_flatMap]
      have hnodup : (entries.map Prod.fst).Nodup := hunique [] entries rfl
      have hbelow {key : String} {w : Value} (hget : Map.get entries key = some w) :
          w.UniqueKeys :=
        Value.EveryObject.child hunique (show (Value.object entries).child (.key key) = _ from hget)
      constructor
      · -- the entry is the one its key is looked up to, as keys are unique
        rintro ⟨entry, hentry, hmem⟩
        have hget := Value.get_of_mem hnodup hentry
        obtain ⟨names, hwalk, hobject, hpath⟩ := (ih entry hentry (hbelow hget)).mp hmem
        refine ⟨entry.1 :: names, ?_, hobject, hpath⟩
        rw [walk, Value.get, Value.asObject, Option.bind_some, hget, Option.bind_some, hwalk]
      · rintro ⟨names, hwalk, hobject, hpath⟩
        cases names with
        | nil =>
            obtain rfl := Option.some.inj hwalk
            exact absurd hobject (by simp [Value.asObject])
        | cons name rest =>
            obtain ⟨w, hget, hrest⟩ := Option.bind_eq_some_iff.mp hwalk
            have hentry := Value.mem_of_get hget
            exact ⟨(name, w), hentry,
              (ih (name, w) hentry (hbelow hget)).mpr ⟨rest, hrest, hobject, hpath⟩⟩
  | null => exact mem_leaf_of_not_object rfl
  | bool b => exact mem_leaf_of_not_object rfl
  | number n => exact mem_leaf_of_not_object rfl
  | string s => exact mem_leaf_of_not_object rfl
  | array elements => exact mem_leaf_of_not_object rfl

/-! ## Looking up in the flattened form -/

theorem segment_key (names : List String) : (names.map Step.key).map segment = names := by
  simp [Function.comp_def, segment]

/-- The keys of a walk are split off the path they are joined to. -/
theorem split_foldl_childPath {v : Value} (hplain : PlainKeys v) {names : List String}
    (hwalk : (walk v names).isSome) (hne : names ≠ []) :
    split '.' (names.foldl childPath "") = names := by
  have hlocate : (v.locate (names.map .key)).isSome := by rwa [← walk_eq_locate]
  have hsplit := split_pathOf (by simpa using hne) (hplain.segment hlocate)
  rwa [pathOf, pathFrom, segment_key] at hsplit

/-- Joining what a path is split into gives the path back. -/
theorem foldl_childPath_split {v : Value} (hplain : PlainKeys v) {p : String}
    (hwalk : (walk v (split '.' p)).isSome) : (split '.' p).foldl childPath "" = p := by
  have hlocate : (v.locate ((split '.' p).map .key)).isSome := by rwa [← walk_eq_locate]
  have hnames := hplain.segment hlocate
  rw [segment_key] at hnames
  have hchars : (split '.' p).map String.toList = p.toList.splitOn '.' := by
    simp [split, Function.comp_def]
  cases hsplit : split '.' p with
  | nil => simp [split, List.splitOn_ne_nil] at hsplit
  | cons first rest =>
      rw [hsplit, List.forall_mem_cons] at hnames
      rw [hsplit, List.map_cons] at hchars
      rw [← String.toList_inj, List.foldl_cons, childPath, if_pos rfl,
        toList_foldl_childPath hnames.1.1, hchars, List.intercalate_splitOn]

variable {d : Map}

/-- The flattened form stores the values the paths are walked to, objects apart. -/
theorem get_flat_eq_some_iff (hunique : (Value.object d).UniqueKeys)
    (hplain : PlainKeys (.object d)) {p : String} {leaf : Value} :
    (flat d).get p = some leaf ↔
      walk (.object d) (split '.' p) = some leaf ∧ leaf.asObject = none := by
  have hmem {p : String} {leaf : Value} : (p, leaf) ∈ flattenMap "" d ↔
      walk (.object d) (split '.' p) = some leaf ∧ leaf.asObject = none := by
    rw [← flattenValue, mem_flattenValue_iff hunique]
    constructor
    · rintro ⟨names, hwalk, hobject, rfl⟩
      have hne : names ≠ [] := by
        rintro rfl
        obtain rfl := Option.some.inj hwalk
        exact absurd hobject (by simp [Value.asObject])
      rw [split_foldl_childPath hplain (by simp [hwalk]) hne]
      exact ⟨hwalk, hobject⟩
    · rintro ⟨hwalk, hobject⟩
      exact ⟨_, hwalk, hobject, foldl_childPath_split hplain (by simp [hwalk])⟩
  have hget {leaf : Value} (h : (flat d).get p = some leaf) : (p, leaf) ∈ flattenMap "" d :=
    Value.mem_of_get h
  constructor
  · exact fun h => hmem.mp (hget h)
  · intro h
    have hlisted := hmem.mpr h
    have hsome : ((flattenMap "" d).lookup p).isSome :=
      List.lookup_isSome_iff.mpr ⟨(p, leaf), hlisted, by simp⟩
    obtain ⟨other, hother⟩ := Option.isSome_iff_exists.mp hsome
    -- a second leaf under the same path would be found by the same walk
    have hwalk := (hmem.mp (hget hother)).1
    rw [h.1] at hwalk
    obtain rfl := Option.some.inj hwalk
    exact hother

/-- A path of one segment is that segment. -/
theorem eq_of_split_eq_singleton {p name : String} (h : split '.' p = [name]) : name = p := by
  have hchars : p.toList.splitOn '.' = [name.toList] := by
    have hmap := congrArg (List.map String.toList) h
    simpa [split, Function.comp_def] using hmap
  have hjoin : ['.'].intercalate (p.toList.splitOn '.') = p.toList := List.intercalate_splitOn _
  rw [← String.toList_inj, ← hjoin, hchars]
  simp

/-- The walk through the flattened form ends at the literal key. -/
theorem walk_flat (hunique : (Value.object d).UniqueKeys) (hplain : PlainKeys (.object d))
    (p : String) :
    walk (flat d) (split '.' p) = none ∨ walk (flat d) (split '.' p) = (flat d).get p := by
  cases hsplit : split '.' p with
  | nil => simp [split, List.splitOn_ne_nil] at hsplit
  | cons first rest =>
      rw [walk]
      cases hfirst : (flat d).get first with
      | none => exact .inl rfl
      | some leaf =>
          have hleaf := ((get_flat_eq_some_iff hunique hplain).mp hfirst).2
          cases rest with
          | nil => exact .inr (eq_of_split_eq_singleton hsplit ▸ hfirst.symm)
          -- what is stored is no object, so a second step finds nothing
          | cons second rest => exact .inl (by simp [walk, Value.get, hleaf])

/-- A path finds the same in both forms, objects apart. -/
theorem found_flat (hunique : (Value.object d).UniqueKeys) (hplain : PlainKeys (.object d))
    (p : String) :
    found (flat d) p = (walk (.object d) (split '.' p)).filter (·.asObject.isNone) := by
  have hget (leaf : Value) : (flat d).get p = some leaf ↔
      (walk (.object d) (split '.' p)).filter (·.asObject.isNone) = some leaf := by
    rw [get_flat_eq_some_iff hunique hplain, Option.filter_eq_some_iff, Option.isNone_iff_eq_none]
  have hsame := Option.ext hget
  rw [found, ← hsame]
  cases hliteral : (flat d).get p with
  | none =>
      rw [Option.none_or]
      rcases walk_flat hunique hplain p with hwalk | hwalk
      · exact hwalk
      · exact hwalk.trans hliteral
  | some leaf => rfl

/-- Without dotted keys the literal key is the first step of the walk. -/
theorem found_of_plain {v : Value} (hplain : PlainKeys v) (p : String) :
    found v p = walk v (split '.' p) := by
  rw [found]
  cases hget : v.get p with
  | none => rw [Option.none_or]
  | some w =>
      cases v with
      | object entries =>
          have hdot := (hplain [] entries rfl (p, w) (Value.mem_of_get hget)).2
          have hsplit : split '.' p = [p] := by simp [split, List.splitOn_eq_singleton hdot]
          rw [hsplit, walk, hget]
          rfl
      | _ => simp [Value.get, Value.asObject] at hget

/-- What makes nothing of an object sees the same in both forms. -/
theorem bind_found_flat (hunique : (Value.object d).UniqueKeys) (hplain : PlainKeys (.object d))
    {β : Type} {f : Value → Option β} (hf : ∀ entries, f (.object entries) = none) (p : String) :
    (found (flat d) p).bind f = (found (.object d) p).bind f := by
  rw [found_flat hunique hplain, found_of_plain hplain]
  cases walk (.object d) (split '.' p) with
  | none => rfl
  | some v =>
      cases v with
      | object entries => simp [Value.asObject, hf]
      | _ => rfl

theorem getDataField_flat (hunique : (Value.object d).UniqueKeys) (hplain : PlainKeys (.object d))
    (p : String) : getDataField (flat d) p = ((found (flat d) p).map valueToStr).getD "" := by
  rw [getDataField, found]
  cases hliteral : (flat d).get p with
  | none => rfl
  | some leaf =>
      rw [Option.some_or, Option.map_some, Option.getD_some]
      split
      · rfl
      · next hempty =>
          rcases walk_flat hunique hplain p with hwalk | hwalk
          · rw [hwalk]
            exact (not_not.mp hempty).symm
          · rw [hwalk, hliteral]
            rfl

/-- The lookups do not depend on whether the decoder nested or flattened its output. -/
theorem lookup_flat (hunique : (Value.object d).UniqueKeys) (hplain : PlainKeys (.object d)) :
    (∀ paths, firstStr (flat d) paths = firstStr (.object d) paths ∧
      firstPort (flat d) paths = firstPort (.object d) paths ∧
      firstU64 (flat d) paths = firstU64 (.object d) paths) ∧
    ∀ path, getDataField (flat d) path = getDataField (.object d) path := by
  refine ⟨fun paths => ⟨?_, ?_, ?_⟩, fun path => ?_⟩
  · exact firstStr_congr fun path _ => bind_found_flat hunique hplain (fun _ => rfl) path
  · exact firstPort_congr fun path _ => bind_found_flat hunique hplain (fun _ => rfl) path
  · exact firstU64_congr fun path _ => bind_found_flat hunique hplain (fun _ => rfl) path
  · rw [getDataField_flat hunique hplain, getDataField_of_plain hplain, found_flat hunique hplain]
    cases walk (.object d) (split '.' path) with
    | none => rfl
    | some v => cases v <;> rfl

/-- A port under a nested key. -/
def nestedPort : Map := [("flow", .object [("port", .number (.posInt 443))])]

theorem lookup_flat_port : firstPort (flat nestedPort) ["flow.port"] = 443 ∧
    firstPort (flat nestedPort) ["flow.port"] = firstPort (.object nestedPort) ["flow.port"] :=
  ⟨by decide, ((lookup_flat
    (.object (by decide) <| List.forall_mem_singleton.mpr <|
      .object (by decide) <| List.forall_mem_singleton.mpr <| .number _)
    (.object (by decide) <| List.forall_mem_singleton.mpr <|
      .object (by decide) <| List.forall_mem_singleton.mpr <| .number _)).1 ["flow.port"]).2.1⟩

/-! ## The built-in and the custom lookup -/

/-- The scalars of the document are strings. -/
def StringLeaves (v : Value) : Prop :=
  ∀ address leaf, v.locate address = some leaf → IsLeaf leaf → ∃ s, leaf = .string s

/-- The literal key of a path holds no non-empty string, and the nested path does. -/
def Shadowed (v : Value) (p : String) : Prop :=
  (∃ w, v.get p = some w ∧ ∀ s, w = .string s → s = "") ∧ jpath v p ≠ ""

theorem StringLeaves.string (s : String) : StringLeaves (.string s) := by
  intro address leaf hlocate _
  cases address with
  | nil => exact ⟨s, (Option.some.inj hlocate).symm⟩
  | cons step rest => cases step <;> simp [Value.locate, Value.child] at hlocate

theorem StringLeaves.object {entries : Map} (h : ∀ entry ∈ entries, StringLeaves entry.2) :
    StringLeaves (.object entries) := by
  intro address leaf hlocate hleaf
  cases address with
  | nil =>
      obtain rfl := Option.some.inj hlocate
      exact hleaf.elim
  | cons step rest =>
      obtain ⟨below, hchild, hrest⟩ := Option.bind_eq_some_iff.mp hlocate
      cases step with
      | key k => exact h (k, below) (Value.mem_of_get hchild) rest leaf hrest hleaf
      | index i => simp [Value.child] at hchild

variable {v : Value}

/-- Among strings the two readings of a value agree. -/
theorem StringLeaves.valueToStr_eq (h : StringLeaves v) {address : Address} {w : Value}
    (hlocate : v.locate address = some w) : valueToStr w = w.asStr.getD "" := by
  cases w with
  | bool b =>
      obtain ⟨s, hs⟩ := h address _ hlocate trivial
      cases hs
  | number n =>
      obtain ⟨s, hs⟩ := h address _ hlocate trivial
      cases hs
  | _ => rfl

theorem StringLeaves.map_walk (h : StringLeaves v) (p : String) :
    ((walk v (split '.' p)).map valueToStr).getD "" = jpath v p := by
  rw [jpath]
  cases hwalk : walk v (split '.' p) with
  | none => rfl
  | some w => exact h.valueToStr_eq (walk_eq_locate v _ ▸ hwalk)

/-- The two lookups agree on a path unless an unusable literal key hides a nested
string. -/
theorem firstStr_eq_getDataField_iff (h : StringLeaves v) (p : String) :
    firstStr v [p] = getDataField v p ↔ ¬ Shadowed v p := by
  rw [getDataField, h.map_walk, firstStr, firstStr]
  cases hget : v.get p with
  | none =>
      have hvisible : ¬ Shadowed v p := fun hshadowed => by
        obtain ⟨⟨w, hw, -⟩, -⟩ := hshadowed
        rw [hget] at hw
        cases hw
      by_cases hnested : jpath v p = "" <;> simp [hvisible, hnested]
  | some w =>
      have hlocate : v.locate [.key p] = some w := by rw [← get_eq_locate, hget]
      have hshadowed : Shadowed v p ↔ w.asStr.getD "" = "" ∧ jpath v p ≠ "" := by
        rw [Shadowed, hget]
        refine and_congr_left fun _ => ?_
        cases w <;> simp [Value.asStr]
      rw [Option.map_some, Option.getD_some, h.valueToStr_eq hlocate, hshadowed]
      dsimp only
      -- the literal key hides the nested path only if that leads to a string
      by_cases hnested : jpath v p = ""
      · cases w.asStr with
        | none => simp [hnested]
        | some s => by_cases hs : s = "" <;> simp [hs, hnested]
      · have hne : ¬ "" = jpath v p := fun heq => hnested heq.symm
        cases w.asStr with
        | none => simp [hnested, hne]
        | some s => by_cases hs : s = "" <;> simp [hs, hnested, hne]

theorem firstStr_eq_getDataField_name :
    firstStr nestedValue ["edr.name"] = getDataField nestedValue "edr.name" ↔
      ¬ Shadowed nestedValue "edr.name" :=
  firstStr_eq_getDataField_iff
    (.object <| List.forall_mem_singleton.mpr <|
      .object <| List.forall_mem_singleton.mpr <| .string _) _

/-- An empty literal key beside a nested string. -/
def shadowedValue : Value :=
  .object [("user", .object [("name", .string "alice")]), ("user.name", .string "")]

/-- The built-in lookup stays with the empty literal key, the custom one finds the nested
string. -/
theorem firstStr_ne_getDataField : StringLeaves shadowedValue ∧
    firstStr shadowedValue ["user.name"] ≠ getDataField shadowedValue "user.name" :=
  ⟨.object <| List.forall_mem_cons.mpr
      ⟨.object <| List.forall_mem_singleton.mpr <| .string _,
        List.forall_mem_singleton.mpr <| .string _⟩,
    by decide⟩

end WazuhOcsf
