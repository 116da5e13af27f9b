import WazuhOcsf.Discovery

/-!
# The leaves of a document

`leaves` lists the leaves of a document with their addresses, each once
(`mem_leaves_iff`, `nodup_leaves`).  Discovery lists the same leaves in the same order
and writes each address as a path (`flattenToPaths_eq`).  No path is lost at the root,
where the empty prefix means that there is no path yet, as long as no key is empty; and
no two leaves get one path, as long as no key has a dot in it (`pathOf_inj`): the keys
of an object may look like indices, but an object has no indices and an array no keys.
-/

namespace WazuhOcsf

open Json RustString

/-! ## Leaves and their addresses -/

/-- A leaf found one step below. -/
def prependStep (step : Step) (leaf : Address × Value) : Address × Value := (step :: leaf.1, leaf.2)

mutual

/-- Every leaf with its address, in document order. -/
def leaves : Value → List (Address × Value)
  | .object entries => entryLeaves entries
  | .array elements => elementLeaves 0 elements
  | .null => []
  | leaf => [([], leaf)]

/-- The leaves of the fields of an object. -/
def entryLeaves : List (String × Value) → List (Address × Value)
  | [] => []
  | (key, v) :: rest => (leaves v).map (prependStep (.key key)) ++ entryLeaves rest

/-- The leaves of the elements of an array, counted from `i`. -/
def elementLeaves (i : ℕ) : List Value → List (Address × Value)
  | [] => []
  | v :: rest => (leaves v).map (prependStep (.index i)) ++ elementLeaves (i + 1) rest

end

theorem entryLeaves_eq (entries : Map) : entryLeaves entries =
    entries.flatMap fun entry => (leaves entry.2).map (prependStep (.key entry.1)) := by
  induction entries with
  | nil => rfl
  | cons entry rest ih => rw [entryLeaves, List.flatMap_cons, ih]

theorem elementLeaves_eq (i : ℕ) (elements : List Value) : elementLeaves i elements =
    (elements.zipIdx i).flatMap fun element =>
      (leaves element.1).map (prependStep (.index element.2)) := by
  induction elements generalizing i with
  | nil => rfl
  | cons v rest ih => rw [elementLeaves, List.zipIdx_cons, List.flatMap_cons, ih]

theorem leaves_of_leaf {v : Value} (hleaf : IsLeaf v) : leaves v = [([], v)] := by
  cases v with
  | null | array _ | object _ => exact hleaf.elim
  | _ => rfl

/-- The leaves of a container, child by child. -/
theorem leaves_of_container {v : Value} (hcontainer : ¬ IsLeaf v) :
    leaves v = v.children.flatMap fun child => (leaves child.2).map (prependStep child.1) := by
  cases v with
  | null => rfl
  | array elements => rw [leaves, elementLeaves_eq, Value.children, List.flatMap_map]
  | object entries => rw [leaves, entryLeaves_eq, Value.children, List.flatMap_map]
  | _ => exact absurd trivial hcontainer

/-- The leaves are where the addresses lead. -/
theorem mem_leaves_iff {v : Value} (hunique : v.UniqueKeys) {address : Address} {leaf : Value} :
    (address, leaf) ∈ leaves v ↔ v.locate address = some leaf ∧ IsLeaf leaf := by
  induction v using Value.induct_children generalizing address with
  | h v ih =>
      by_cases hv : IsLeaf v
      · rw [leaves_of_leaf hv, List.mem_singleton, Prod.mk.injEq, locate_of_leaf hv]
        exact ⟨fun h => ⟨h, h.2 ▸ hv⟩, fun h => h.1⟩
      · rw [leaves_of_container hv, List.mem_flatMap]
        constructor
        · rintro ⟨⟨step, v'⟩, hmem, hleaf⟩
          obtain ⟨⟨rest, leaf'⟩, hrest, heq⟩ := List.mem_map.mp hleaf
          obtain ⟨rfl, rfl⟩ := Prod.mk.inj heq
          have hchild := (Value.mem_children_iff hunique).mp hmem
          rw [ih _ hmem (hunique.child hchild)] at hrest
          rw [Value.locate_cons, hchild, Option.bind_some]
          exact hrest
        · rintro ⟨hlocate, hleaf⟩
          cases address with
          | nil => exact absurd (Option.some.inj hlocate ▸ hleaf) hv
          | cons step rest =>
              obtain ⟨v', hchild, hrest⟩ := Option.bind_eq_some_iff.mp hlocate
              have hmem := (Value.mem_children_iff hunique).mpr hchild
              refine ⟨_, hmem, List.mem_map.mpr ⟨(rest, leaf), ?_, rfl⟩⟩
              rw [ih _ hmem (hunique.child hchild)]
              exact ⟨hrest, hleaf⟩

theorem addresses_of_container {v : Value} (hcontainer : ¬ IsLeaf v) :
    (leaves v).map Prod.fst = v.children.flatMap fun child =>
      ((leaves child.2).map Prod.fst).map (child.1 :: ·) := by
  rw [leaves_of_container hcontainer, List.map_flatMap]
  refine List.flatMap_congr fun child _ => ?_
  rw [List.map_map, List.map_map]
  rfl

/-- An address is listed once. -/
theorem nodup_leaves {v : Value} (hunique : v.UniqueKeys) : ((leaves v).map Prod.fst).Nodup := by
  induction v using Value.induct_children with
  | h v ih =>
      by_cases hv : IsLeaf v
      · rw [leaves_of_leaf hv]
        exact List.nodup_singleton _
      · rw [addresses_of_container hv, List.nodup_flatMap]
        constructor
        · intro child hchild
          have hbelow := (Value.mem_children_iff hunique).mp hchild
          apply List.Nodup.map List.cons_injective
          exact ih child hchild (hunique.child hbelow)
        · -- the addresses below two children part at the first step
          have hsteps := List.pairwise_map.mp (Value.nodup_children hunique)
          refine hsteps.imp fun hne address hfirst hsecond => ?_
          obtain ⟨rest, -, rfl⟩ := List.mem_map.mp hfirst
          obtain ⟨rest', -, heq⟩ := List.mem_map.mp hsecond
          exact hne (List.cons.inj heq).1.symm

/-! ## Their paths -/

/-- Below a path every leaf has one. -/
theorem flattenToPaths_of_ne {v : Value} {path : String} (hpath : path ≠ "") :
    flattenToPaths path v = (leaves v).map fun l => (pathFrom path l.1, valueToStr l.2) := by
  induction v using Value.induct_children generalizing path with
  | h v ih =>
      by_cases hv : IsLeaf v
      · rw [leaves_of_leaf hv, flattenToPaths_of_leaf hv, if_neg hpath]
        rfl
      · rw [flattenToPaths_of_container hv, leaves_of_container hv, List.map_flatMap]
        refine List.flatMap_congr fun child hchild => ?_
        rw [ih child hchild (childPath_ne hpath _), List.map_map]
        rfl

/-- Discovery leaves out the leaves whose path is empty, and no others. -/
theorem map_fst_flattenToPaths (v : Value) (path : String) :
    (flattenToPaths path v).map Prod.fst =
      ((leaves v).map fun l => pathFrom path l.1).filter (· ≠ "") := by
  induction v using Value.induct_children generalizing path with
  | h v ih =>
      by_cases hv : IsLeaf v
      · rw [leaves_of_leaf hv, flattenToPaths_of_leaf hv]
        by_cases hpath : path = "" <;> simp [hpath, pathFrom]
      · rw [flattenToPaths_of_container hv, leaves_of_container hv, List.map_flatMap,
          List.map_flatMap, List.filter_flatMap]
        refine List.flatMap_congr fun child hchild => ?_
        rw [ih child hchild, List.map_map]
        rfl

/-- The path of an address is its segments joined with dots. -/
theorem pathOf_eq_intercalate {address : Address} (hne : ∀ name ∈ address.map segment, name ≠ "") :
    pathOf address = ".".intercalate (address.map segment) := by
  cases address with
  | nil => rfl
  | cons step rest =>
      rw [List.map_cons, List.forall_mem_cons] at hne
      rw [← String.toList_inj, pathOf, pathFrom, List.map_cons, List.foldl_cons, childPath,
        if_pos rfl, toList_foldl_childPath hne.1, String.toList_intercalate, List.map_cons]
      rfl

/-- Of an object or an array, every leaf is discovered, in document order. -/
theorem flattenToPaths_eq {v : Value} (hunique : v.UniqueKeys) (hplain : PlainKeys v)
    (hroot : ¬ IsLeaf v) :
    flattenToPaths "" v = (leaves v).map fun l => (pathOf l.1, valueToStr l.2) := by
  rw [flattenToPaths_of_container hroot, leaves_of_container hroot, List.map_flatMap]
  refine List.flatMap_congr fun child hchild => ?_
  have hlocate : (v.locate [child.1]).isSome := by
    rw [Value.locate_cons, (Value.mem_children_iff hunique).mp hchild]
    rfl
  have hname : segment child.1 ≠ "" := (hplain.segment hlocate _ (by simp)).1
  rw [childPath, if_pos rfl, flattenToPaths_of_ne hname, List.map_map]
  rfl

/-- One value has no two children whose steps look alike. -/
theorem step_inj {v w w' : Value} {step step' : Step} (h : v.child step = some w)
    (h' : v.child step' = some w') (hsegment : segment step = segment step') : step = step' := by
  cases v with
  | object entries =>
      cases step with
      | index i => simp [Value.child] at h
      | key k =>
          cases step' with
          | index i => simp [Value.child] at h'
          | key k' => exact congrArg _ hsegment
  | array elements =>
      cases step with
      | key k => simp [Value.child] at h
      | index i =>
          cases step' with
          | key k => simp [Value.child] at h'
          | index i' => exact congrArg _ (repr_injective hsegment)
  | _ => cases step <;> simp [Value.child] at h

/-- In one document the segments of an address say which address it is. -/
theorem address_inj {v : Value} {address address' : Address} (h : (v.locate address).isSome)
    (h' : (v.locate address').isSome) (hsegments : address.map segment = address'.map segment) :
    address = address' := by
  induction address generalizing v address' with
  | nil => exact (List.map_eq_nil_iff.mp hsegments.symm).symm
  | cons step rest ih =>
      cases address' with
      | nil => simp at hsegments
      | cons step' rest' =>
          rw [Value.locate_cons, Option.isSome_bind, Option.any_eq_true] at h h'
          obtain ⟨w, hchild, hrest⟩ := h
          obtain ⟨w', hchild', hrest'⟩ := h'
          rw [List.map_cons, List.map_cons, List.cons.injEq] at hsegments
          obtain rfl := step_inj hchild hchild' hsegments.1
          obtain rfl := Option.some.inj (hchild.symm.trans hchild')
          rw [ih hrest hrest' hsegments.2]

/-- No two addresses of a document have one path. -/
theorem pathOf_inj {v : Value} (hplain : PlainKeys v) {address address' : Address}
    (h : (v.locate address).isSome) (h' : (v.locate address').isSome) (hne : address ≠ [])
    (hne' : address' ≠ []) (hpath : pathOf address = pathOf address') : address = address' := by
  apply address_inj h h'
  rw [← split_pathOf hne (hplain.segment h), hpath, split_pathOf hne' (hplain.segment h')]

/-- Discovery of an object or an array: each leaf gives one pair, its path is the keys and
indices that lead to it, and no two leaves share a path. -/
theorem flatten_complete {v : Value} (hunique : v.UniqueKeys) (hplain : PlainKeys v)
    (hroot : ¬ IsLeaf v) :
    flattenToPaths "" v =
        (leaves v).map (fun l => (".".intercalate (l.1.map segment), valueToStr l.2)) ∧
      (∀ address leaf, (address, leaf) ∈ leaves v ↔ v.locate address = some leaf ∧ IsLeaf leaf) ∧
      ((leaves v).map Prod.fst).Nodup ∧ ((flattenToPaths "" v).map Prod.fst).Nodup := by
  have hlocate : ∀ l ∈ leaves v, (v.locate l.1).isSome := by
    intro l hl
    rw [((mem_leaves_iff hunique).mp hl).1]
    rfl
  have hne : ∀ l ∈ leaves v, l.1 ≠ [] := by
    intro l hl hnil
    obtain ⟨hroot', hleaf⟩ := (mem_leaves_iff hunique).mp hl
    rw [hnil] at hroot'
    exact hroot (Option.some.inj hroot' ▸ hleaf)
  have hpaths := flattenToPaths_eq hunique hplain hroot
  refine ⟨?_, fun _ _ => mem_leaves_iff hunique, nodup_leaves hunique, ?_⟩
  · rw [hpaths]
    refine List.map_congr_left fun l hl => ?_
    rw [pathOf_eq_intercalate fun name hname => (hplain.segment (hlocate l hl) name hname).1]
  · have haddresses : ((flattenToPaths "" v).map Prod.fst) =
        ((leaves v).map Prod.fst).map pathOf := by
      rw [hpaths, List.map_map, List.map_map]
      rfl
    rw [haddresses]
    refine (nodup_leaves hunique).map_on fun address hmem address' hmem' hpath => ?_
    obtain ⟨l, hl, rfl⟩ := List.mem_map.mp hmem
    obtain ⟨l', hl', rfl⟩ := List.mem_map.mp hmem'
    exact pathOf_inj hplain (hlocate l hl) (hlocate l' hl') (hne l hl) (hne l' hl') hpath

/-- A key that looks like an index beside an array. -/
def mixedValue : Value :=
  .object [("0", .object [("port", .number (.posInt 443))]),
    ("tags", .array [.string "web", .array [.string "db"]])]

theorem flatten_complete_mixed :
    flattenToPaths "" mixedValue = [("0.port", "443"), ("tags.0", "web"), ("tags.1.0", "db")] ∧
      flattenToPaths "" mixedValue = (leaves mixedValue).map
        (fun l => (".".intercalate (l.1.map segment), valueToStr l.2)) ∧
      ((leaves mixedValue).map Prod.fst).Nodup ∧
      ((flattenToPaths "" mixedValue).map Prod.fst).Nodup := by
  have hobjects : ∀ P : Map → Prop, P [("port", .number (.posInt 443))] →
      P [("0", .object [("port", .number (.posInt 443))]),
        ("tags", .array [.string "web", .array [.string "db"]])] → mixedValue.EveryObject P := by
    intro P hinner houter
    refine .object houter <| List.forall_mem_cons.mpr ⟨?_, List.forall_mem_singleton.mpr ?_⟩
    · exact .object hinner <| List.forall_mem_singleton.mpr <| .number _
    · exact .array <| List.forall_mem_cons.mpr ⟨.string _, List.forall_mem_singleton.mpr <|
        .array <| List.forall_mem_singleton.mpr <| .string _⟩
  obtain ⟨hpairs, -, haddresses, hpaths⟩ := flatten_complete (v := mixedValue)
    (hobjects _ (by decide) (by decide)) (hobjects _ (by decide) (by decide)) id
  exact ⟨by decide, hpairs, haddresses, hpaths⟩

end WazuhOcsf
