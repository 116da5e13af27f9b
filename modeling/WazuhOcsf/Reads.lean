import WazuhOcsf.Offers
import WazuhOcsf.Util.Unmapped
import WazuhOcsf.Discovery

/-!
# What a replaced string changes

One string of `data` is replaced.  The resolvers look at a document at fixed addresses
and never below a string, so a source either hands the new string on (`Source.Copies`) or
gives what it gave before (`eval_of_copies`, `eval_of_not_copies`); an entry of
`office365.Actor` may also stop or start to be a user (`actorTypeAddress`).  What the
program itself is made of are strings under known paths, so at a place that is reported
the program stays the same (`program_eq`).
-/

namespace WazuhOcsf

open Json Json.Value RustString Draft

/-! ## Strings under nested keys -/

theorem bind_get_eq (o : Option Value) (key : String) :
    (o.bind fun below => below.get key) = Map.get ((o.bind Value.asObject).getD []) key := by
  cases o with
  | none => rfl
  | some below => cases below <;> rfl

theorem strUnder_eq_bind (o : Option Value) (key : String) (rest : List String) :
    strUnder ((o.bind Value.asObject).getD []) (key :: rest) =
      ((o.bind fun v => v.locate ((key :: rest).map .key)).bind Value.asStr).getD "" := by
  induction rest generalizing o key with
  | nil =>
      have hlocate : (fun v : Value => v.locate ([key].map .key)) = fun v => v.get key :=
        funext fun v => (get_eq_locate v key).symm
      rw [hlocate, bind_get_eq]
      rfl
  | cons second rest ih =>
      have hlocate : (fun v : Value => v.locate ((key :: second :: rest).map .key)) =
          fun v => (v.get key).bind fun below => below.locate ((second :: rest).map .key) :=
        funext fun v => by rw [List.map_cons, locate_cons, child_key]
      rw [hlocate, ← Option.bind_assoc, bind_get_eq, ← ih]
      rfl

theorem strUnder_eq_locate (data : Value) {keys : List String} (hne : keys ≠ []) :
    strUnder (fieldsOf data) keys = ((data.locate (keys.map .key)).bind Value.asStr).getD "" := by
  obtain ⟨key, rest, rfl⟩ := List.exists_cons_of_ne_nil hne
  exact strUnder_eq_bind (some data) key rest

/-- The entries of an array are found below its address. -/
theorem getElem?_array (v : Value) (other : Address) (i : ℕ) :
    (((v.locate other).bind Value.asArray).getD [])[i]? = v.locate (other ++ [.index i]) := by
  rw [locate_append]
  cases v.locate other with
  | none => rfl
  | some w =>
      cases w with
      | array elements => exact (Option.bind_fun_some _).symm
      | _ => rfl

/-- The place of a key of an entry of `office365.Actor`. -/
def actorAddress (i : ℕ) (key : String) : Address :=
  [.key "office365", .key "Actor", .index i, .key key]

/-- The string under a key of an entry of `office365.Actor`. -/
def actorStr (data : Value) (i : ℕ) (key : String) : Option String :=
  (data.locate (actorAddress i key)).bind Value.asStr

theorem getElem?_actorsOf (data : Value) (i : ℕ) :
    (actorsOf data)[i]? = data.locate [.key "office365", .key "Actor", .index i] := by
  have hactor : Map.get (getSection (fieldsOf data) "office365") "Actor" =
      data.locate [.key "office365", .key "Actor"] := by
    have hsection : getSection (fieldsOf data) "office365" =
        ((data.get "office365").bind Value.asObject).getD [] := by
      cases data <;> rfl
    rw [hsection, ← bind_get_eq, get_eq_locate]
    exact (locate_append data [.key "office365"] [.key "Actor"] ▸
      congrArg _ (funext fun below => get_eq_locate below "Actor"))
  rw [actorsOf, hactor, getElem?_array]
  rfl

/-- What an entry of `office365.Actor` offers. -/
theorem eval_actor (data : Value) (i : ℕ) : (Source.actor i).eval data =
    if actorStr data i "Type" = some "5" then (actorStr data i "ID").getD "" else "" := by
  have hkey (key : String) : actorStr data i key =
      (actorsOf data)[i]?.bind fun item => (item.get key).bind Value.asStr := by
    have happend : actorAddress i key =
        [.key "office365", .key "Actor", .index i] ++ [.key key] := rfl
    rw [actorStr, getElem?_actorsOf, happend, locate_append, Option.bind_assoc]
    simp only [get_eq_locate]
  rw [Source.eval, hkey, hkey]
  cases (actorsOf data)[i]? with
  | none => rfl
  | some item => rfl

/-! ## The replaced string -/

/-- The source hands on the string at the address. -/
def Source.Copies (data : Value) (address : Address) : Source → Prop
  | .text _ => False
  | .at keys => keys ≠ [] ∧ keys.map .key = address
  | .path p => dotted p = address
  | .actor i => actorAddress i "ID" = address ∧ actorStr data i "Type" = some "5"
  | .mapped field =>
      dotted field = address ∧ ((data.get field).map valueToStr).getD "" = ""

instance {data : Value} {address : Address} : DecidablePred (Source.Copies data address)
  | .text _ => inferInstanceAs (Decidable False)
  | .at keys => inferInstanceAs (Decidable (keys ≠ [] ∧ keys.map .key = address))
  | .path p => inferInstanceAs (Decidable (dotted p = address))
  | .actor i => inferInstanceAs
      (Decidable (actorAddress i "ID" = address ∧ actorStr data i "Type" = some "5"))
  | .mapped field => inferInstanceAs
      (Decidable (dotted field = address ∧ ((data.get field).map valueToStr).getD "" = ""))

section

variable {address : Address} {v v' : Value}

theorem strAt_eq (h : Varies address v v') {other : Address} (hne : other ≠ address) :
    (v'.locate other).bind Value.asStr = (v.locate other).bind Value.asStr :=
  h.bind_eq hne asStr_outline

theorem strUnder_eq (h : Varies address v v') {keys : List String} (hne : keys.map .key ≠ address) :
    strUnder (fieldsOf v') keys = strUnder (fieldsOf v) keys := by
  cases keys with
  | nil => rfl
  | cons key rest =>
      rw [strUnder_eq_locate v' (List.cons_ne_nil key rest),
        strUnder_eq_locate v (List.cons_ne_nil key rest), strAt_eq h hne]

theorem jpath_eq (h : Varies address v v') {path : String} (hne : dotted path ≠ address) :
    jpath v' path = jpath v path := by
  rw [jpath_eq_locate, jpath_eq_locate, strAt_eq h hne]

theorem map_valueToStr_eq (h : Varies address v v') {other : Address} (hne : other ≠ address) :
    (v'.locate other).map valueToStr = (v.locate other).map valueToStr := by
  have hbind := h.bind_eq hne (f := some ∘ valueToStr) fun w => congrArg some (valueToStr_outline w)
  simpa [Option.map_eq_bind] using hbind

/-- The new string is handed on. -/
theorem eval_of_copies {source : Source} (h : Varies address v v') {t : String}
    (ht : v'.locate address = some (.string t)) (hcopies : source.Copies v address)
    (hmapped : ∀ field, source = .mapped field → [.key field] ≠ address) :
    source.eval v' = t := by
  cases source with
  | text _ => exact hcopies.elim
  | «at» keys =>
      rw [Source.eval, strUnder_eq_locate v' hcopies.1, hcopies.2, ht]
      rfl
  | path p =>
      have hdotted : dotted p = address := hcopies
      rw [Source.eval, jpath_eq_locate, hdotted, ht]
      rfl
  | actor i =>
      have htype : actorAddress i "Type" ≠ address := by
        rw [← hcopies.1]
        simp [actorAddress]
      rw [eval_actor, actorStr, strAt_eq h htype, ← actorStr, if_pos hcopies.2, actorStr,
        hcopies.1, ht]
      rfl
  | mapped field =>
      have hliteral : (v'.get field).map valueToStr = (v.get field).map valueToStr := by
        rw [get_eq_locate, get_eq_locate, map_valueToStr_eq h (hmapped field rfl)]
      have hwalk : walk v' (split '.' field) = some (.string t) := by
        rw [walk_eq_locate, ← ht, ← hcopies.1, dotted]
      rw [Source.eval, getDataField, hliteral, hcopies.2, hwalk]
      rfl

/-- Every other source gives what it gave. -/
theorem eval_of_not_copies {source : Source} (h : Varies address v v')
    (hcopies : ¬ source.Copies v address)
    (hmapped : ∀ field, source = .mapped field → [.key field] ≠ address)
    (hactor : ∀ i, source = .actor i → actorAddress i "Type" ≠ address) :
    source.eval v' = source.eval v := by
  cases source with
  | text _ => rfl
  | «at» keys =>
      by_cases hne : keys = []
      · rw [hne]
        rfl
      · exact strUnder_eq h fun heq => hcopies ⟨hne, heq⟩
  | path p => exact jpath_eq h hcopies
  | actor i =>
      rw [eval_actor, eval_actor, actorStr, strAt_eq h (hactor i rfl), ← actorStr]
      by_cases htype : actorStr v i "Type" = some "5"
      · rw [if_pos htype, if_pos htype, actorStr, strAt_eq h fun heq => hcopies ⟨heq, htype⟩,
          ← actorStr]
      · rw [if_neg htype, if_neg htype]
  | mapped field =>
      have hliteral : (v'.get field).map valueToStr = (v.get field).map valueToStr := by
        rw [get_eq_locate, get_eq_locate, map_valueToStr_eq h (hmapped field rfl)]
      rw [Source.eval, Source.eval, getDataField, getDataField, hliteral]
      by_cases hempty : ((v.get field).map valueToStr).getD "" = ""
      · have hdotted : (split '.' field).map .key ≠ address := fun heq => hcopies ⟨heq, hempty⟩
        rw [walk_eq_locate, walk_eq_locate, map_valueToStr_eq h hdotted]
      · rw [if_pos hempty, if_pos hempty]

end

/-! ## Known paths -/

/-- The address is not one the path is resolved by. -/
def Spares (address : Address) (path : String) : Prop :=
  [.key path] ≠ address ∧ dotted path ≠ address

/-- The path starts with a character that is no dot. -/
def StartsPlain (path : String) : Prop := ∃ c rest, path = .ofList (c :: rest) ∧ c ≠ '.'

/-- No known path starts with a dot. -/
theorem startsPlain_knownLists : ∀ l ∈ knownLists, ∀ path ∈ l, StartsPlain path := by
  repeat'
    first
    | exact ⟨_, _, rfl, by decide⟩
    | exact List.forall_mem_nil _
    | refine List.forall_mem_cons.mpr ⟨?_, ?_⟩

/-- A path with a first segment is the path of its own address. -/
theorem pathOf_dotted {path : String} (hplain : StartsPlain path) :
    pathOf (dotted path) = path := by
  obtain ⟨c, chars, rfl, hc⟩ := hplain
  have hsplit : ['.'].intercalate ((split '.' (.ofList (c :: chars))).map String.toList) =
      c :: chars := by
    have hchars : (split '.' (.ofList (c :: chars))).map String.toList =
        (c :: chars).splitOn '.' := by
      simp [split, Function.comp_def]
    rw [hchars, List.intercalate_splitOn]
  have hfirst : ∀ first ∈ (split '.' (.ofList (c :: chars))).head?, first ≠ "" := by
    intro first hmem hempty
    obtain ⟨head, tail, htail⟩ := List.exists_cons_of_ne_nil (List.splitOn_ne_nil '.' chars)
    have hcons : (c :: chars).splitOn '.' = (c :: head) :: tail := by
      rw [List.splitOn, List.splitOnP_cons_eq_if_modifyHead, if_neg (by simpa using hc),
        ← List.splitOn, htail]
      rfl
    rw [split, String.toList_ofList, hcons, List.map_cons, List.head?_cons, Option.mem_some_iff] at hmem
    rw [← hmem, ← String.toList_inj, String.toList_ofList] at hempty
    exact List.cons_ne_nil _ _ hempty
  have hsegments : (dotted (.ofList (c :: chars))).map segment = split '.' (.ofList (c :: chars)) := by
    rw [dotted, List.map_map]
    exact List.map_id _
  rw [pathOf, pathFrom, hsegments]
  cases hkeys : split '.' (.ofList (c :: chars)) with
  | nil => exact absurd hkeys (by simp [split, List.splitOn_ne_nil])
  | cons first rest =>
      rw [hkeys] at hsplit hfirst
      rw [List.foldl_cons, childPath, if_pos rfl, ← String.toList_inj,
        toList_foldl_childPath (hfirst first rfl), ← List.map_cons, hsplit, String.toList_ofList]

/-- A known path is not resolved at a place that is reported. -/
theorem spares_of_known {custom : CustomMappings} {address : Address}
    (hreportable : Reportable custom (pathOf address)) {path : String} (hpath : path ∈ knownPaths) :
    Spares address path := by
  refine ⟨fun heq => ?_, fun heq => ?_⟩
  · have hpathOf : pathOf address = path := heq ▸ (if_pos rfl : childPath "" path = path)
    exact hreportable.1 (hpathOf ▸ hpath)
  · obtain ⟨l, hl, hmem⟩ := List.mem_flatten.mp hpath
    have hpathOf : pathOf address = path :=
      heq ▸ pathOf_dotted (startsPlain_knownLists l hl path hmem)
    exact hreportable.1 (hpathOf ▸ hpath)

/-- A mapped path is not a top-level key at a place that is reported. -/
theorem key_ne_of_mapped {custom : CustomMappings} {address : Address}
    (hreportable : Reportable custom (pathOf address)) {field : String}
    (hfield : field ∈ custom.fieldMap.keys) : [.key field] ≠ address := fun heq => by
  have hpathOf : pathOf address = field := heq ▸ (if_pos rfl : childPath "" field = field)
  exact hreportable.2.1 (hpathOf ▸ hfield)

section

variable {address : Address} {v v' : Value}

theorem getDataField_eq (h : Varies address v v') {path : String} (hspares : Spares address path) :
    getDataField v' path = getDataField v path := by
  simp only [getDataField, get_eq_locate, walk_eq_locate, map_valueToStr_eq h hspares.1]
  rw [map_valueToStr_eq h (show (split '.' path).map Step.key ≠ address from hspares.2)]

theorem place_ne {path : String} (hspares : Spares address path) (v : Value) :
    place v path ≠ address := by
  rw [place]
  split
  · exact hspares.1
  · exact hspares.2

theorem bind_found_eq (h : Varies address v v') {path : String} (hspares : Spares address path)
    {β : Type} {f : Value → Option β} (hf : ∀ w : Value, f w.outline = f w) :
    (found v' path).bind f = (found v path).bind f := by
  rw [found_eq_locate, found_eq_locate, place_congr h.isSome_locate]
  exact h.bind_eq (place_ne hspares v) hf

theorem firstStr_eq (h : Varies address v v') {paths : List String}
    (hspares : ∀ path ∈ paths, Spares address path) : firstStr v' paths = firstStr v paths :=
  firstStr_congr fun path hpath => bind_found_eq h (hspares path hpath) asStr_outline

theorem firstPort_eq (h : Varies address v v') {paths : List String}
    (hspares : ∀ path ∈ paths, Spares address path) : firstPort v' paths = firstPort v paths :=
  firstPort_congr fun path hpath => bind_found_eq h (hspares path hpath) portOf_outline

theorem firstU64_eq (h : Varies address v v') {paths : List String}
    (hspares : ∀ path ∈ paths, Spares address path) : firstU64 v' paths = firstU64 v paths :=
  firstU64_congr fun path hpath => bind_found_eq h (hspares path hpath) counterOf_outline

theorem paths_subset_knownPaths (c : StrCol) : c.paths ⊆ knownPaths := by
  refine fun path hpath => List.mem_flatten_of_mem ?_ hpath
  cases c <;> simp [StrCol.paths, knownLists]

/-- The typed columns depend on the known paths and on nothing else. -/
theorem find_eq (h : Varies address v v') (hspares : ∀ path ∈ knownPaths, Spares address path) :
    Columns.find v' = Columns.find v := by
  have hport : ∀ paths ∈ knownLists, firstPort v' paths = firstPort v paths := fun paths hmem =>
    firstPort_eq h fun path hpath => hspares path (List.mem_flatten_of_mem hmem hpath)
  have hcounter : ∀ paths ∈ knownLists, firstU64 v' paths = firstU64 v paths := fun paths hmem =>
    firstU64_eq h fun path hpath => hspares path (List.mem_flatten_of_mem hmem hpath)
  refine Columns.ext (funext fun c => ?_) (funext fun c => ?_)
  · exact firstStr_eq h fun path hpath => hspares path (paths_subset_knownPaths c hpath)
  · cases c <;> simp only [Columns.find, NumCol.find] <;>
      first
      | rw [hport]; simp [knownLists]
      | rw [hcounter]; simp [knownLists]

end

/-! ## The program -/

/-- The paths of `data` the program itself is made of. -/
def programPaths : List String :=
  ["vulnerability.cve", "vulnerability.severity", "vulnerability.cvss.cvss3.base_score",
   "vulnerability.score.base", "win.system.processID", "win.eventdata.subjectUserName",
   "win.eventdata.subjectUserSid", "win.eventdata.targetUserName", "win.eventdata.targetUserSid",
   "sca.check.title"]

/-- The strings under nested keys it is made of. -/
def programKeys : List (List String) :=
  [["title"], ["aws", "errorMessage"], ["aws", "source"], ["aws", "error_code"],
   ["ms-graph", "detectionSource"], ["ms-graph", "serviceSource"]]

theorem programPaths_known : ∀ path ∈ programPaths, path ∈ knownPaths := by decide +kernel

theorem programKeys_known : ∀ keys ∈ programKeys, pathOf (keys.map .key) ∈ knownPaths := by
  decide +kernel

section

variable {address : Address} {v v' : Value} {custom : CustomMappings}

/-- Whether there is an object, and how long an array is, no string decides. -/
theorem isSome_asObject_eq (h : Varies address v v') (other : Address) :
    ((v'.locate other).bind Value.asObject).isSome =
      ((v.locate other).bind Value.asObject).isSome := by
  have hkind : ∀ o : Option Value, (o.bind Value.asObject).isSome =
      (o.bind fun w => w.asObject.map fun _ => ()).isSome := by
    rintro (_ | w)
    · rfl
    · cases w <;> rfl
  rw [hkind, hkind, h.bind_eq_of_string _ (fun w => by cases w <;> rfl) (fun _ => rfl)]

theorem length_actorsOf_eq (h : Varies address v v') :
    (actorsOf v').length = (actorsOf v).length := by
  have hsome (i : ℕ) : (actorsOf v')[i]?.isSome = (actorsOf v)[i]?.isSome := by
    rw [getElem?_actorsOf, getElem?_actorsOf, h.isSome_locate]
  have hlt (i : ℕ) : i < (actorsOf v').length ↔ i < (actorsOf v).length := by
    simpa using congrArg (· = true) (hsome i)
  exact le_antisymm (not_lt.mp fun h => absurd ((hlt _).mp h) (lt_irrefl _))
    (not_lt.mp fun h => absurd ((hlt _).mpr h) (lt_irrefl _))

/-- At a place that is reported a string is no part of the program. -/
theorem program_eq (h : Varies address v v') (hreportable : Reportable custom (pathOf address))
    (syscheck predecoder : Map) : program v' syscheck predecoder = program v syscheck predecoder := by
  have hpaths : ∀ path ∈ programPaths, jpath v' path = jpath v path ∧
      getDataField v' path = getDataField v path := fun path hpath =>
    have hspares := spares_of_known hreportable (programPaths_known path hpath)
    ⟨jpath_eq h hspares.2, getDataField_eq h hspares⟩
  have hkeys : ∀ keys ∈ programKeys, strUnder (fieldsOf v') keys = strUnder (fieldsOf v) keys :=
    fun keys hkeys => strUnder_eq h fun heq => hreportable.1 (heq ▸ programKeys_known keys hkeys)
  simp only [programPaths, List.forall_mem_cons] at hpaths
  simp only [programKeys, List.forall_mem_cons] at hkeys
  have htitle : getStr (fieldsOf v') "title" = getStr (fieldsOf v) "title" := hkeys.1
  have hrating : awsFindingRating v' = awsFindingRating v := by
    have hseverity (w : Value) : ((sectionUnder (fieldsOf w) ["aws"]).get "severity").bind
        Value.asObject = (w.locate [.key "aws", .key "severity"]).bind Value.asObject := by
      have hsection : sectionUnder (fieldsOf w) ["aws"] =
          ((w.get "aws").bind Value.asObject).getD [] := by
        cases w <;> rfl
      rw [hsection, ← bind_get_eq, get_eq_locate]
      refine congrArg (Option.bind · Value.asObject) ?_
      exact (locate_append w [.key "aws"] [.key "severity"] ▸
        congrArg _ (funext fun below => get_eq_locate below "severity"))
    funext source
    rw [awsFindingRating, awsFindingRating, hseverity, hseverity, isSome_asObject_eq h]
  have hsource : awsSourceProgram v' = awsSourceProgram v := by
    simp only [awsSourceProgram, awsFindingProgram, awsS3Program, hkeys, hrating]
  simp only [program, modulesProgram, vulnerabilityProgram, windowsProgram, complianceProgram,
    contextProgram, awsCommonProgram, office365Program, msGraphProgram, hpaths, hkeys, hsource,
    htitle, length_actorsOf_eq h]

end

end WazuhOcsf
