import WazuhOcsf.Output.Db
import WazuhOcsf.Precedence

/-!
# A mapped value can be read back

Three places decide where a mapped value ends up: the overlay's match, the list
of standard targets, and the sanitiser in front of the DDL.  The first two agree
(`mem_standardOcsfTargets_iff`).  The sanitiser does not agree with the overlay,
which stores a value under the target as it is: a target the sanitiser changes,
or one that names a column of the base table, gets no column to read it from
(`mappedValueReadable_iff`).
-/

namespace WazuhOcsf

open Json RustString Collisions

/-! ## Targets -/

/-- The standard targets are the arms of the overlay. -/
theorem mem_standardOcsfTargets_iff (target : String) :
    target ∈ standardOcsfTargets ↔ (typedTargets.lookup target).isSome := by
  have hsame : ∀ t, t ∈ standardOcsfTargets ↔ t ∈ typedTargets.map Prod.fst := fun t =>
    ⟨fun h => (by decide : standardOcsfTargets ⊆ typedTargets.map Prod.fst) h,
      fun h => (by decide : typedTargets.map Prod.fst ⊆ standardOcsfTargets) h⟩
  rw [hsame, List.lookup_isSome_iff, List.mem_map]
  exact exists_congr fun entry => and_congr_right fun _ => by rw [beq_iff_eq, eq_comm]

theorem Target.of_extension {target : String} (h : target ∉ standardOcsfTargets) :
    Target.of target = .extension target := by
  rw [mem_standardOcsfTargets_iff, Option.not_isSome_iff_eq_none] at h
  rw [Target.of, h, Option.getD_none]

theorem Target.mem_typedTargets {target : String} (h : target ∈ standardOcsfTargets) :
    (target, Target.of target) ∈ typedTargets := by
  rw [mem_standardOcsfTargets_iff, Option.isSome_iff_exists] at h
  obtain ⟨place, hplace⟩ := h
  obtain ⟨l₁, l₂, hsplit, -⟩ := List.lookup_eq_some_iff.mp hplace
  rw [Target.of, hplace, Option.getD_some, hsplit]
  simp

/-- Standard targets are typed columns. -/
theorem Target.of_ne_extension {target : String} (h : target ∈ standardOcsfTargets)
    (key : String) : Target.of target ≠ .extension key := by
  have hplaces : ∀ x ∈ typedTargets, x.2 ≠ .extension key := by simp [typedTargets]
  exact hplaces _ (mem_typedTargets h)

theorem Target.of_eq_extension_iff (target key : String) :
    Target.of target = .extension key ↔ target ∉ standardOcsfTargets ∧ target = key := by
  constructor
  · intro h
    have hstandard : target ∉ standardOcsfTargets := fun hmem => of_ne_extension hmem key h
    rw [of_extension hstandard, Target.extension.injEq] at h
    exact ⟨hstandard, h⟩
  · rintro ⟨hstandard, rfl⟩
    exact of_extension hstandard

/-- Two targets are never stored in one place. -/
theorem Target.of_injective {a b : String} (h : Target.of a = Target.of b) : a = b := by
  have htyped : ∀ x ∈ typedTargets, ∀ y ∈ typedTargets, x.2 = y.2 → x.1 = y.1 := by decide
  by_cases ha : a ∈ standardOcsfTargets
  · by_cases hb : b ∈ standardOcsfTargets
    · exact htyped _ (mem_typedTargets ha) _ (mem_typedTargets hb) h
    · exact absurd (h.trans (of_extension hb)) (of_ne_extension ha b)
  · rw [of_extension ha, eq_comm, of_eq_extension_iff] at h
    exact h.2.symm

/-! ## Schemas -/

theorem Schema.lookup_addColumn (schema : Schema) (name other : String) :
    List.lookup other (schema.addColumn name) =
      (List.lookup other schema).or (if other = name then some (.materialized name) else none) := by
  unfold addColumn
  split
  · next hmem =>
      by_cases hname : other = name
      · subst hname
        obtain ⟨column, hcolumn, hfst⟩ := List.mem_map.mp hmem
        have hsome : (List.lookup other schema).isSome :=
          List.lookup_isSome_iff.mpr ⟨column, hcolumn, by simp [hfst]⟩
        obtain ⟨source, hsource⟩ := Option.isSome_iff_exists.mp hsome
        simp [hsource]
      · simp [hname]
  · rw [List.lookup_append, List.lookup_cons]
    by_cases hname : other = name
    · simp [hname]
    · simp [beq_eq_false_iff_ne.mpr hname, hname]

/-- Adding targets leaves every column there is and adds the ones that are not. -/
theorem Schema.lookup_addTargets (schema : Schema) (targets : List String) {name : String}
    (hname : name ≠ "") :
    List.lookup name (targets.foldl addTarget schema) =
      (List.lookup name schema).or
        (if name ∈ targets.map safeName then some (.materialized name) else none) := by
  induction targets generalizing schema with
  | nil => simp
  | cons target rest ih =>
      rw [List.foldl_cons, ih, addTarget]
      split
      · next hempty => simp [hempty, hname]
      · rw [lookup_addColumn]
        by_cases hsame : name = safeName target
        · subst hsame
          cases List.lookup (safeName target) schema <;> simp
        · simp [hsame]

/-- The sanitiser changes exactly the targets with another character. -/
theorem safeName_eq_self_iff (target : String) :
    safeName target = target ↔ target.toList.all isNameChar := by
  have hchar (c : Char) : (if isNameChar c then c else '_') = c ↔ isNameChar c := by
    by_cases h : isNameChar c
    · simp [h]
    · rw [if_neg h]
      exact ⟨fun heq => heq ▸ rfl, fun hname => absurd hname h⟩
  rw [safeName, ← String.toList_inj, String.toList_ofList]
  induction target.toList with
  | nil => simp
  | cons c rest ih => simp [hchar, ih]

/-! ## Reading a mapped value -/

/-- Native extraction has filled the place a target is stored in. -/
def NativelyFilled (obj : Map) : Target → Prop
  | .str c => (nativeDraft obj).cols.str c ≠ ""
  | .num c => (nativeDraft obj).cols.num c ≠ 0
  | .extension key => key ∈ (nativeDraft obj).extensions

/-- The typed column of a target holds a mapped value, parsed if it is numeric. -/
def OcsfRecord.HoldsTyped (rec : OcsfRecord) (value : String) : Target → Prop
  | .str c => rec.columns.str c = value
  | .num c => rec.columns.num c = (parseUInt c.width value).getD 0
  | .extension _ => False

/-- Whatever the alert and the rest of the mapping table, the value of a field
that is the only one mapped to `target` is in the record's typed column, or is what
a query reads under the name of the target's custom column, in a table to which
the columns of some targets, `target` among them, were added. -/
def MappedValueReadable (target : String) : Prop :=
  ∀ (ch : ClickHouse) (ext : Externals) (env : TransformEnv) (raw db : String)
    (specialLocs : List String) (custom : CustomMappings) (field : String) (obj : Map)
    (table : String) (rec : OcsfRecord) (targets : List String),
    ext.fromStr raw = some (.object obj) →
    transform ext env raw db specialLocs custom = some (table, rec) →
    custom.fieldMap.get field = some target →
    (∀ other, custom.fieldMap.get other = some target → other = field) →
    getDataField (dataOf obj) field ≠ "" →
    ¬ NativelyFilled obj (Target.of target) →
    (target ∉ standardOcsfTargets → target ∈ targets) →
    (target ∈ standardOcsfTargets ∧
        rec.HoldsTyped (getDataField (dataOf obj) field) (Target.of target)) ∨
      ch.read (targets.foldl Schema.addTarget baseSchema) rec (safeName target) =
        some (.string (getDataField (dataOf obj) field))

section

variable {custom : CustomMappings} {field target : String}

/-- An entry that offers its value where `field` does is the entry of `field`. -/
theorem entry_of_sole
    (hsole : ∀ other, custom.fieldMap.get other = some target → other = field)
    {entry : String × String} (hentry : entry ∈ custom.fieldMap.entries)
    (h : Target.of entry.2 = Target.of target) : entry = (field, target) := by
  have htarget := Target.of_injective h
  have hget : custom.fieldMap.get entry.1 = some target :=
    (HashMap.get_eq_some_iff _).mpr (htarget ▸ hentry)
  exact Prod.ext (hsole _ hget) htarget

variable (env : TransformEnv) (obj : Map) (hfield : custom.fieldMap.get field = some target)
  (hsole : ∀ other, custom.fieldMap.get other = some target → other = field)

include hfield hsole

/-- The entry of a field that has a target to itself decides what is found there. -/
theorem findSome?_arrange_of_sole {β : Type*} {offer : String × String → Option β}
    (htarget : ∀ entry, (offer entry).isSome → Target.of entry.2 = Target.of target) :
    (env.order.arrange custom.fieldMap.entries).findSome? offer = offer (field, target) := by
  have hmem := (HashMap.get_eq_some_iff custom.fieldMap).mp hfield
  refine findSome?_of_sole (env.order.mem_arrange.mpr hmem) fun entry hentry h => ?_
  exact entry_of_sole hsole (env.order.mem_arrange.mp hentry) (htarget entry h)

theorem mappedColumns_str_of_sole {c : StrCol} (hc : Target.of target = .str c)
    (hempty : (nativeDraft obj).cols.str c = "") :
    (mappedColumns env custom obj).1.str c = getDataField (dataOf obj) field := by
  rw [mappedColumns, overlay_str, if_pos hempty,
    findSome?_arrange_of_sole env hfield hsole fun entry h => (target_of_strOffer h).trans hc.symm]
  by_cases hval : getDataField (dataOf obj) field = "" <;> simp [strOffer, hc, hval]

theorem mappedColumns_num_of_sole {c : NumCol} (hc : Target.of target = .num c)
    (hempty : (nativeDraft obj).cols.num c = 0) :
    (mappedColumns env custom obj).1.num c = numValue (dataOf obj) c field := by
  rw [mappedColumns, overlay_num, if_pos hempty,
    findSome?_arrange_of_sole env hfield hsole fun entry h => (target_of_numOffer h).trans hc.symm]
  by_cases hval : numValue (dataOf obj) c field = 0
  · rw [numOffer, if_neg (fun h => h.2 hval), hval]
    rfl
  · rw [numOffer, if_pos ⟨hc, hval⟩]
    rfl

theorem mappedColumns_extension_of_sole (hc : Target.of target = .extension target)
    (hval : getDataField (dataOf obj) field ≠ "") :
    (mappedColumns env custom obj).2[target]? = some (getDataField (dataOf obj) field) := by
  have hmem := (HashMap.get_eq_some_iff custom.fieldMap).mp hfield
  have hfound : (env.order.arrange custom.fieldMap.entries).reverse.findSome?
      (extensionOffer (dataOf obj) target) = extensionOffer (dataOf obj) target (field, target) :=
    findSome?_of_sole (by simpa using hmem) fun entry hentry h =>
      entry_of_sole hsole (by simpa using hentry) ((target_of_extensionOffer h).trans hc.symm)
  rw [mappedColumns, overlay_extension, hfound]
  simp [extensionOffer, hc, hval]

end

/-! ## Targets that can be read back -/

theorem baseSchema_lookup_eq_none_iff (name : String) :
    List.lookup name baseSchema = none ↔ name ∉ baseColumns.map Prod.fst := by
  rw [List.lookup_eq_none_iff, baseSchema, List.forall_mem_map, List.mem_map]
  constructor
  · rintro h ⟨column, hcolumn, rfl⟩
    simpa using h column hcolumn
  · intro h column hcolumn
    simpa using fun heq => h ⟨column, hcolumn, heq.symm⟩

theorem mappedValueReadable_of_standard {target : String} (h : target ∈ standardOcsfTargets) :
    MappedValueReadable target := by
  intro ch ext env raw db specialLocs custom field obj table rec targets hparse hrec hfield hsole
    hval hfilled _
  obtain ⟨-, rfl⟩ := row_of_transform hparse hrec
  refine .inl ⟨h, ?_⟩
  cases hplace : Target.of target with
  | str c =>
      rw [hplace] at hfilled
      have hmapped := mappedColumns_str_of_sole env obj hfield hsole hplace (not_not.mp hfilled)
      rw [OcsfRecord.HoldsTyped, buildRecord_columns,
        finalColumns_str_of_mapped _ _ _ (hmapped ▸ hval), hmapped]
  | num c =>
      rw [hplace] at hfilled
      rw [OcsfRecord.HoldsTyped, buildRecord_columns, finalColumns_num,
        mappedColumns_num_of_sole env obj hfield hsole hplace (not_not.mp hfilled)]
      rfl
  | extension key =>
      exact absurd hplace (Target.of_ne_extension h key)

theorem mappedValueReadable_of_custom {target : String} (hnonempty : target ≠ "")
    (hstandard : target ∉ standardOcsfTargets) (hchars : target.toList.all isNameChar)
    (hbase : target ∉ baseColumns.map Prod.fst) : MappedValueReadable target := by
  intro ch ext env raw db specialLocs custom field obj table rec targets hparse hrec hfield hsole
    hval _ htargets
  obtain ⟨-, rfl⟩ := row_of_transform hparse hrec
  have hname : safeName target = target := (safeName_eq_self_iff target).mpr hchars
  have hlisted : target ∈ targets.map safeName :=
    List.mem_map.mpr ⟨target, htargets hstandard, hname⟩
  have hcolumn : List.lookup target (targets.foldl Schema.addTarget baseSchema) =
      some (.materialized target) := by
    rw [Schema.lookup_addTargets _ _ hnonempty, (baseSchema_lookup_eq_none_iff target).mpr hbase,
      if_pos hlisted, Option.none_or]
  have hstored := mappedColumns_extension_of_sole env obj hfield hsole
    (Target.of_extension hstandard) hval
  right
  rw [hname, ClickHouse.read, hcolumn, Option.map_some, ClickHouse.evaluate, buildRecord_extensions,
    ch.extract_extensions, hstored, Option.getD_some]

/-! ## Targets that cannot

The data of the probe is one number, which no native block reads: native
extraction leaves every string column and the extensions empty, whatever the
field paths are.
-/

/-- The text of the extensions tells what is stored under a key, so an extraction
as `ClickHouse` asks for exists. -/
noncomputable instance : Inhabited ClickHouse where
  default :=
    { jsonExtractString := fun text key =>
        open Classical in
        if h : ∃ extensions, extensionsJson extensions = text then (h.choose[key]?).getD "" else ""
      extract_extensions := fun extensions key => by
        have h : ∃ other, extensionsJson other = extensionsJson extensions := ⟨extensions, rfl⟩
        rw [dif_pos h, extensionsJson_injective h.choose_spec] }

/-- The data of the probe: one number under a key of its own. -/
def probeFields : Map := [("x_probe", .number (.posInt 7))]

@[simp] theorem probeFields_get (key : String) :
    probeFields.get key = if key = "x_probe" then some (.number (.posInt 7)) else none := by
  by_cases hkey : key = "x_probe"
  · rw [hkey]; rfl
  · rw [if_neg hkey]
    simp [probeFields, Map.get, List.lookup_cons, beq_eq_false_iff_ne.mpr hkey]

@[simp] theorem getStr_probeFields (key : String) : getStr probeFields key = "" := by
  rw [getStr, probeFields_get]
  split <;> rfl

@[simp] theorem vendor_probeFields (key : String) (block : Map → Draft → Draft) :
    vendor probeFields key block = id := by
  rw [vendor, probeFields_get]
  split_ifs <;> rfl

@[simp] theorem jpath_probeFields (path : String) : jpath (.object probeFields) path = "" := by
  have hwalk (keys : List String) : (walk (.object probeFields) keys).bind Value.asStr = none := by
    cases keys with
    | nil => rfl
    | cons key rest =>
        rw [walk, Value.get, Value.asObject, Option.bind_some, probeFields_get]
        split_ifs
        · cases rest <;> rfl
        · rfl
  rw [jpath, hwalk]
  rfl

@[simp] theorem firstStr_probeFields (paths : List String) :
    firstStr (.object probeFields) paths = "" := by
  induction paths with
  | nil => rfl
  | cons path rest ih =>
      rw [firstStr, Value.get, Value.asObject, Option.bind_some, probeFields_get]
      split_ifs
      · exact ih
      · simp [ih]

theorem native_probeFields : native (.object probeFields) [] [] = id := by
  have hgetStr (key : String) : getStr [] key = "" := rfl
  have hputAll (m : Map) (table : List (String × String)) (h : ∀ key, getStr m key = "") :
      putAll m table = id := seq_eq_id (by simp [h])
  have hputPaths (table : List (String × String)) : putPaths (.object probeFields) table = id :=
    seq_eq_id (by simp)
  have hmodules : modulesBlock (.object probeFields) probeFields [] [] = id := by
    refine seq_eq_id ?_
    simp only [List.forall_mem_cons]
    refine ⟨by simp [vulnerabilityBlock], seq_eq_id ?_, seq_eq_id (by simp),
      seq_eq_id (by simp [hgetStr]), seq_eq_id (by simp), seq_eq_id ?_, by simp⟩
    · have hprocess : Draft.fillNum .processId
          ((parseUInt 32 (jpath (.object probeFields) "win.system.processID")).getD 0) = id := by
        rw [jpath_probeFields]
        exact fillNum_zero .processId
      simpa [orElse] using hprocess
    · simp [hputAll, hputPaths, hgetStr]
      rfl
  exact seq_eq_id (by simp [Value.asObject, hmodules])

/-! ### The probe's record -/

/-- An alert with one field that no native block reads. -/
def probeAlert : Map := [("data", .object probeFields)]

/-- The text of `probeAlert`. -/
def probeLine : String := "\x7b\"data\":\x7b\"x_probe\":7\x7d\x7d"

theorem nativeDraft_probeAlert : nativeDraft probeAlert = foundDraft probeAlert :=
  congrFun native_probeFields (foundDraft probeAlert)

/-- The mapping table with one entry, from the probe's field. -/
def probeMappings (target : String) : CustomMappings where
  ocsfVersion := "1.7.0"
  fieldMap := ⟨[("x_probe", target)], by simp⟩

theorem probe_mappedColumns {target : String} (h : target ∉ standardOcsfTargets) :
    mappedColumns default (probeMappings target) probeAlert =
      (.find (.object probeFields), (∅ : Extensions).insert target "7") := by
  have hval : getDataField (dataOf probeAlert) "x_probe" = "7" := by decide
  rw [mappedColumns, nativeDraft_probeAlert]
  show overlay (dataOf probeAlert) [("x_probe", target)] _ = _
  simp only [overlay, List.foldl_cons, List.foldl_nil, overlayEntry, hval, Target.of_extension h]
  rfl

theorem probe_str {target : String} (h : target ∉ standardOcsfTargets) (c : StrCol) :
    (finalColumns default (probeMappings target) probeAlert).str c = "" := by
  rw [finalColumns, probe_mappedColumns h]
  have hclass : (classOf probeAlert).classUid = 2004 := by decide
  have hgroups : ruleGroups probeAlert = [] := by decide
  rw [hclass, hgroups]
  simp [backfillStatus, Columns.fillStr_str, Columns.find]

theorem extensionsJson_ne_digit (extensions : Extensions) : extensionsJson extensions ≠ "7" := by
  intro h
  have hchars := congrArg String.toList h
  rw [extensionsJson, Value.toJson, String.toList_ofList, Value.write, List.cons_append] at hchars
  exact absurd (List.cons.inj hchars).1 (by decide)

theorem probe_cells {target : String} (h : target ∉ standardOcsfTargets) :
    ∀ column ∈ baseColumns, column.2 (buildRecord (.knowing probeLine (.object probeAlert)) default
      (probeMappings target) probeLine probeAlert) ≠ .string "7" := by
  have hclass : classOf probeAlert = .detectionFinding := by decide
  have hseverity : finalSeverity probeAlert = (0, "Unknown") := by
    rw [finalSeverity, nativeDraft_probeAlert, hclass]
    rfl
  have hactivity : finalActivity default (probeMappings target) probeAlert = (1, "Create") := by
    rw [finalActivity, hclass]
    rfl
  have hversion : (probeMappings target).ocsfVersion = "1.7.0" := rfl
  simp only [baseColumns, List.forall_mem_cons, buildRecord, probe_str h, hclass, hseverity,
    hactivity, hversion, nativeDraft_probeAlert, ne_eq, Cell.string.injEq, reduceCtorEq,
    extensionsJson_ne_digit, not_false_eq_true, true_and, List.not_mem_nil, IsEmpty.forall_iff,
    implies_true, and_true]
  and_intros <;> decide

/-- A target the DDL renames, or one that names a column of the base table, cannot
be read back from the probe. -/
theorem not_mappedValueReadable {target : String} (hnonempty : target ≠ "")
    (hstandard : target ∉ standardOcsfTargets)
    (hname : ¬ (target.toList.all isNameChar ∧ target ∉ baseColumns.map Prod.fst)) :
    ¬ MappedValueReadable target := by
  intro hreadable
  have hget (other : String) : (probeMappings target).fieldMap.get other = some target →
      other = "x_probe" := by
    simp [HashMap.get_eq_some_iff, probeMappings]
  have hread := hreadable default (.knowing probeLine (.object probeAlert)) default probeLine
    "wazuh" [] (probeMappings target) "x_probe" probeAlert _ _ [target] (fromStr_knowing _ _)
    (transform_knowing (by decide) _ _ _ _ _)
    ((HashMap.get_eq_some_iff _).mpr (by simp [probeMappings])) hget (by decide)
    (by rw [Target.of_extension hstandard, NativelyFilled, nativeDraft_probeAlert]
        exact Std.ExtTreeMap.not_mem_empty)
    (fun _ => List.mem_singleton.mpr rfl)
  have hval : getDataField (dataOf probeAlert) "x_probe" = "7" := by decide
  rw [hval] at hread
  obtain ⟨hmem, -⟩ | hread := hread
  · exact hstandard hmem
  obtain ⟨source, hsource, hcell⟩ := Option.map_eq_some_iff.mp hread
  rw [Schema.lookup_addTargets _ _ (safeName_ne_empty hnonempty)] at hsource
  cases hbase : List.lookup (safeName target) baseSchema with
  | some stored =>
      -- the column is one of the base table
      rw [hbase, Option.some_or, Option.some.injEq] at hsource
      obtain ⟨l₁, l₂, hsplit, -⟩ := List.lookup_eq_some_iff.mp hbase
      have hmem : (safeName target, stored) ∈ baseSchema := hsplit ▸ by simp
      obtain ⟨column, hcolumn, heq⟩ := List.mem_map.mp hmem
      have hstored : stored = .stored column.2 := (congrArg Prod.snd heq).symm
      rw [← hsource, hstored] at hcell
      exact probe_cells hstandard column hcolumn hcell
  | none =>
      -- it is materialized from the sanitised key, which is not the one stored under
      rw [hbase, Option.none_or] at hsource
      have hrenamed : safeName target ≠ target := fun h => hname
        ⟨(safeName_eq_self_iff target).mp h, (baseSchema_lookup_eq_none_iff target).mp (h ▸ hbase)⟩
      have hkey : source = .materialized (safeName target) := by simpa [eq_comm] using hsource
      rw [hkey, ClickHouse.evaluate, buildRecord_extensions, ClickHouse.extract_extensions,
        probe_mappedColumns hstandard, Std.ExtTreeMap.getElem?_insert] at hcell
      simp [Ne.symm hrenamed] at hcell

/-- A target's values can be read back exactly if it is a standard target, or made
of the characters the sanitiser keeps and no column of the base table. -/
theorem mappedValueReadable_iff {target : String} (hnonempty : target ≠ "") :
    MappedValueReadable target ↔ target ∈ standardOcsfTargets ∨
      (target.toList.all isNameChar ∧ target ∉ baseColumns.map Prod.fst) := by
  constructor
  · intro hreadable
    by_contra hneither
    rw [not_or] at hneither
    exact not_mappedValueReadable hnonempty hneither.1 hneither.2 hreadable
  · rintro (hstandard | ⟨hchars, hbase⟩)
    · exact mappedValueReadable_of_standard hstandard
    · by_cases hstandard : target ∈ standardOcsfTargets
      · exact mappedValueReadable_of_standard hstandard
      · exact mappedValueReadable_of_custom hnonempty hstandard hchars hbase

/-- The vendor target of the documentation can be read back. -/
theorem mappedValueReadable_vendor_risk_score : MappedValueReadable "vendor_risk_score" :=
  (mappedValueReadable_iff (by decide)).mpr (.inr (by decide))

/-- `app_category`, documented as a standard target, is not one of the code's: its
values go to the extensions, and its column is the one of the base table. -/
theorem not_mappedValueReadable_app_category :
    ¬ ∀ target : String, target ≠ "" → MappedValueReadable target := fun h =>
  not_mappedValueReadable (by decide) (by decide) (by decide) (h "app_category" (by decide))

end WazuhOcsf
