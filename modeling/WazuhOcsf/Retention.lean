import WazuhOcsf.Delivery
import WazuhOcsf.Pipeline.Sections
import WazuhOcsf.Precedence
import WazuhOcsf.UnmappedReport

/-!
# What survives without the raw line

With the raw line dropped, a row determines its alert only as far as the columns keep
it.  `SameKept` lists the places a column keeps, as a relation between two alerts, and
`rows_ne_iff` says that two lines make different rows exactly when their alerts differ
in one of these places.  The log text is not among them (`logs_lost`): its key is one of
the known ones, so it is not in `unmapped`, and no column takes it.
-/

namespace WazuhOcsf

open Json RustString

/-! ## Kept places -/

/-- The strings with a column of their own. -/
def keptStrings : List (String × String) :=
  [("agent", "id"), ("agent", "name"), ("agent", "ip"), ("rule", "id"), ("decoder", "name"),
   ("manager", "name")]

/-- A compliance list of the rule, joined. -/
def complianceText (obj : Map) (key : String) : String :=
  String.intercalate "," (strings ((getSection obj "rule").get key))

/-- A value of the rule's `mitre` object. -/
def mitreValue (obj : Map) (key : String) : Option Value :=
  ((getSection obj "rule").get "mitre").bind fun m => m.get key

/-- The `firedtimes` of the rule, in the 32 bits of its column. -/
def firedTimes (obj : Map) : BitVec 32 :=
  ((((getSection obj "rule").get "firedtimes").bind Value.asU64).getD 0).setWidth 32

/-- Two rule levels with the same level column, severity and confidence: a level above
12 shows only modulo 256. -/
def SameLevel (m n : BitVec 64) : Prop :=
  m = n ∨ 12 < m.toNat ∧ 12 < n.toNat ∧ m.toNat % 256 = n.toNat % 256

/-- The activity of a file-integrity event. -/
def fileActivity (event : String) : BitVec 8 × String :=
  match toAsciiLowercase event with
  | "modified" | "changed" => (3, "Update")
  | "deleted" | "removed" => (4, "Delete")
  | "renamed" | "moved" => (5, "Rename")
  | _ => (1, "Create")

/-- No mapping stores a value under the extension key. -/
def Unmapped (custom : CustomMappings) (data : Value) (key : String) : Prop :=
  ∀ entry ∈ custom.fieldMap.entries, extensionOffer data key entry = none

/-- What a column takes when no earlier source and no section fills it. -/
def fallback (env : TransformEnv) (custom : CustomMappings) (data : Value) (c : StrCol) : String :=
  orElse (firstOf (laterSources data c))
    (((env.order.arrange custom.fieldMap.entries).findSome? (strOffer data c)).getD "")

/-- Two alerts that agree in every place a column keeps. -/
structure SameKept (ext : Externals) (env : TransformEnv) (custom : CustomMappings)
    (a b : Map) : Prop where
  data : dataOf a = dataOf b
  unknown : a.filter (fun entry => entry.1 ∉ knownKeys) = b.filter fun entry => entry.1 ∉ knownKeys
  str : ∀ entry ∈ keptStrings,
    getStr (getSection a entry.1) entry.2 = getStr (getSection b entry.1) entry.2
  location : getStr a "location" = getStr b "location"
  groups : ruleGroups a = ruleGroups b
  compliance : ∀ key ∈ ["pci_dss", "gdpr", "hipaa", "nist_800_53"],
    complianceText a key = complianceText b key
  mitre : ∀ key ∈ ["technique", "id", "tactic"], mitreValue a key = mitreValue b key
  level : SameLevel (ruleLevel a) (ruleLevel b)
  fired : firedTimes a = firedTimes b
  time : BitVec.ofInt 32 (timeOf ext env a).timestamp = .ofInt 32 (timeOf ext env b).timestamp ∧
    (timeOf ext env a).rfc3339 = (timeOf ext env b).rfc3339
  /-- A title in `data` hides the description of the rule. -/
  description : dataTitle (dataOf a) = "" →
    getStr (getSection a "rule") "description" = getStr (getSection b "rule") "description"
  /-- Only a file event shows, as its activity. -/
  event : (classOf a).classUid = 1001 →
    fileActivity (getStr (getSection a "syscheck") "event") =
      fileActivity (getStr (getSection b "syscheck") "event")
  /-- An earlier source hides the path, the host name and the program name. -/
  sources : ∀ c ∈ sectionCols, firstOf (earlierSources (dataOf a) c) = "" →
    orElse (sectionSource a c) (fallback env custom (dataOf a) c) =
      orElse (sectionSource b c) (fallback env custom (dataOf a) c)
  /-- A mapping to the extension key hides what `syscheck` puts there. -/
  digests : ∀ entry ∈ fimExtensions, Unmapped custom (dataOf a) entry.2 →
    getStr (getSection a "syscheck") entry.1 = getStr (getSection b "syscheck") entry.1
  attributes : Unmapped custom (dataOf a) "fim_changed_attrs" →
    (getSection a "syscheck").get "changed_attributes" =
      (getSection b "syscheck").get "changed_attributes"

/-! ## Levels and activities -/

theorem setWidth_eq_iff {m n : BitVec 64} :
    m.setWidth 8 = n.setWidth 8 ↔ m.toNat % 256 = n.toNat % 256 := by
  rw [← BitVec.toNat_inj, BitVec.toNat_setWidth, BitVec.toNat_setWidth]

theorem confidenceId_eq_three {level : BitVec 64} : confidenceId level = 3 ↔ 12 < level.toNat := by
  simp only [confidenceId]
  split_ifs <;> simp <;> omega

theorem sameLevel_iff {m n : BitVec 64} :
    SameLevel m n ↔ m.setWidth 8 = n.setWidth 8 ∧ confidenceId m = confidenceId n := by
  rw [setWidth_eq_iff]
  constructor
  · rintro (rfl | ⟨hm, hn, hmod⟩)
    · exact ⟨rfl, rfl⟩
    · exact ⟨hmod, by rw [confidenceId_eq_three.mpr hm, confidenceId_eq_three.mpr hn]⟩
  · rintro ⟨hmod, hconfidence⟩
    have hboth : 12 < m.toNat ↔ 12 < n.toNat := by
      rw [← confidenceId_eq_three, ← confidenceId_eq_three, hconfidence]
    by_cases hm : 12 < m.toNat
    · exact .inr ⟨hm, hboth.mp hm, hmod⟩
    · have hn : ¬ 12 < n.toNat := fun h => hm (hboth.mpr h)
      exact .inl (BitVec.eq_of_toNat_eq (by omega))

theorem SameLevel.mapSeverity_eq {m n : BitVec 64} (h : SameLevel m n) :
    mapSeverity m = mapSeverity n := by
  rcases h with rfl | ⟨hm, hn, -⟩
  · rfl
  · simp only [mapSeverity]
    rw [if_neg (by omega), if_neg (by omega), if_neg (by omega), if_neg (by omega),
      if_neg (by omega), if_neg (by omega), if_neg (by omega), if_neg (by omega),
      if_neg (by omega), if_neg (by omega)]

theorem activity_file (groups : List String) (event : String) (cols : Columns) :
    activity 1001 groups event cols = fileActivity event := rfl

theorem activity_of_ne {classUid : BitVec 32} (h : classUid ≠ 1001) (groups : List String)
    (event event' : String) (cols : Columns) :
    activity classUid groups event cols = activity classUid groups event' cols := by
  have hne : classUid.toNat ≠ 1001 := fun heq => h (BitVec.eq_of_toNat_eq heq)
  unfold activity
  split <;> first | contradiction | rfl

/-! ## Columns and extensions -/

theorem mappedColumns_sectionCol (env : TransformEnv) (custom : CustomMappings) (obj : Map)
    {c : StrCol} (hc : c ∈ sectionCols) :
    (mappedColumns env custom obj).1.str c = orElse (firstOf (earlierSources (dataOf obj) c))
      (orElse (sectionSource obj c) (fallback env custom (dataOf obj) c)) := by
  have hmapped : (mappedColumns env custom obj).1.str c =
      orElse ((nativeDraft obj).cols.str c) (((env.order.arrange custom.fieldMap.entries).findSome?
        (strOffer (dataOf obj) c)).getD "") := by
    rw [mappedColumns, overlay_str, orElse]
  rw [hmapped, native_str hc, orElse_assoc, orElse_assoc, fallback]

theorem mappedColumns_extension (env : TransformEnv) (custom : CustomMappings) (obj : Map)
    (key : String) :
    (mappedColumns env custom obj).2[key]? =
      ((env.order.arrange custom.fieldMap.entries).reverse.findSome?
        (extensionOffer (dataOf obj) key)).or (nativeDraft obj).extensions[key]? := by
  rw [mappedColumns, overlay_extension]

theorem unmapped_iff (env : TransformEnv) {custom : CustomMappings} {data : Value} {key : String} :
    Unmapped custom data key ↔ (env.order.arrange custom.fieldMap.entries).reverse.findSome?
      (extensionOffer data key) = none := by
  simp only [Unmapped, List.findSome?_eq_none_iff, List.mem_reverse, env.order.mem_arrange]

section

variable {env : TransformEnv} {custom : CustomMappings} {a b : Map}

/-- Outside the places of the two sections native extraction is a function of `data`
and the severity of the level. -/
theorem nativeDraft_sameAt (hdata : dataOf a = dataOf b)
    (hseverity : mapSeverity (ruleLevel a) = mapSeverity (ruleLevel b)) {place : Place}
    (hplace : place ∉ sectionPlaces) : SameAt (nativeDraft a) (nativeDraft b) place := by
  have hfound : foundDraft a = foundDraft b := by rw [foundDraft, foundDraft, hdata, hseverity]
  rw [nativeDraft, nativeDraft, hdata, hfound]
  exact (together_native hplace _ _ _ _ _).sameAt _

theorem orElse_eq_iff {first s t : String} :
    orElse first s = orElse first t ↔ (first = "" → s = t) := by
  unfold orElse
  split
  · next h => simp [h]
  · next h => simp [h]

theorem mappedColumns_sectionCol_eq_iff (hdata : dataOf a = dataOf b) {c : StrCol}
    (hc : c ∈ sectionCols) :
    (mappedColumns env custom a).1.str c = (mappedColumns env custom b).1.str c ↔
      (firstOf (earlierSources (dataOf a) c) = "" →
        orElse (sectionSource a c) (fallback env custom (dataOf a) c) =
          orElse (sectionSource b c) (fallback env custom (dataOf a) c)) := by
  rw [mappedColumns_sectionCol env custom a hc, mappedColumns_sectionCol env custom b hc, ← hdata]
  exact orElse_eq_iff

/-- The typed columns agree when the strings of the two sections do, as far as they
show. -/
theorem mappedColumns_fst_eq (hdata : dataOf a = dataOf b)
    (hseverity : mapSeverity (ruleLevel a) = mapSeverity (ruleLevel b))
    (hsources : ∀ c ∈ sectionCols,
      (mappedColumns env custom a).1.str c = (mappedColumns env custom b).1.str c) :
    (mappedColumns env custom a).1 = (mappedColumns env custom b).1 := by
  refine Columns.ext (funext fun c => ?_) (funext fun c => ?_)
  · by_cases hc : c ∈ sectionCols
    · exact hsources c hc
    · have hplace : Place.str c ∉ sectionPlaces := by simp [sectionPlaces, hc]
      have hnative : (nativeDraft a).cols.str c = (nativeDraft b).cols.str c :=
        nativeDraft_sameAt hdata hseverity hplace
      rw [mappedColumns, mappedColumns, overlay_str, overlay_str, hnative, hdata]
  · have hplace : Place.num c ∉ sectionPlaces := by simp [sectionPlaces]
    have hnative : (nativeDraft a).cols.num c = (nativeDraft b).cols.num c :=
      nativeDraft_sameAt hdata hseverity hplace
    rw [mappedColumns, mappedColumns, overlay_num, overlay_num, hnative, hdata]

/-- A mapping to an extension key hides what native extraction stores there. -/
theorem mappedColumns_extension_eq_iff (hdata : dataOf a = dataOf b) (key : String) :
    (mappedColumns env custom a).2[key]? = (mappedColumns env custom b).2[key]? ↔
      (Unmapped custom (dataOf a) key →
        (nativeDraft a).extensions[key]? = (nativeDraft b).extensions[key]?) := by
  rw [mappedColumns_extension, mappedColumns_extension, ← hdata, unmapped_iff env]
  cases (env.order.arrange custom.fieldMap.entries).reverse.findSome?
    (extensionOffer (dataOf a) key) with
  | none => simp
  | some offer => simp

theorem native_digest_eq_iff (a b : Map) {entry : String × String} (hentry : entry ∈ fimExtensions) :
    (nativeDraft a).extensions[entry.2]? = (nativeDraft b).extensions[entry.2]? ↔
      getStr (getSection a "syscheck") entry.1 = getStr (getSection b "syscheck") entry.1 := by
  rw [native_digest a hentry, native_digest b hentry]
  constructor
  · intro h
    split_ifs at h with ha hb hb
    · rw [ha, hb]
    · exact Option.some.inj h
  · intro h
    rw [h]

theorem native_attributes_eq_iff (a b : Map) :
    (nativeDraft a).extensions["fim_changed_attrs"]? =
        (nativeDraft b).extensions["fim_changed_attrs"]? ↔
      (getSection a "syscheck").get "changed_attributes" =
        (getSection b "syscheck").get "changed_attributes" := by
  rw [native_attributes, native_attributes]
  apply Function.Injective.eq_iff
  exact Option.map_injective fun _ _ => Value.toJson_injective

theorem mappedColumns_snd_eq_iff (hdata : dataOf a = dataOf b)
    (hseverity : mapSeverity (ruleLevel a) = mapSeverity (ruleLevel b)) :
    (mappedColumns env custom a).2 = (mappedColumns env custom b).2 ↔
      (∀ entry ∈ fimExtensions, Unmapped custom (dataOf a) entry.2 →
        getStr (getSection a "syscheck") entry.1 = getStr (getSection b "syscheck") entry.1) ∧
      (Unmapped custom (dataOf a) "fim_changed_attrs" →
        (getSection a "syscheck").get "changed_attributes" =
          (getSection b "syscheck").get "changed_attributes") := by
  have hkey (key : String) := @mappedColumns_extension_eq_iff env custom a b hdata key
  constructor
  · intro heq
    have hall (key : String) : (mappedColumns env custom a).2[key]? =
        (mappedColumns env custom b).2[key]? := by rw [heq]
    constructor
    · intro entry hentry hunmapped
      exact (native_digest_eq_iff a b hentry).mp ((hkey _).mp (hall _) hunmapped)
    · intro hunmapped
      exact (native_attributes_eq_iff a b).mp ((hkey _).mp (hall _) hunmapped)
  · rintro ⟨hdigests, hchanged⟩
    refine Std.ExtTreeMap.ext_getElem? fun key => (hkey key).mpr fun hunmapped => ?_
    by_cases hmem : key ∈ sectionKeys
    · rcases List.mem_append.mp hmem with hfim | hchange
      · obtain ⟨entry, hentry, rfl⟩ := List.mem_map.mp hfim
        exact (native_digest_eq_iff a b hentry).mpr (hdigests entry hentry hunmapped)
      · obtain rfl := List.mem_singleton.mp hchange
        exact (native_attributes_eq_iff a b).mpr (hchanged hunmapped)
    · have hplace : Place.extension key ∉ sectionPlaces := by simp [sectionPlaces, hmem]
      exact nativeDraft_sameAt hdata hseverity hplace

end

/-! ## The record -/

/-- The column of a `mitre` value, empty without one. -/
def mitreText (value : Option Value) : String := (value.map Value.toJson).getD ""

theorem mitreText_injective {v w : Option Value} (h : mitreText v = mitreText w) : v = w := by
  have hne (v : Value) : v.toJson ≠ "" := by
    obtain ⟨c, rest, htext, -, -⟩ := v.exists_write_eq_cons
    rw [Value.toJson, htext]
    exact fun heq => List.cons_ne_nil c rest (String.ofList_injective heq)
  cases v <;> cases w
  · rfl
  · exact absurd h.symm (hne _)
  · exact absurd h (hne _)
  · exact congrArg some (Value.toJson_injective h)

theorem finalSeverity_eq {a b : Map} (hdata : dataOf a = dataOf b)
    (hlevel : mapSeverity (ruleLevel a) = mapSeverity (ruleLevel b))
    (hclass : classOf a = classOf b) : finalSeverity a = finalSeverity b := by
  have hsame : SameAt (nativeDraft a) (nativeDraft b) .severity :=
    nativeDraft_sameAt hdata hlevel (by decide)
  have hfinding : SameAt (nativeDraft a) (nativeDraft b) .finding :=
    nativeDraft_sameAt hdata hlevel (by decide)
  obtain ⟨hid, hlabel⟩ := hsame
  obtain ⟨-, hvuln, -⟩ := hfinding
  simp only [finalSeverity, hclass, hvuln, Draft.setSeverity]
  split <;> simp only [hid, hlabel]

/-- A title in the data hides the description of the rule. -/
theorem title_eq_iff {a b : Map} (hdata : dataOf a = dataOf b) :
    orElse (nativeDraft a).findingTitleOverride (getStr (getSection a "rule") "description") =
        orElse (nativeDraft b).findingTitleOverride
          (getStr (getSection b "rule") "description") ↔
      (dataTitle (dataOf a) = "" → getStr (getSection a "rule") "description" =
        getStr (getSection b "rule") "description") := by
  rw [native_title, native_title, ← hdata]
  exact orElse_eq_iff

theorem groups_injective {first second : List String}
    (h : (Value.array (first.map .string)).toJson = (Value.array (second.map .string)).toJson) :
    first = second :=
  List.map_injective_iff.mpr (fun _ _ => Value.string.inj)
    (Value.array.inj (Value.toJson_injective h))

section

variable {ext : Externals} {env : TransformEnv} {custom : CustomMappings} {a b : Map}

theorem SameKept.classOf_eq (hkept : SameKept ext env custom a b) : classOf a = classOf b := by
  rw [classOf, classOf, hkept.groups, hkept.str ("decoder", "name") (by decide), hkept.location]

theorem finalColumns_eq (hkept : SameKept ext env custom a b) :
    finalColumns env custom a = finalColumns env custom b := by
  have hmapped : (mappedColumns env custom a).1 = (mappedColumns env custom b).1 :=
    mappedColumns_fst_eq hkept.data hkept.level.mapSeverity_eq fun c hc =>
      (mappedColumns_sectionCol_eq_iff hkept.data hc).mpr (hkept.sources c hc)
  rw [finalColumns, finalColumns, hmapped, hkept.groups, hkept.classOf_eq]

theorem finalActivity_eq (hkept : SameKept ext env custom a b) :
    finalActivity env custom a = finalActivity env custom b := by
  rw [finalActivity, finalActivity, finalColumns_eq hkept, hkept.groups, ← hkept.classOf_eq]
  by_cases hfile : (classOf a).classUid = 1001
  · rw [hfile, activity_file, activity_file, hkept.event hfile]
  · exact activity_of_ne hfile _ _ _ _

/-- With the raw line dropped, two alerts make the same record exactly when they agree in
every kept place. -/
theorem buildRecord_eq_iff :
    buildRecord ext env custom "" a = buildRecord ext env custom "" b ↔
      SameKept ext env custom a b := by
  simp only [buildRecord, OcsfRecord.mk.injEq]
  constructor
  · rintro ⟨htime, hdt, -, -, -, -, -, -, -, hactivityId, hactivityName, -, -, hconfidence, hcols,
      hagentId, hagentName, hagentIp, htitle, hruleId, hgroups, hlevel, hfired, hpci, hgdpr, hhipaa,
      hnist, htechnique, hattackId, htactic, -, -, hlocation, hdecoder, hmanager, hdata, hextensions,
      hunknown, -⟩
    replace hdata := Value.toJson_injective hdata
    replace hgroups := groups_injective hgroups
    have hlevels : SameLevel (ruleLevel a) (ruleLevel b) := sameLevel_iff.mpr ⟨hlevel, hconfidence⟩
    have hclass : classOf a = classOf b := by rw [classOf, classOf, hgroups, hdecoder, hlocation]
    obtain ⟨hdigests, hattributes⟩ := (mappedColumns_snd_eq_iff hdata hlevels.mapSeverity_eq).mp
      (extensionsJson_injective hextensions)
    exact
      { data := hdata
        unknown := Value.object.inj (Value.toJson_injective hunknown)
        str := by simp [keptStrings, hagentId, hagentName, hagentIp, hruleId, hdecoder, hmanager]
        location := hlocation
        groups := hgroups
        compliance := by simp [complianceText, hpci, hgdpr, hhipaa, hnist]
        mitre := by
          simp only [List.forall_mem_cons]
          exact ⟨mitreText_injective htechnique, mitreText_injective hattackId,
            mitreText_injective htactic, List.forall_mem_nil _⟩
        level := hlevels
        fired := hfired
        time := ⟨htime, hdt⟩
        description := (title_eq_iff hdata).mp htitle
        event := fun hfile => by
          have hactivity : finalActivity env custom a = finalActivity env custom b :=
            Prod.ext hactivityId hactivityName
          rw [finalActivity, finalActivity, ← hclass, hfile, activity_file, activity_file]
            at hactivity
          exact hactivity
        sources := fun c hc => by
          have hstatus : c ≠ .status := by rintro rfl; exact absurd hc (by decide)
          refine (mappedColumns_sectionCol_eq_iff hdata hc).mp ?_
          rw [← finalColumns_str _ _ _ hstatus, ← finalColumns_str _ _ _ hstatus, hcols]
        digests := hdigests
        attributes := hattributes }
  · intro hkept
    have hlevel := sameLevel_iff.mp hkept.level
    have hseverity := hkept.level.mapSeverity_eq
    have hdecoder := hkept.str ("decoder", "name") (by decide)
    have hclass := hkept.classOf_eq
    have hfinal := finalSeverity_eq hkept.data hseverity hclass
    have hcols := finalColumns_eq hkept
    have hactivity := finalActivity_eq hkept
    have hextensions : (mappedColumns env custom a).2 = (mappedColumns env custom b).2 :=
      (mappedColumns_snd_eq_iff hkept.data hseverity).mpr ⟨hkept.digests, hkept.attributes⟩
    have hfinding : SameAt (nativeDraft a) (nativeDraft b) .finding :=
      nativeDraft_sameAt hkept.data hseverity (by decide)
    have hstr (key section_ : String) (h : (section_, key) ∈ keptStrings) :
        getStr (getSection a section_) key = getStr (getSection b section_) key :=
      hkept.str _ h
    have hcompliance := hkept.compliance
    have hmitre (key : String) (h : key ∈ ["technique", "id", "tactic"]) :
        mitreText (mitreValue a key) = mitreText (mitreValue b key) := by
      rw [hkept.mitre key h]
    have htitle := (title_eq_iff hkept.data).mpr hkept.description
    rw [hclass, hfinal, hactivity, hcols, hextensions, hkept.groups, hkept.data, hkept.unknown]
    exact ⟨hkept.time.1, hkept.time.2, trivial, rfl, rfl, rfl, rfl, rfl, rfl, rfl, rfl, rfl, rfl,
      hlevel.2, rfl, hstr "id" "agent" (by decide), hstr "name" "agent" (by decide),
      hstr "ip" "agent" (by decide), htitle, hstr "id" "rule" (by decide), rfl, hlevel.1,
      hkept.fired, hcompliance "pci_dss" (by decide), hcompliance "gdpr" (by decide),
      hcompliance "hipaa" (by decide), hcompliance "nist_800_53" (by decide),
      hmitre "technique" (by decide), hmitre "id" (by decide), hmitre "tactic" (by decide),
      hfinding.1, hfinding.2.2, hkept.location, hdecoder, hstr "name" "manager" (by decide), rfl,
      rfl, rfl, trivial⟩

end

/-- Without the raw line a row is made of the alert alone. -/
theorem rowOf_eq_map_alertOf {ext : Externals} {cfg : AppConfig} (hdrop : cfg.storeRawData = false)
    (env : TransformEnv) (mappings : CustomMappings) (line : String) :
    rowOf ext cfg env mappings line = (alertOf ext line).map fun obj =>
      (tableOf cfg.clickhouseDb cfg.specialLocations obj, buildRecord ext env mappings "" obj) := by
  have hclear (obj : Map) : { buildRecord ext env mappings line obj with rawData := "" } =
      buildRecord ext env mappings "" obj := by
    simp only [buildRecord]
  rw [rowOf, transform_eq_map_alertOf, Option.map_map]
  refine congrArg (fun f => (alertOf ext line).map f) (funext fun obj => ?_)
  rw [Function.comp_apply, hdrop, if_neg Bool.false_ne_true, hclear]

/-- With the raw line dropped, two lines make different rows exactly when their alerts
differ in a kept place. -/
theorem rows_ne_iff {ext : Externals} {cfg : AppConfig} {env : TransformEnv}
    {mappings : CustomMappings} {line line' : String} {a b : Map}
    (hdrop : cfg.storeRawData = false) (hline : alertOf ext line = some a)
    (hline' : alertOf ext line' = some b) :
    rowOf ext cfg env mappings line ≠ rowOf ext cfg env mappings line' ↔
      ¬ SameKept ext env mappings a b := by
  rw [rowOf_eq_map_alertOf hdrop, rowOf_eq_map_alertOf hdrop, hline, hline', Option.map_some,
    Option.map_some, ne_eq, not_iff_not, Option.some.injEq, Prod.mk.injEq, buildRecord_eq_iff]
  refine ⟨And.right, fun hkept => ⟨?_, hkept⟩⟩
  have hname := hkept.str ("agent", "name") (by decide)
  rw [tableOf, tableOf, hkept.location]
  exact congrArg (fun name => routingTable _ name _ _) hname

/-- The text of an alert with a rule id. -/
def ruleLine (id : String) : String := "\x7b\"rule\":\x7b\"id\":\"" ++ id ++ "\"\x7d\x7d"

/-- An alert with a rule id. -/
def ruleAlert (id : String) : Map := [("rule", .object [("id", .string id)])]

/-- `STORE_RAW_DATA=false`. -/
def rawlessConfig : AppConfig := { sampleConfig with storeRawData := false }

theorem rows_ne_iff_rule : ∃ ext,
    rowOf ext rawlessConfig default default (ruleLine "5710") ≠
      rowOf ext rawlessConfig default default (ruleLine "5711") := by
  obtain ⟨hline, hline'⟩ := alertOf_knowingBoth (ruleLine "5710") (ruleLine "5711")
    (ruleAlert "5710") (ruleAlert "5711") (by decide +kernel) (by decide +kernel)
    (by decide +kernel)
  exact ⟨_, (rows_ne_iff rfl hline hline').mpr fun hkept =>
    absurd (hkept.str ("rule", "id") (by decide)) (by decide)⟩

/-! ## The dropped keys -/

/-- The known keys that no column takes. -/
def droppedKeys : List String := ["id", "full_log", "previous_log", "previous_output"]

theorem get_filter {p : String → Prop} [DecidablePred p] {key : String} (hp : p key) (m : Map) :
    Map.get (m.filter fun entry => p entry.1) key = Map.get m key := by
  induction m with
  | nil => rfl
  | cons entry rest ih =>
      rw [Map.get] at ih ⊢
      by_cases hentry : p entry.1
      · rw [List.filter_cons_of_pos (by simpa using hentry), Map.get, List.lookup_cons,
          List.lookup_cons, ih]
        rfl
      · have hne : (key == entry.1) = false := by
          rw [beq_eq_false_iff_ne]
          rintro rfl
          exact hentry hp
        rw [List.filter_cons_of_neg (by simpa using hentry), ih, Map.get, Map.get, List.lookup_cons,
          hne]

/-- Whatever the dropped keys hold, the row is the same. -/
theorem sameKept_of_dropped {ext : Externals} {env : TransformEnv} {custom : CustomMappings}
    {a b : Map} (h : a.filter (fun entry => entry.1 ∉ droppedKeys) =
      b.filter fun entry => entry.1 ∉ droppedKeys) : SameKept ext env custom a b := by
  have hget (key : String) (hkey : key ∉ droppedKeys) : Map.get a key = Map.get b key := by
    rw [← get_filter (p := (· ∉ droppedKeys)) hkey a, h]
    exact get_filter (p := (· ∉ droppedKeys)) hkey b
  have hsection (key : String) (hkey : key ∉ droppedKeys) :
      getSection a key = getSection b key := by
    rw [getSection, getSection, hget key hkey]
  have hdata : dataOf a = dataOf b := by rw [dataOf, dataOf, hget "data" (by decide)]
  have hlocation : getStr a "location" = getStr b "location" := by
    rw [getStr, getStr, hget "location" (by decide)]
  have hunknown (m : Map) : (m.filter fun entry => entry.1 ∉ droppedKeys).filter
      (fun entry => entry.1 ∉ knownKeys) = m.filter fun entry => entry.1 ∉ knownKeys := by
    have hsubset : ∀ key ∈ droppedKeys, key ∈ knownKeys := by decide
    rw [List.filter_filter]
    refine List.filter_congr fun entry _ => ?_
    by_cases hknown : entry.1 ∈ knownKeys
    · simp [hknown]
    · have hkept : entry.1 ∉ droppedKeys := fun hdropped => hknown (hsubset _ hdropped)
      simp [hknown, hkept]
  have hrule := hsection "rule" (by decide)
  have hsyscheck := hsection "syscheck" (by decide)
  have htime : timeOf ext env a = timeOf ext env b := by
    rw [timeOf, timeOf, hget "@timestamp" (by decide), hget "timestamp" (by decide)]
  exact
    { data := hdata
      unknown := by rw [← hunknown a, h, hunknown b]
      str := fun entry hentry => by
        have hkept : ∀ entry ∈ keptStrings, entry.1 ∉ droppedKeys := by decide
        rw [hsection entry.1 (hkept entry hentry)]
      location := hlocation
      groups := by rw [ruleGroups, ruleGroups, hrule]
      compliance := fun key _ => by rw [complianceText, complianceText, hrule]
      mitre := fun key _ => by rw [mitreValue, mitreValue, hrule]
      level := .inl (by rw [ruleLevel, ruleLevel, hrule])
      fired := by rw [firedTimes, firedTimes, hrule]
      time := by rw [htime]; exact ⟨rfl, rfl⟩
      description := fun _ => by rw [hrule]
      event := fun _ => by rw [hsyscheck]
      sources := fun c _ _ => by
        have hsource : sectionSource a c = sectionSource b c := by
          cases c <;> simp [sectionSource, hsyscheck, hsection "predecoder" (by decide)]
        rw [hsource]
      digests := fun entry _ _ => by rw [hsyscheck]
      attributes := fun _ => by rw [hsyscheck] }

/-- The text of an alert with a full log. -/
def logLine (text : String) : String := "\x7b\"full_log\":\"" ++ text ++ "\"\x7d"

/-- An alert with a full log. -/
def logAlert (text : String) : Map := [("full_log", .string text)]

/-- Two alerts that differ in their log text alone make the same row. -/
theorem logs_lost :
    ¬ ∀ (ext : Externals) (cfg : AppConfig) (env : TransformEnv) (mappings : CustomMappings)
      (line line' : String) (a b : Map), cfg.storeRawData = false → alertOf ext line = some a →
      alertOf ext line' = some b → a ≠ b →
      rowOf ext cfg env mappings line ≠ rowOf ext cfg env mappings line' := by
  intro h
  obtain ⟨hline, hline'⟩ := alertOf_knowingBoth (logLine "accepted") (logLine "denied")
    (logAlert "accepted") (logAlert "denied") (by decide +kernel) (by decide +kernel)
    (by decide +kernel)
  have hne : logAlert "accepted" ≠ logAlert "denied" := by simp [logAlert]
  refine h _ rawlessConfig default default _ _ _ _ rfl hline hline' hne ?_
  rw [rowOf_eq_map_alertOf rfl, rowOf_eq_map_alertOf rfl, hline, hline', Option.map_some,
    Option.map_some, buildRecord_eq_iff.mpr (sameKept_of_dropped rfl)]
  rfl

end WazuhOcsf
