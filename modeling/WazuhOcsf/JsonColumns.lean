import WazuhOcsf.Delivery

/-!
# The columns that hold JSON

`event_data`, `unmapped`, `extensions`, `finding_types` and the three ATT&CK columns hold JSON
as text, which queries take apart again.  Every row on its way to a table gives back, read as
JSON, the parts of the alert it was made from: `rows_read_back`.  So a reader is all it takes
of ClickHouse to extract a custom column (`jsonClickHouse`).
-/

namespace WazuhOcsf

open Json Transition DbState

variable {ext : Externals} {cfg : AppConfig}

/-- A key of the ATT&CK block of the rule. -/
def mitreOf (obj : Map) (key : String) : Option Value :=
  ((getSection obj "rule").get "mitre").bind fun mitre => mitre.get key

/-- The JSON columns of a record, read again, are the parts of the alert, and the extensions
its native blocks and this mapping table give it. -/
structure ReadsBack (env : TransformEnv) (custom : CustomMappings) (obj : Map) (rec : OcsfRecord) :
    Prop where
  eventData : Value.read rec.eventData = some (dataOf obj)
  unmapped : Value.read rec.unmapped =
    some (.object (obj.filter fun entry => entry.1 ∉ knownKeys))
  extensions : Value.read rec.extensions = some (.object
    ((mappedColumns env custom obj).2.toList.map fun entry => (entry.1, .string entry.2)))
  findingTypes : Value.read rec.findingTypes = some (.array ((ruleGroups obj).map .string))
  attack : ∀ v, (mitreOf obj "technique" = some v → Value.read rec.attackTechnique = some v) ∧
    (mitreOf obj "id" = some v → Value.read rec.attackId = some v) ∧
    (mitreOf obj "tactic" = some v → Value.read rec.attackTactic = some v)

theorem readsBack_buildRecord (env : TransformEnv) (custom : CustomMappings) (raw : String)
    (obj : Map) : ReadsBack env custom obj (buildRecord ext env custom raw obj) where
  eventData := Value.read_toJson _
  unmapped := Value.read_toJson _
  extensions := Value.read_toJson _
  findingTypes := Value.read_toJson _
  attack v := by
    have hcell {key : String} (hkey : mitreOf obj key = some v) :
        Value.read (((mitreOf obj key).map Value.toJson).getD "") = some v := by
      rw [hkey]
      exact Value.read_toJson v
    exact ⟨hcell, hcell, hcell⟩

/-- The raw line is no JSON column. -/
theorem readsBack_of_rowOf {env : TransformEnv} {mappings : CustomMappings} {line table : String}
    {rec : OcsfRecord} (h : rowOf ext cfg env mappings line = some (table, rec)) :
    ∃ obj, ext.fromStr line = some (.object obj) ∧
      table = tableOf cfg.clickhouseDb cfg.specialLocations obj ∧
        ReadsBack env mappings obj rec := by
  obtain ⟨⟨t, r⟩, hrow, hsame⟩ := Option.map_eq_some_iff.mp h
  obtain ⟨obj, -, hparse, rfl, rfl⟩ := transform_eq_some_iff.mp hrow
  obtain ⟨rfl, rfl⟩ := Prod.mk.inj hsame
  refine ⟨obj, hparse, rfl, ?_⟩
  have hback : ReadsBack env mappings obj (buildRecord ext env mappings line obj) :=
    readsBack_buildRecord env mappings line obj
  split
  · exact hback
  · exact ⟨hback.eventData, hback.unmapped, hback.extensions, hback.findingTypes, hback.attack⟩

/-- In every run, a row that was taken for a table, or waits in its buffer, is the row of a
line received: of an alert that belongs to the table, and that its JSON columns give back,
with the extensions of the mapping table that was in force. -/
theorem rows_read_back {mappings : CustomMappings} {startOffset : ℕ} {s : LoopState}
    (run : Reachable (step ext cfg) (.initial mappings startOffset) s) {table : String}
    {rec : OcsfRecord}
    (hrec : rec ∈ (takenVectors table s.log).flatten ++ s.batches.rows table) :
    ∃ r ∈ receptions s.log, r.row = some (table, rec) ∧
      ∃ obj, ext.fromStr r.message.line = some (.object obj) ∧
        table = tableOf cfg.clickhouseDb cfg.specialLocations obj ∧
        ReadsBack r.env r.mappings obj rec := by
  have h := loopInv_of_reachable run
  rw [h.taken table] at hrec
  obtain ⟨e, he, hrouted⟩ := List.mem_filterMap.mp hrec
  cases e with
  | received r =>
      obtain ⟨⟨t, rec'⟩, hrow, hfor⟩ := Option.bind_eq_some_iff.mp hrouted
      obtain ⟨rfl, hsame⟩ := Option.ite_none_right_eq_some.mp hfor
      obtain rfl := Option.some.inj hsame
      have hmem : r ∈ receptions s.log := List.mem_filterMap.mpr ⟨_, he, rfl⟩
      obtain ⟨rfl, hsound⟩ := h.transformed r hmem
      exact ⟨r, hmem, hrow, readsBack_of_rowOf (hsound.symm.trans hrow)⟩
  | _ => cases hrouted

/-- An alert with something for each of the columns. -/
def richAlert : Map :=
  [("cluster", .object [("node", .string "n1")]),
   ("data", .object [("ticket", .string "T-17"), ("uid", .string "1000")]),
   ("rule", .object [("groups", .array [.string "ids", .string "web"]),
     ("mitre", .object [("id", .array [.string "T1110"]),
       ("tactic", .array [.string "Credential Access"]),
       ("technique", .array [.string "Brute Force"])])])]

/-- A table that maps the ticket. -/
def richMappings : CustomMappings where
  ocsfVersion := "1.7.0"
  fieldMap := ⟨[("ticket", "ticket_id")], by decide⟩

/-- The line of an alert. -/
def alertLine (obj : Map) : Message := ⟨0, (Value.object obj).toJson, 0⟩

theorem rowOf_alertLine (env : TransformEnv) (mappings : CustomMappings) (obj : Map) :
    rowOf .reading sampleConfig env mappings (alertLine obj).line =
      some (tableOf "wazuh" [] obj,
        buildRecord .reading env mappings (alertLine obj).line obj) := by
  have htransform : transform .reading env (alertLine obj).line "wazuh" [] mappings =
      some (tableOf "wazuh" [] obj, buildRecord .reading env mappings (alertLine obj).line obj) :=
    transform_eq_some_iff.mpr ⟨obj, trim_toJson_ne_empty obj, fromStr_reading _, rfl, rfl⟩
  exact congrArg (Option.map _) htransform

/-- The one line of an alert is read and taken. -/
theorem exists_received (mappings : CustomMappings) (obj : Map) : ∃ s rec r,
    Reachable (step .reading sampleConfig) (.initial mappings 0) s ∧
      rec ∈ s.batches.rows (tableOf "wazuh" [] obj) ∧ receptions s.log = [r] ∧
      r.message = alertLine obj ∧ r.env = default ∧ r.mappings = mappings := by
  obtain ⟨sent, hsend, hchannel, hpc, hmappings, hreceptions⟩ : ∃ sent,
      step .reading sampleConfig (.initial mappings 0) (.send (alertLine obj)) = some sent ∧
        sent.channel = [alertLine obj] ∧ sent.pc = .selecting ∧ sent.mappings = mappings ∧
        receptions sent.log = [] := ⟨_, rfl, rfl, rfl, rfl, rfl⟩
  have hrow : (receive .reading sampleConfig default sent (alertLine obj)).row =
      some (tableOf "wazuh" [] obj,
        buildRecord .reading default mappings (alertLine obj).line obj) := by
    rw [receive, ← rowOf_alertLine, hmappings]
  set r := receive .reading sampleConfig default sent (alertLine obj) with hr
  set taken : LoopState := { sent with
    channel := []
    currentOffset := (alertLine obj).offset
    db := sent.db.record [.received r] } with htaken
  have hrecv : step .reading sampleConfig sent (.recv default) =
      some (bufferRow sampleConfig taken r.row) := by
    simp [step, hpc, hchannel, hr, htaken]
  have hexec : exec (step .reading sampleConfig) (.initial mappings 0)
      [.send (alertLine obj), .recv default] = some (bufferRow sampleConfig taken r.row) := by
    simp [exec, hsend, hrecv]
  refine ⟨_, buildRecord .reading default mappings (alertLine obj).line obj, r,
    reachable_of_exec hexec, ?_, ?_, rfl, rfl, hmappings⟩
  · rw [rows_bufferRow]
    simp [routed, Event.routedRow, Reception.rowFor, hrow]
  · rw [LoopState.log, bufferRow_db, htaken, DbState.log_record, receptions, List.filterMap_append,
      ← receptions, ← LoopState.log, hreceptions]
    rfl

theorem extensions_richAlert : (mappedColumns default richMappings richAlert).2.toList =
    [("actor_uid", "1000"), ("ticket_id", "T-17")] := by
  decide +kernel

theorem rows_read_back_rich : ∃ s rec,
    Reachable (step .reading sampleConfig) (.initial richMappings 0) s ∧
      rec ∈ s.batches.rows sampleTable ∧
      Value.read rec.unmapped =
        some (.object [("cluster", .object [("node", .string "n1")])]) ∧
      Value.read rec.extensions =
        some (.object [("actor_uid", .string "1000"), ("ticket_id", .string "T-17")]) ∧
      Value.read rec.findingTypes = some (.array [.string "ids", .string "web"]) ∧
      Value.read rec.attackId = some (.array [.string "T1110"]) := by
  obtain ⟨s, rec, r, run, hrec, hlog, hmessage, henv, hmappings⟩ :=
    exists_received richMappings richAlert
  have htable : tableOf "wazuh" [] richAlert = sampleTable := by decide +kernel
  rw [htable] at hrec
  obtain ⟨r', hr, -, obj, hparse, -, hback⟩ := rows_read_back run (List.mem_append_right _ hrec)
  rw [hlog, List.mem_singleton] at hr
  subst hr
  rw [hmessage] at hparse
  obtain rfl : richAlert = obj :=
    Value.object.inj (Option.some.inj ((fromStr_reading _).symm.trans hparse))
  have hextensions := hback.extensions
  rw [henv, hmappings, extensions_richAlert] at hextensions
  have hgroups : ruleGroups richAlert = ["ids", "web"] := by decide +kernel
  refine ⟨s, rec, run, hrec, hback.unmapped.trans ?_, hextensions, ?_, (hback.attack _).2.1 rfl⟩
  · simp [richAlert, knownKeys]
  · rw [hback.findingTypes, hgroups]
    rfl

/-! ## Custom columns -/

/-- The string stored under a key of an object. -/
def extractString (text key : String) : String :=
  (((Value.read text).bind fun v => v.get key).bind Value.asStr).getD ""

theorem extractString_extensionsJson (extensions : Extensions) (key : String) :
    extractString (extensionsJson extensions) key = extensions[key]?.getD "" := by
  set entries := extensions.toList.map fun entry => (entry.1, Value.string entry.2) with hentries
  have hread : Value.read (extensionsJson extensions) = some (.object entries) :=
    Value.read_toJson _
  have hnodup : (entries.map Prod.fst).Nodup := by
    rw [hentries, List.map_map]
    refine List.pairwise_map.mpr (extensions.distinct_keys_toList.imp fun hne heq => hne ?_)
    exact Std.LawfulEqCmp.compare_eq_iff_eq.mpr heq
  have hlookup : entries.lookup key = extensions[key]?.map .string := by
    cases hkey : extensions[key]? with
    | some v =>
        have hmem : (key, v) ∈ extensions.toList :=
          Std.ExtTreeMap.mem_toList_iff_getElem?_eq_some.mpr hkey
        exact Entries.lookup_of_mem hnodup (List.mem_map_of_mem
          (f := fun entry : String × String => (entry.1, Value.string entry.2)) hmem)
    | none =>
        refine Entries.lookup_of_not_mem fun hmem => ?_
        rw [hentries, List.map_map] at hmem
        obtain ⟨stored, hstored, rfl⟩ := List.mem_map.mp hmem
        rw [Std.ExtTreeMap.mem_toList_iff_getElem?_eq_some] at hstored
        rw [Function.comp_apply, hstored] at hkey
        cases hkey
  rw [extractString, hread, Option.bind_some]
  show ((entries.lookup key).bind Value.asStr).getD "" = _
  rw [hlookup]
  cases extensions[key]? <;> rfl

/-- A database that reads JSON. -/
def jsonClickHouse : ClickHouse where
  jsonExtractString := extractString
  extract_extensions := extractString_extensionsJson

end WazuhOcsf
