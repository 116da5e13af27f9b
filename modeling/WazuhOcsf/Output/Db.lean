import WazuhOcsf.Pipeline.Transform

/-!
# ClickHouse tables

The DDL side of `output/db.rs`: the columns `ensure_table` creates and the columns
`ensure_custom_columns` adds for mapping targets without a typed column.

A table is seen through its `Schema`, the columns in order.  `ADD COLUMN IF NOT
EXISTS` leaves a schema alone that has a column of the name already; a custom
column is materialized from one key of the `extensions` text of the row.
-/

namespace WazuhOcsf

open Json RustString

/-- The value of a column in one row. -/
inductive Cell
  | string (s : String)
  | uint (n : ℕ)
  | float (x : Float32)

/-- How a table computes a column of a row. -/
inductive ColumnSource
  /-- A column of the record, stored as inserted. -/
  | stored (cell : OcsfRecord → Cell)
  /-- `MATERIALIZED JSONExtractString(extensions, key)`. -/
  | materialized (key : String)

/-- The columns of a table, each with where its cells come from. -/
abbrev Schema := List (String × ColumnSource)

/-- The columns of `CREATE TABLE`. -/
def baseColumns : List (String × (OcsfRecord → Cell)) :=
  let str := fun (c : StrCol) (rec : OcsfRecord) => Cell.string (rec.columns.str c)
  let num := fun (c : NumCol) (rec : OcsfRecord) => Cell.uint (rec.columns.num c).toNat
  [("time", fun rec => .uint rec.time.toNat),
   ("time_dt", fun rec => .string rec.timeDt),
   ("ocsf_version", fun rec => .string rec.ocsfVersion),
   ("class_uid", fun rec => .uint rec.classUid.toNat),
   ("class_name", fun rec => .string rec.className),
   ("category_uid", fun rec => .uint rec.categoryUid.toNat),
   ("category_name", fun rec => .string rec.categoryName),
   ("severity_id", fun rec => .uint rec.severityId.toNat),
   ("severity", fun rec => .string rec.severity),
   ("activity_id", fun rec => .uint rec.activityId.toNat),
   ("activity_name", fun rec => .string rec.activityName),
   ("type_uid", fun rec => .uint rec.typeUid.toNat),
   ("status_id", fun rec => .uint rec.statusId.toNat),
   ("confidence_id", fun rec => .uint rec.confidenceId.toNat),
   ("status", str .status),
   ("action", str .action),
   ("device_uid", fun rec => .string rec.deviceUid),
   ("device_name", fun rec => .string rec.deviceName),
   ("device_ip", fun rec => .string rec.deviceIp),
   ("src_ip", str .srcIp),
   ("dst_ip", str .dstIp),
   ("src_port", num .srcPort),
   ("dst_port", num .dstPort),
   ("nat_src_ip", str .natSrcIp),
   ("nat_dst_ip", str .natDstIp),
   ("nat_src_port", num .natSrcPort),
   ("nat_dst_port", num .natDstPort),
   ("network_protocol", str .networkProtocol),
   ("bytes_in", num .bytesIn),
   ("bytes_out", num .bytesOut),
   ("actor_user", str .actorUser),
   ("target_user", str .targetUser),
   ("domain", str .domain),
   ("url", str .url),
   ("http_method", str .httpMethod),
   ("http_status", num .httpStatus),
   ("app_name", str .appName),
   ("src_hostname", str .srcHostname),
   ("dst_hostname", str .dstHostname),
   ("file_name", str .fileName),
   ("process_name", str .processName),
   ("process_id", num .processId),
   ("interface_in", str .interfaceIn),
   ("interface_out", str .interfaceOut),
   ("rule_name", str .ruleName),
   ("app_category", str .appCategory),
   ("finding_title", fun rec => .string rec.findingTitle),
   ("finding_uid", fun rec => .string rec.findingUid),
   ("finding_types", fun rec => .string rec.findingTypes),
   ("wazuh_rule_level", fun rec => .uint rec.wazuhRuleLevel.toNat),
   ("wazuh_fired_times", fun rec => .uint rec.wazuhFiredTimes.toNat),
   ("pci_dss", fun rec => .string rec.pciDss),
   ("gdpr", fun rec => .string rec.gdpr),
   ("hipaa", fun rec => .string rec.hipaa),
   ("nist_800_53", fun rec => .string rec.nist80053),
   ("attack_technique", fun rec => .string rec.attackTechnique),
   ("attack_id", fun rec => .string rec.attackId),
   ("attack_tactic", fun rec => .string rec.attackTactic),
   ("cve_id", fun rec => .string rec.cveId),
   ("cvss_score", fun rec => .float rec.cvssScore),
   ("src_location", fun rec => .string rec.srcLocation),
   ("decoder_name", fun rec => .string rec.decoderName),
   ("manager_name", fun rec => .string rec.managerName),
   ("event_data", fun rec => .string rec.eventData),
   ("extensions", fun rec => .string rec.extensions),
   ("unmapped", fun rec => .string rec.unmapped),
   ("raw_data", fun rec => .string rec.rawData)]

/-- The schema of a new table. -/
def baseSchema : Schema := baseColumns.map fun column => (column.1, .stored column.2)

/-! ## Custom columns -/

/-- The column name of a mapping target: every character that is not
alphanumeric or an underscore is replaced. -/
def safeName (target : String) : String :=
  .ofList (target.toList.map fun c => if isNameChar c then c else '_')

theorem safeName_ne_empty {target : String} (h : target ≠ "") : safeName target ≠ "" := by
  rw [safeName, ne_eq, ← String.toList_inj, String.toList_ofList]
  intro hnil
  exact h (String.toList_inj.mp (List.map_eq_nil_iff.mp hnil))

/-- `ADD COLUMN IF NOT EXISTS` for a materialized column. -/
def Schema.addColumn (schema : Schema) (name : String) : Schema :=
  if name ∈ schema.map Prod.fst then schema else schema ++ [(name, .materialized name)]

/-- The schema after the DDL of `ensure_custom_columns` for one target. -/
def Schema.addTarget (schema : Schema) (target : String) : Schema :=
  if safeName target = "" then schema else schema.addColumn (safeName target)

/-- The targets `ensure_custom_columns` reports as applied, where `ok i` says
whether ClickHouse accepted the statement for the `i`-th of `columns`.  A table
name without a database is refused. -/
def ensureCustomColumns (table : String) (columns : List String) (ok : ℕ → Bool) : List String :=
  if '.' ∈ table.toList then
    (columns.zipIdx.filter fun column => safeName column.1 ≠ "" && ok column.2).map Prod.fst
  else []

theorem mem_ensureCustomColumns {table col : String} {columns : List String} {ok : ℕ → Bool}
    (htable : '.' ∈ table.toList) (hcol : col ∈ columns) (hname : col ≠ "")
    (hok : ∀ i < columns.length, ok i) : col ∈ ensureCustomColumns table columns ok := by
  obtain ⟨i, hi, hget⟩ := List.mem_iff_getElem.mp hcol
  have hindexed : (col, i) ∈ columns.zipIdx := by
    rw [List.mk_mem_zipIdx_iff_getElem?, List.getElem?_eq_some_iff]
    exact ⟨hi, hget⟩
  rw [ensureCustomColumns, if_pos htable]
  refine List.mem_map.mpr ⟨(col, i), List.mem_filter.mpr ⟨hindexed, ?_⟩, rfl⟩
  simp [safeName_ne_empty hname, hok i hi]

/-- A target without a name is never applied. -/
theorem ne_empty_of_mem_ensureCustomColumns {table col : String} {columns : List String}
    {ok : ℕ → Bool} (h : col ∈ ensureCustomColumns table columns ok) : col ≠ "" := by
  unfold ensureCustomColumns at h
  split at h
  · rintro rfl
    obtain ⟨column, hcolumn, hname⟩ := List.mem_map.mp h
    have hsafe := (List.mem_filter.mp hcolumn).2
    rw [hname] at hsafe
    exact absurd hsafe (by simp [safeName])
  · exact absurd h List.not_mem_nil

/-! ## Reading a row back -/

/-- The part of ClickHouse a materialized column rests on: extracting a string from
the text of an object of strings gives the string stored under the key, or
nothing. -/
structure ClickHouse where
  jsonExtractString : String → String → String
  extract_extensions (extensions : Extensions) (key : String) :
    jsonExtractString (extensionsJson extensions) key = extensions[key]?.getD ""

/-- The value of a column in the row of a record. -/
def ClickHouse.evaluate (ch : ClickHouse) (rec : OcsfRecord) : ColumnSource → Cell
  | .stored cell => cell rec
  | .materialized key => .string (ch.jsonExtractString rec.extensions key)

/-- The value a query of `schema` sees under a column name. -/
def ClickHouse.read (ch : ClickHouse) (schema : Schema) (rec : OcsfRecord) (name : String) :
    Option Cell :=
  (schema.lookup name).map (ch.evaluate rec)

end WazuhOcsf
