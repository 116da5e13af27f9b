import WazuhOcsf.Output.Db

/-!
# The statements sent to ClickHouse

`ensure_table` and `ensure_custom_columns` splice names into SQL text: the two halves of
the table name they are given, and the name of a custom column.  The table name comes from
the agent or the location of an alert, the column name from the mapping file.
`identifiers_contained`: whatever these are, no name ends its own quotes, and the statements
address the table that the rows are routed to.
-/

namespace WazuhOcsf

open RustString

/-! ## The texts -/

/-- A name as a quoted identifier. -/
def quoted (name : String) : String := "`" ++ name ++ "`"

/-- `{:<width}`: blanks behind a text up to the width. -/
def padded (width : ℕ) (s : String) : String :=
  .ofList (s.toList ++ List.replicate (width - s.toList.length) ' ')

/-- The columns of a new table: name, type and codec. -/
def tableColumns : List (String × String × String) :=
  [("time", "DateTime", "Delta(4), ZSTD(1)"), ("time_dt", "String", "ZSTD(3)"),
   ("ocsf_version", "LowCardinality(String)", "ZSTD(1)"), ("class_uid", "UInt32", "ZSTD(1)"),
   ("class_name", "LowCardinality(String)", "ZSTD(1)"), ("category_uid", "UInt32", "ZSTD(1)"),
   ("category_name", "LowCardinality(String)", "ZSTD(1)"), ("severity_id", "UInt8", "ZSTD(1)"),
   ("severity", "LowCardinality(String)", "ZSTD(1)"), ("activity_id", "UInt8", "ZSTD(1)"),
   ("activity_name", "LowCardinality(String)", "ZSTD(1)"), ("type_uid", "UInt32", "ZSTD(1)"),
   ("status_id", "UInt8", "ZSTD(1)"), ("confidence_id", "UInt8", "ZSTD(1)"),
   ("status", "LowCardinality(String)", "ZSTD(1)"),
   ("action", "LowCardinality(String)", "ZSTD(1)"), ("device_uid", "String", "ZSTD(3)"),
   ("device_name", "LowCardinality(String)", "ZSTD(1)"), ("device_ip", "String", "ZSTD(3)"),
   ("src_ip", "String", "ZSTD(3)"), ("dst_ip", "String", "ZSTD(3)"),
   ("src_port", "UInt16", "Delta(2), ZSTD(1)"), ("dst_port", "UInt16", "Delta(2), ZSTD(1)"),
   ("nat_src_ip", "String", "ZSTD(3)"), ("nat_dst_ip", "String", "ZSTD(3)"),
   ("nat_src_port", "UInt16", "Delta(2), ZSTD(1)"),
   ("nat_dst_port", "UInt16", "Delta(2), ZSTD(1)"),
   ("network_protocol", "LowCardinality(String)", "ZSTD(1)"),
   ("bytes_in", "UInt64", "Delta(8), ZSTD(1)"), ("bytes_out", "UInt64", "Delta(8), ZSTD(1)"),
   ("actor_user", "String", "ZSTD(3)"), ("target_user", "String", "ZSTD(3)"),
   ("domain", "String", "ZSTD(3)"), ("url", "String", "ZSTD(3)"),
   ("http_method", "LowCardinality(String)", "ZSTD(1)"),
   ("http_status", "UInt16", "Delta(2), ZSTD(1)"),
   ("app_name", "LowCardinality(String)", "ZSTD(1)"), ("src_hostname", "String", "ZSTD(3)"),
   ("dst_hostname", "String", "ZSTD(3)"), ("file_name", "String", "ZSTD(3)"),
   ("process_name", "String", "ZSTD(3)"), ("process_id", "UInt32", "Delta(4), ZSTD(1)"),
   ("interface_in", "LowCardinality(String)", "ZSTD(1)"),
   ("interface_out", "LowCardinality(String)", "ZSTD(1)"), ("rule_name", "String", "ZSTD(3)"),
   ("app_category", "LowCardinality(String)", "ZSTD(1)"), ("finding_title", "String", "ZSTD(3)"),
   ("finding_uid", "LowCardinality(String)", "ZSTD(1)"), ("finding_types", "String", "ZSTD(3)"),
   ("wazuh_rule_level", "UInt8", "ZSTD(1)"), ("wazuh_fired_times", "UInt32", "ZSTD(1)"),
   ("pci_dss", "String", "ZSTD(3)"), ("gdpr", "String", "ZSTD(3)"), ("hipaa", "String", "ZSTD(3)"),
   ("nist_800_53", "String", "ZSTD(3)"), ("attack_technique", "String", "ZSTD(3)"),
   ("attack_id", "String", "ZSTD(3)"), ("attack_tactic", "String", "ZSTD(3)"),
   ("cve_id", "LowCardinality(String)", "ZSTD(1)"), ("cvss_score", "Float32", "ZSTD(1)"),
   ("src_location", "String", "ZSTD(3)"), ("decoder_name", "LowCardinality(String)", "ZSTD(1)"),
   ("manager_name", "LowCardinality(String)", "ZSTD(1)"), ("event_data", "String", "ZSTD(3)"),
   ("extensions", "String", "ZSTD(3)"), ("unmapped", "String", "ZSTD(3)"),
   ("raw_data", "String", "ZSTD(3)")]

/-- The indexes of a new table. -/
def tableIndexes : List String :=
  ["    INDEX idx_src_ip        `src_ip`        TYPE bloom_filter(0.01) GRANULARITY 4",
   "    INDEX idx_dst_ip        `dst_ip`        TYPE bloom_filter(0.01) GRANULARITY 4",
   "    INDEX idx_nat_src_ip    `nat_src_ip`    TYPE bloom_filter(0.01) GRANULARITY 4",
   "    INDEX idx_actor_user    `actor_user`    TYPE bloom_filter(0.01) GRANULARITY 4",
   "    INDEX idx_target_user   `target_user`   TYPE bloom_filter(0.01) GRANULARITY 4",
   "    INDEX idx_domain        `domain`        TYPE bloom_filter(0.01) GRANULARITY 4",
   "    INDEX idx_src_hostname  `src_hostname`  TYPE bloom_filter(0.01) GRANULARITY 4",
   "    INDEX idx_dst_hostname  `dst_hostname`  TYPE bloom_filter(0.01) GRANULARITY 4",
   "    INDEX idx_file_name     `file_name`     TYPE bloom_filter(0.01) GRANULARITY 4",
   "    INDEX idx_process_name  `process_name`  TYPE bloom_filter(0.01) GRANULARITY 4",
   "    INDEX idx_url           `url`           TYPE bloom_filter(0.01) GRANULARITY 4",
   "    INDEX idx_attack_id     `attack_id`     TYPE bloom_filter(0.01) GRANULARITY 4",
   "    INDEX idx_finding_uid   `finding_uid`   TYPE set(0)             GRANULARITY 4",
   "    INDEX idx_finding_title `finding_title` TYPE set(0)             GRANULARITY 4",
   "    INDEX idx_rule_name     `rule_name`     TYPE set(0)             GRANULARITY 4",
   "    INDEX idx_severity_id      `severity_id`      TYPE minmax       GRANULARITY 4",
   "    INDEX idx_wazuh_rule_level `wazuh_rule_level` TYPE minmax       GRANULARITY 4",
   "    INDEX idx_class_uid        `class_uid`        TYPE minmax       GRANULARITY 4",
   "    INDEX idx_type_uid         `type_uid`         TYPE minmax       GRANULARITY 4",
   "    INDEX idx_http_status      `http_status`      TYPE minmax       GRANULARITY 4"]

/-- The columns that tables of earlier releases lack. -/
def migratedColumns : List String :=
  ["`wazuh_rule_level`  UInt8  DEFAULT 0  CODEC(ZSTD(1))",
   "`wazuh_fired_times` UInt32 DEFAULT 0  CODEC(ZSTD(1))",
   "`pci_dss`           String DEFAULT '' CODEC(ZSTD(3))",
   "`gdpr`              String DEFAULT '' CODEC(ZSTD(3))",
   "`hipaa`             String DEFAULT '' CODEC(ZSTD(3))",
   "`nist_800_53`       String DEFAULT '' CODEC(ZSTD(3))",
   "`cve_id`            LowCardinality(String) DEFAULT '' CODEC(ZSTD(1))",
   "`cvss_score`        Float32 DEFAULT 0.0 CODEC(ZSTD(1))"]

/-- The `CREATE DATABASE` statement of `ensure_table`. -/
def createDatabase (db : String) : String := "CREATE DATABASE IF NOT EXISTS " ++ quoted db

/-- The `CREATE TABLE` statement of `ensure_table`. -/
def createTable (dbPart tblPart : String) (ttlDays : Option ℕ) : String :=
  let columns := tableColumns.map fun column =>
    "    " ++ padded 20 (quoted column.1) ++ padded 32 column.2.1 ++ "CODEC(" ++ column.2.2 ++ ")"
  let ttl := (ttlDays.map fun days => "\nTTL time + INTERVAL " ++ days.repr ++ " DAY").getD ""
  "CREATE TABLE IF NOT EXISTS " ++ quoted dbPart ++ "." ++ quoted tblPart ++ (" (\n" ++
    ",\n".intercalate (columns ++ tableIndexes) ++ "\n)\nENGINE = MergeTree()\n" ++
    "PARTITION BY toYYYYMM(time)\nORDER BY (class_uid, device_name, time)" ++ ttl ++
    "\nSETTINGS\n    index_granularity       = 4096,\n" ++
    "    min_compress_block_size = 65536,\n    max_compress_block_size = 1048576")

/-- An `ALTER TABLE` statement; `column` is the definition of the column. -/
def addColumn (dbPart tblPart column : String) : String :=
  "ALTER TABLE " ++ quoted dbPart ++ "." ++ quoted tblPart ++
    (" ADD COLUMN IF NOT EXISTS " ++ column)

/-- The statements of `ensure_table`. -/
def ensureTable (db table : String) (ttlDays : Option ℕ) : List String :=
  let (dbPart, tblPart) := (splitOnce '.' table).getD (db, table)
  createDatabase db :: createTable dbPart tblPart ttlDays ::
    migratedColumns.map (addColumn dbPart tblPart)

/-- The definition of a custom column. -/
def customColumn (safe : String) : String :=
  quoted safe ++ (" String MATERIALIZED JSONExtractString(extensions, '" ++ safe ++
    "') CODEC(ZSTD(3))")

/-- The statements of `ensure_custom_columns`, one for each target with a name. -/
def customColumnStatements (table : String) (columns : List String) : List String :=
  match splitOnce '.' table with
  | some (dbPart, tblPart) =>
      ((columns.map safeName).filter (· ≠ "")).map fun safe =>
        addColumn dbPart tblPart (customColumn safe)
  | none => []

/-- There is one statement for each target that a server which accepts them all applies. -/
theorem customColumnStatements_eq {table dbPart tblPart : String}
    (hsplit : splitOnce '.' table = some (dbPart, tblPart)) (columns : List String) :
    customColumnStatements table columns =
      (ensureCustomColumns table columns fun _ => true).map fun target =>
        addColumn dbPart tblPart (customColumn (safeName target)) := by
  have hdot : '.' ∈ table.toList := by
    by_contra hdot
    have hnone : table.toList.dropWhile (· ≠ '.') = [] :=
      List.dropWhile_eq_nil_iff.mpr fun c hc => decide_eq_true fun heq => hdot (heq ▸ hc)
    rw [splitOnce, hnone] at hsplit
    cases hsplit
  have hindexed (p : String → Bool) :
      ((columns.zipIdx.filter fun column => p column.1).map Prod.fst) = columns.filter p := by
    rw [← Function.comp_def p Prod.fst, ← List.filter_map, List.zipIdx_map_fst]
  rw [customColumnStatements, hsplit, ensureCustomColumns, if_pos hdot]
  simp only [Bool.and_true]
  rw [hindexed fun target => decide (safeName target ≠ ""), List.filter_map, List.map_map]
  rfl

/-- The text has the columns of the schema. -/
theorem tableColumns_names : tableColumns.map Prod.fst = baseColumns.map Prod.fst := rfl

/-! ## The characters of a name -/

/-- A lower-case ASCII letter, a digit or an underscore. -/
def isTableChar (c : Char) : Bool := c.isLower || c.isDigit || c == '_'

/-- The characters that end a name in SQL text. -/
def sqlMarks : List Char := "`'\".".toList

theorem isNameChar_eq (c : Char) : isNameChar c = (c.isUpper || isTableChar c) := by
  have hclasses : isNameChar c = (c.isUpper || c.isLower || c.isDigit || c == '_') := rfl
  rw [hclasses, isTableChar, Bool.or_assoc, Bool.or_assoc, Bool.or_assoc]

theorem isNameChar_of_isTableChar {c : Char} (h : isTableChar c) : isNameChar c := by
  rw [isNameChar_eq, h, Bool.or_true]

theorem not_mem_sqlMarks {c : Char} (h : isNameChar c) : c ∉ sqlMarks := by
  have hmarks : ∀ mark ∈ sqlMarks, isNameChar mark = false := by simp [sqlMarks, isNameChar]
  exact fun hmem => by simp [hmarks c hmem] at h

theorem isTableChar_toLower {c : Char} (h : isNameChar c) : isTableChar c.toLower := by
  by_cases hupper : c.isUpper
  · -- one of the 26 capitals
    have hcapitals : ∀ n < 91, 65 ≤ n → isTableChar (Char.ofNat n).toLower := by decide
    have hrange : 'A'.toNat ≤ c.toNat ∧ c.toNat ≤ 'Z'.toNat := of_decide_eq_true hupper
    rw [← Char.ofNat_toNat c]
    exact hcapitals c.toNat (Nat.lt_succ_of_le hrange.2) hrange.1
  · have hsame : c.toLower = c := dif_neg fun hrange => hupper (decide_eq_true hrange)
    rw [isNameChar_eq, Bool.or_eq_true] at h
    rw [hsame]
    exact h.resolve_left hupper

theorem isNameChar_of_mem_replaceRuns {inRun : Bool} {cs : List Char} {c : Char}
    (hc : c ∈ replaceRuns inRun cs) : isNameChar c := by
  induction cs generalizing inRun with
  | nil => exact absurd hc List.not_mem_nil
  | cons first rest ih =>
      rw [replaceRuns] at hc
      split at hc
      · next hname =>
          rcases List.mem_cons.mp hc with rfl | hrest
          · exact hname
          · exact ih hrest
      · split at hc
        · exact ih hc
        · rcases List.mem_cons.mp hc with rfl | hrest
          · decide
          · exact ih hrest

theorem isTableChar_of_mem_sanitizeName {raw : String} {c : Char}
    (hc : c ∈ (sanitizeName raw).toList) : isTableChar c := by
  rw [sanitizeName, trimMatches, String.toList_ofList] at hc
  have hlower := (List.dropWhile_suffix _).subset ((List.rdropWhile_prefix _ _).subset hc)
  rw [toAsciiLowercase, String.toList_ofList, String.toList_ofList] at hlower
  obtain ⟨d, hd, rfl⟩ := List.mem_map.mp hlower
  exact isTableChar_toLower (isNameChar_of_mem_replaceRuns hd)

theorem isNameChar_of_mem_safeName {target : String} {c : Char}
    (hc : c ∈ (safeName target).toList) : isNameChar c := by
  rw [safeName, String.toList_ofList] at hc
  obtain ⟨d, -, rfl⟩ := List.mem_map.mp hc
  split
  · next hname => exact hname
  · decide

/-! ## The table of an alert -/

/-- What a table name can be. -/
structure IsTableName (t : String) : Prop where
  head : startsWith t "ocsf_"
  length : t.toList.length ≤ 200
  chars : ∀ c ∈ t.toList, isTableChar c

/-- The cut keeps the prefix and adds no character. -/
theorem isTableName_of_segment {seg : String} (h : ∀ c ∈ seg.toList, isTableChar c) :
    IsTableName (.ofList (("ocsf_" ++ seg).toList.take 200)) where
  head := by
    have hchars := @String.toList_ofList (("ocsf_" ++ seg).toList.take 200)
    rw [startsWith, decide_eq_true_iff, hchars, List.prefix_take_iff, String.toList_append]
    exact ⟨List.prefix_append _ _, by simp⟩
  length := by
    rw [String.toList_ofList]
    exact List.length_take_le _ _
  chars := by
    intro c hc
    rw [String.toList_ofList] at hc
    have hmem := List.mem_of_mem_take hc
    rw [String.toList_append, List.mem_append] at hmem
    rcases hmem with hprefix | hseg
    · have hall : ∀ d ∈ "ocsf_".toList, isTableChar d := by simp [isTableChar]
      exact hall c hprefix
    · exact h c hseg

theorem exists_tableName (db agentName location : String) (specialLocs : List String) :
    ∃ t, routingTable db agentName location specialLocs = db ++ "." ++ t ∧ IsTableName t := by
  refine ⟨_, rfl, isTableName_of_segment ?_⟩
  dsimp only
  split
  · exact fun c hc => isTableChar_of_mem_sanitizeName hc
  · split
    · have hall : ∀ c ∈ "unknown_agent".toList, isTableChar c := by simp [isTableChar]
      exact hall
    · exact fun c hc => isTableChar_of_mem_sanitizeName hc

/-! ## Names in the statements -/

/-- Whatever follows, the mark that is put behind the name is the one that ends it. -/
def Contained (name : String) : Prop :=
  ∀ mark ∈ sqlMarks, ∀ rest, splitOnce mark (name ++ mark.toString ++ rest) = some (name, rest)

theorem contained_of_isNameChar {name : String} (h : ∀ c ∈ name.toList, isNameChar c) :
    Contained name := by
  intro mark hmark rest
  refine splitOnce_append ?_ (fun hmem => not_mem_sqlMarks (h mark hmem) hmark) rest
  simp

/-- Whatever the agent and the location of an alert and the targets of the mapping file, the
table name splits into the database and a plain name, the names of the statements end where
they are meant to, and the statements address the table of the rows. -/
theorem identifiers_contained {db : String} (hdb : '.' ∉ db.toList) (agentName location : String)
    (specialLocs : List String) :
    ∃ t, routingTable db agentName location specialLocs = db ++ "." ++ t ∧
      splitOnce '.' (routingTable db agentName location specialLocs) = some (db, t) ∧
      IsTableName t ∧ Contained t ∧
      (∀ target, (∀ c ∈ (safeName target).toList, isNameChar c) ∧ Contained (safeName target)) ∧
      (∀ configDb ttlDays,
        ensureTable configDb (routingTable db agentName location specialLocs) ttlDays =
          createDatabase configDb :: createTable db t ttlDays ::
            migratedColumns.map (addColumn db t)) ∧
      ∀ columns,
        customColumnStatements (routingTable db agentName location specialLocs) columns =
          ((columns.map safeName).filter (· ≠ "")).map fun safe =>
            addColumn db t (customColumn safe) := by
  obtain ⟨t, htable, hname⟩ := exists_tableName db agentName location specialLocs
  have hsplit : splitOnce '.' (routingTable db agentName location specialLocs) = some (db, t) := by
    rw [htable]
    exact splitOnce_append (by simp) hdb t
  have hcolumn (target : String) : ∀ c ∈ (safeName target).toList, isNameChar c := fun c hc =>
    isNameChar_of_mem_safeName hc
  refine ⟨t, htable, hsplit, hname, ?_, fun target => ⟨hcolumn target, ?_⟩, ?_, ?_⟩
  · exact contained_of_isNameChar fun c hc => isNameChar_of_isTableChar (hname.chars c hc)
  · exact contained_of_isNameChar (hcolumn target)
  · intro configDb ttlDays
    rw [ensureTable, hsplit]
    rfl
  · intro columns
    rw [customColumnStatements, hsplit]

theorem identifiers_contained_wazuh : ∃ t,
    splitOnce '.' (routingTable "wazuh" "web`; DROP TABLE x; --" "" []) = some ("wazuh", t) ∧
      IsTableName t := by
  obtain ⟨t, -, hsplit, hname, -⟩ := identifiers_contained
    (show '.' ∉ "wazuh".toList by simp) "web`; DROP TABLE x; --" "" []
  exact ⟨t, hsplit, hname⟩

end WazuhOcsf
