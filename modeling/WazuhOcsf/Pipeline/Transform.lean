import WazuhOcsf.Config
import WazuhOcsf.Library.JsonParser
import WazuhOcsf.Pipeline.Classify
import WazuhOcsf.Pipeline.Record
import WazuhOcsf.Pipeline.Vendors

/-!
# `transform`

One alert line becomes a table name and an OCSF record: routing, native
extraction, the custom mapping overlay, the status backfill, the class-aware
severity, activity and status, and the record.

What comes from other crates is a parameter (`Externals`): the JSON parser and the
timestamp parser.  The clock and the order in which the mapping table is iterated
are inputs of each call (`TransformEnv`).
-/

namespace WazuhOcsf

open Json RustString

/-- A point in time: epoch seconds and the RFC 3339 text. -/
structure DateTime where
  timestamp : ℤ
  rfc3339 : String
  deriving Inhabited

/-- The functions of other crates `transform` calls. -/
structure Externals where
  /-- `serde_json::from_str`. -/
  fromStr : String → Option Value
  /-- `str::parse::<DateTime<Utc>>`. -/
  parseDateTime : String → Option DateTime

/-- What one call of `transform` sees besides its arguments. -/
structure TransformEnv where
  now : DateTime
  order : IterOrder (String × String)
  deriving Inhabited

/-! ## Routing -/

/-- A character the name sanitiser keeps. -/
def isNameChar (c : Char) : Bool := c.isAlphanum || c == '_'

/-- Replace every run of other characters by one underscore. -/
def replaceRuns (inRun : Bool) : List Char → List Char
  | [] => []
  | c :: rest =>
      if isNameChar c then c :: replaceRuns false rest
      else if inRun then replaceRuns true rest
      else '_' :: replaceRuns true rest

/-- A table name segment.  Lower-casing comes after the replacement, when only
ASCII is left. -/
def sanitizeName (raw : String) : String :=
  trimMatches '_' (toAsciiLowercase (.ofList (replaceRuns false raw.toList)))

/-- The ClickHouse table of an alert. -/
def routingTable (db agentName location : String) (specialLocs : List String) : String :=
  let seg :=
    if location ≠ "" ∧ location ∈ specialLocs then sanitizeName location
    else
      let n := sanitizeName agentName
      if n = "" then "unknown_agent" else n
  db ++ "." ++ .ofList (("ocsf_" ++ seg).toList.take 200)

/-! ## The custom mapping overlay -/

/-- Where a mapping target is stored. -/
inductive Target
  | str (c : StrCol)
  | num (c : NumCol)
  | extension (key : String)
  deriving DecidableEq

/-- The arms of the overlay's match, in the order of the source. -/
def typedTargets : List (String × Target) :=
  [("src_ip", .str .srcIp), ("dst_ip", .str .dstIp), ("src_port", .num .srcPort),
   ("dst_port", .num .dstPort), ("actor_user", .str .actorUser),
   ("target_user", .str .targetUser), ("domain", .str .domain), ("url", .str .url),
   ("http_method", .str .httpMethod), ("http_status", .num .httpStatus),
   ("app_name", .str .appName), ("src_hostname", .str .srcHostname),
   ("file_name", .str .fileName), ("process_name", .str .processName),
   ("process_id", .num .processId), ("rule_name", .str .ruleName),
   ("category", .str .appCategory), ("action", .str .action), ("status", .str .status),
   ("nat_src_ip", .str .natSrcIp), ("nat_dst_ip", .str .natDstIp),
   ("nat_src_port", .num .natSrcPort), ("nat_dst_port", .num .natDstPort),
   ("dst_hostname", .str .dstHostname), ("interface_in", .str .interfaceIn),
   ("interface_out", .str .interfaceOut), ("bytes_in", .num .bytesIn),
   ("bytes_out", .num .bytesOut), ("network_protocol", .str .networkProtocol)]

/-- The target a mapping names: a typed column, or else an extension. -/
def Target.of (name : String) : Target := (typedTargets.lookup name).getD (.extension name)

/-- One mapping entry: a typed column takes the value if it is still empty, any
other target stores it in the extensions. -/
def overlayEntry (data : Value) (state : Columns × Extensions) (entry : String × String) :
    Columns × Extensions :=
  let val := getDataField data entry.1
  if val = "" then state
  else
    match Target.of entry.2 with
    | .str c => (state.1.fillStr c val, state.2)
    | .num c => (state.1.fillNum c ((parseUInt c.width val).getD 0), state.2)
    | .extension key => (state.1, state.2.insert key val)

/-- All mapping entries, in iteration order. -/
def overlay (data : Value) (entries : List (String × String)) (state : Columns × Extensions) :
    Columns × Extensions :=
  entries.foldl (overlayEntry data) state

/-- The `extensions` column. -/
def extensionsJson (extensions : Extensions) : String :=
  (Value.object (extensions.toList.map fun entry => (entry.1, .string entry.2))).toJson

/-! ## Status, activity and confidence -/

/-- Rule groups that mean a success. -/
def successGroups : List String :=
  ["authentication_success", "win_authentication_success", "pam_success", "sudo"]

/-- Rule groups that mean a failure. -/
def failureGroups : List String :=
  ["authentication_failed", "authentication_failure", "win_authentication_failed", "pam_failure",
   "invalid_login", "multiple_authentication_failures"]

/-- The status from the rule groups, then from the action of a network event, when
nothing else set it. -/
def backfillStatus (groups : List String) (classUid : BitVec 32) (cols : Columns) : Columns :=
  let cols := cols.fillStr .status
    (if groups.any (· ∈ successGroups) then "Success"
     else if groups.any (· ∈ failureGroups) then "Failure"
     else "")
  if classUid = 4001 then cols.fillStr .status (cols.str .action) else cols

/-- The class-aware activity. -/
def activity (classUid : BitVec 32) (groups : List String) (syscheckEvent : String)
    (cols : Columns) : BitVec 8 × String :=
  let grp := fun s => groups.contains s
  let action := toAsciiLowercase (cols.str .action)
  match classUid.toNat with
  | 1001 =>
      match toAsciiLowercase syscheckEvent with
      | "modified" | "changed" => (3, "Update")
      | "deleted" | "removed" => (4, "Delete")
      | "renamed" | "moved" => (5, "Rename")
      | _ => (1, "Create")
  | 1006 =>
      if grp "process_stopped" || grp "process_terminated" || grp "sysmon_process_terminate" then
        (2, "Terminate")
      else (1, "Launch")
  | 3001 =>
      if grp "userdel" then (2, "Delete User")
      else if grp "groupdel" then (8, "Delete Group")
      else if grp "addgroup" then (7, "Create Group")
      else if grp "groupmod" then (9, "Update Group")
      else if grp "usermod" || grp "account_changed" then (3, "Update User")
      else if grp "passwd" || grp "password_changed" then (12, "Change Password")
      else (1, "Create User")
  | 3002 => if grp "logoff" || grp "logout" then (2, "Logoff") else (1, "Logon")
  | 4001 =>
      if action ∈ ["allow", "allowed", "permit", "pass", "accept", "accepted", "open"] then
        (1, "Open")
      else if action ∈ ["deny", "denied", "block", "blocked", "drop", "dropped", "reject",
          "rejected", "refuse", "refused"] then (5, "Refuse")
      else if action ∈ ["close", "closed", "end", "finish", "finished", "timeout", "timed_out"]
        then (2, "Close")
      else if action ∈ ["reset", "rst"] then (3, "Reset")
      else if action ∈ ["fail", "failed", "error"] then (4, "Fail")
      else (6, "Traffic")
  | 4002 =>
      match toAsciiLowercase (cols.str .httpMethod) with
      | "get" => (1, "Get")
      | "put" => (2, "Put")
      | "post" => (3, "Post")
      | "delete" => (4, "Delete")
      | "connect" => (5, "Connect")
      | "options" => (6, "Options")
      | "head" => (7, "Head")
      | _ => (99, "Other")
  | 4003 =>
      if grp "dns_response" || contains action "response" || contains action "answer" then
        (2, "Response")
      else if grp "dns_traffic" || action == "traffic" then (3, "Traffic")
      else (1, "Query")
  | 4004 =>
      if contains action "release" || action == "dhcprelease" then (3, "Release")
      else if contains action "nak" || contains action "nack" || contains action "error" then
        (4, "Error")
      else if contains action "request" || contains action "renew" || contains action "rebind"
        then (2, "Renew")
      else (1, "Assign")
  | _ => (1, "Create")

/-- The status id; findings have their own life cycle. -/
def statusId (classUid : BitVec 32) (status : String) : BitVec 8 :=
  let s := toAsciiLowercase status
  if classUid = 2002 ∨ classUid = 2003 ∨ classUid = 2004 then
    if s ∈ ["in_progress", "in progress", "investigating"] then 2
    else if s ∈ ["suppressed", "benign", "false_positive"] then 3
    else if s ∈ ["resolved", "closed", "remediated"] then 4
    else if s = "archived" then 5
    else if s = "deleted" then 6
    else 1
  else if s ∈ ["success", "allow", "allowed", "pass", "passed", "accepted"] then 1
  else if s ∈ ["failure", "fail", "failed", "deny", "denied", "block", "blocked", "drop",
      "dropped", "reject", "rejected"] then 2
  -- only the authentication table knows "error"
  else if classUid = 3002 ∧ s = "error" then 2
  else if s = "" then 0
  else 99

/-- The confidence of a rule level. -/
def confidenceId (level : BitVec 64) : BitVec 8 :=
  let n := level.toNat
  if n = 0 then 0 else if n ≤ 6 then 1 else if n ≤ 12 then 2 else 3

/-! ## One alert -/

/-- The top-level keys that do not go to `unmapped`. -/
def knownKeys : List String :=
  ["@timestamp", "timestamp", "agent", "rule", "manager", "location", "data", "id", "decoder",
   "syscheck", "full_log", "predecoder", "previous_log", "previous_output"]

/-- The strings of an array. -/
def strings (v : Option Value) : List String :=
  ((v.bind Value.asArray).getD []).filterMap Value.asStr

/-- `rule.groups`. -/
def ruleGroups (obj : Map) : List String := strings ((getSection obj "rule").get "groups")

/-- The `data` sub-object; an absent one is the empty object. -/
def dataOf (obj : Map) : Value := (obj.get "data").getD (.object [])

/-- `rule.level`. -/
def ruleLevel (obj : Map) : BitVec 64 :=
  (((getSection obj "rule").get "level").bind Value.asU64).getD 0

/-- The locals after the field-path lookup, before any native block. -/
def foundDraft (obj : Map) : Draft :=
  let severity := mapSeverity (ruleLevel obj)
  { cols := .find (dataOf obj)
    sevId := severity.1
    sevLabel := severity.2
    findingTitleOverride := ""
    cveId := ""
    cvssScore := 0
    vulnSev := ""
    extensions := ∅ }

/-- Everything extracted from an alert before the overlay. -/
def nativeDraft (obj : Map) : Draft :=
  native (dataOf obj) (getSection obj "syscheck") (getSection obj "predecoder") (foundDraft obj)

/-- The class of an alert. -/
def classOf (obj : Map) : OcsfClass :=
  classifyEvent (ruleGroups obj) (getStr (getSection obj "decoder") "name") (getStr obj "location")

/-- The typed columns and the extensions after the overlay. -/
def mappedColumns (env : TransformEnv) (custom : CustomMappings) (obj : Map) :
    Columns × Extensions :=
  let draft := nativeDraft obj
  overlay (dataOf obj) (env.order.arrange custom.fieldMap.entries) (draft.cols, draft.extensions)

/-- The severity: for a vulnerability finding the scanner's label wins. -/
def finalSeverity (obj : Map) : BitVec 8 × String :=
  let draft := nativeDraft obj
  let final :=
    if (classOf obj).classUid = 2002 then draft.setSeverity (Severity.ofScanner draft.vulnSev)
    else draft
  (final.sevId, final.sevLabel)

/-- The timestamp of an alert, or the clock. -/
def timeOf (ext : Externals) (env : TransformEnv) (obj : Map) : DateTime :=
  let ts := (((obj.get "@timestamp").or (obj.get "timestamp")).bind Value.asStr).getD ""
  (ext.parseDateTime ts).getD env.now

/-- The typed columns of a record: the mapped ones, with the status filled in. -/
def finalColumns (env : TransformEnv) (custom : CustomMappings) (obj : Map) : Columns :=
  backfillStatus (ruleGroups obj) (classOf obj).classUid (mappedColumns env custom obj).1

/-- The activity of a record. -/
def finalActivity (env : TransformEnv) (custom : CustomMappings) (obj : Map) : BitVec 8 × String :=
  activity (classOf obj).classUid (ruleGroups obj) (getStr (getSection obj "syscheck") "event")
    (finalColumns env custom obj)

/-- The record of a parsed alert. -/
def buildRecord (ext : Externals) (env : TransformEnv) (custom : CustomMappings) (raw : String)
    (obj : Map) : OcsfRecord :=
  let agent := getSection obj "agent"
  let rule := getSection obj "rule"
  let draft := nativeDraft obj
  let groups := ruleGroups obj
  let cls := classOf obj
  let cols := finalColumns env custom obj
  let act := finalActivity env custom obj
  let severity := finalSeverity obj
  let time := timeOf ext env obj
  let compliance := fun key => String.intercalate "," (strings (rule.get key))
  let mitre := fun key =>
    (((rule.get "mitre").bind fun m => m.get key).map Value.toJson).getD ""
  { time := .ofInt 32 time.timestamp
    timeDt := time.rfc3339
    ocsfVersion := custom.ocsfVersion
    classUid := cls.classUid
    className := cls.className
    categoryUid := cls.categoryUid
    categoryName := cls.categoryName
    severityId := severity.1
    severity := severity.2
    activityId := act.1
    activityName := act.2
    typeUid := cls.classUid * 100 + act.1.setWidth 32
    statusId := statusId cls.classUid (cols.str .status)
    confidenceId := confidenceId (ruleLevel obj)
    columns := cols
    deviceUid := getStr agent "id"
    deviceName := getStr agent "name"
    deviceIp := getStr agent "ip"
    findingTitle := orElse draft.findingTitleOverride (getStr rule "description")
    findingUid := getStr rule "id"
    findingTypes := (Value.array (groups.map .string)).toJson
    wazuhRuleLevel := (ruleLevel obj).setWidth 8
    wazuhFiredTimes := (((rule.get "firedtimes").bind Value.asU64).getD 0).setWidth 32
    pciDss := compliance "pci_dss"
    gdpr := compliance "gdpr"
    hipaa := compliance "hipaa"
    nist80053 := compliance "nist_800_53"
    attackTechnique := mitre "technique"
    attackId := mitre "id"
    attackTactic := mitre "tactic"
    cveId := draft.cveId
    cvssScore := draft.cvssScore
    srcLocation := getStr obj "location"
    decoderName := getStr (getSection obj "decoder") "name"
    managerName := getStr (getSection obj "manager") "name"
    eventData := (dataOf obj).toJson
    extensions := extensionsJson (mappedColumns env custom obj).2
    unmapped := (Value.object (obj.filter fun entry => entry.1 ∉ knownKeys)).toJson
    rawData := raw }

section

variable (ext : Externals) (env : TransformEnv) (custom : CustomMappings) (raw : String) (obj : Map)

@[simp] theorem buildRecord_class :
    (buildRecord ext env custom raw obj).classUid = (classOf obj).classUid ∧
      (buildRecord ext env custom raw obj).categoryUid = (classOf obj).categoryUid ∧
      (buildRecord ext env custom raw obj).categoryName = (classOf obj).categoryName := by
  simp only [buildRecord, and_self]

@[simp] theorem buildRecord_severity :
    ((buildRecord ext env custom raw obj).severityId, (buildRecord ext env custom raw obj).severity) =
      finalSeverity obj := by
  simp only [buildRecord]

@[simp] theorem buildRecord_columns :
    (buildRecord ext env custom raw obj).columns = finalColumns env custom obj := by
  simp only [buildRecord]

@[simp] theorem buildRecord_extensions :
    (buildRecord ext env custom raw obj).extensions =
      extensionsJson (mappedColumns env custom obj).2 := by
  simp only [buildRecord]

@[simp] theorem buildRecord_activityId :
    (buildRecord ext env custom raw obj).activityId = (finalActivity env custom obj).1 := by
  simp only [buildRecord]

@[simp] theorem buildRecord_typeUid :
    (buildRecord ext env custom raw obj).typeUid =
      (classOf obj).classUid * 100 + (finalActivity env custom obj).1.setWidth 32 := by
  simp only [buildRecord]

@[simp] theorem buildRecord_statusId :
    (buildRecord ext env custom raw obj).statusId =
      statusId (classOf obj).classUid ((finalColumns env custom obj).str .status) := by
  simp only [buildRecord]

end

/-- The table of a parsed alert. -/
def tableOf (db : String) (specialLocs : List String) (obj : Map) : String :=
  routingTable db (getStr (getSection obj "agent") "name") (getStr obj "location") specialLocs

/-- One raw line; `none` unless it is a JSON object. -/
def transform (ext : Externals) (env : TransformEnv) (raw db : String)
    (specialLocs : List String) (custom : CustomMappings) : Option (String × OcsfRecord) :=
  if trim raw = "" then none
  else do
    let v ← ext.fromStr raw
    let obj ← v.asObject
    return (tableOf db specialLocs obj, buildRecord ext env custom raw obj)

/-- A line yields a record when it is a JSON object; the mappings decide what is in
the record, not whether there is one. -/
theorem transform_eq_some_iff {ext : Externals} {env : TransformEnv} {raw db : String}
    {specialLocs : List String} {custom : CustomMappings} {table : String} {rec : OcsfRecord} :
    transform ext env raw db specialLocs custom = some (table, rec) ↔
      ∃ obj, trim raw ≠ "" ∧ ext.fromStr raw = some (.object obj) ∧
        table = tableOf db specialLocs obj ∧ rec = buildRecord ext env custom raw obj := by
  have hobject : ∀ v : Value, ∀ obj, v.asObject = some obj ↔ v = .object obj := by
    intro v obj
    cases v <;> simp [Value.asObject]
  unfold transform
  split
  · next hblank => simp [hblank]
  · next hblank =>
      simp only [Option.bind_eq_bind, Option.pure_def, Option.bind_eq_some_iff, Option.some.injEq,
        Prod.mk.injEq, hobject]
      constructor
      · rintro ⟨_, hparse, obj, rfl, rfl, rfl⟩
        exact ⟨obj, hblank, hparse, rfl, rfl⟩
      · rintro ⟨obj, -, hparse, rfl, rfl⟩
        exact ⟨_, hparse, obj, rfl, rfl, rfl⟩

/-- The row of a line that parses to an object. -/
theorem row_of_transform {ext : Externals} {env : TransformEnv} {raw db : String}
    {specialLocs : List String} {custom : CustomMappings} {table : String} {rec : OcsfRecord}
    {obj : Map} (hparse : ext.fromStr raw = some (.object obj))
    (h : transform ext env raw db specialLocs custom = some (table, rec)) :
    table = tableOf db specialLocs obj ∧ rec = buildRecord ext env custom raw obj := by
  obtain ⟨_, -, hobj, rfl, rfl⟩ := transform_eq_some_iff.mp h
  obtain rfl := Value.object.inj (Option.some.inj (hparse.symm.trans hobj))
  exact ⟨rfl, rfl⟩

/-! ## Parsers for some documents -/

/-- Externals that know one line and no timestamp. -/
def Externals.knowing (line : String) (document : Value) : Externals where
  fromStr raw := if raw = line then some document else none
  parseDateTime _ := none

@[simp] theorem fromStr_knowing (line : String) (document : Value) :
    (Externals.knowing line document).fromStr line = some document := if_pos rfl

theorem transform_knowing {line : String} (hblank : trim line ≠ "") (obj : Map)
    (env : TransformEnv) (db : String) (specialLocs : List String) (custom : CustomMappings) :
    transform (.knowing line (.object obj)) env line db specialLocs custom =
      some (tableOf db specialLocs obj,
        buildRecord (.knowing line (.object obj)) env custom line obj) :=
  transform_eq_some_iff.mpr ⟨obj, hblank, fromStr_knowing _ _, rfl, rfl⟩

/-- Externals that read what is written compactly, and no timestamp. -/
def Externals.reading : Externals where
  fromStr := Value.read
  parseDateTime _ := none

@[simp] theorem fromStr_reading (v : Value) : Externals.reading.fromStr v.toJson = some v :=
  Value.read_toJson v

theorem trim_toJson_ne_empty (obj : Map) : trim (Value.object obj).toJson ≠ "" := by
  refine trim_ne_empty (c := '\x7b') ?_ (by decide)
  rw [Value.toJson, String.toList_ofList]
  rfl

end WazuhOcsf
