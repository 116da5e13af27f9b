import WazuhOcsf.Pipeline.Columns

/-!
# The OCSF record and its validator

`record.rs` and `validator.rs`.  The 29 mapping-target columns of a record are its
`columns`; every other column is a field of its own.
-/

namespace WazuhOcsf

/-- One row for ClickHouse. -/
structure OcsfRecord where
  time : BitVec 32
  timeDt : String
  ocsfVersion : String
  classUid : BitVec 32
  className : String
  categoryUid : BitVec 32
  categoryName : String
  severityId : BitVec 8
  severity : String
  activityId : BitVec 8
  activityName : String
  typeUid : BitVec 32
  statusId : BitVec 8
  confidenceId : BitVec 8
  columns : Columns
  deviceUid : String
  deviceName : String
  deviceIp : String
  findingTitle : String
  findingUid : String
  findingTypes : String
  wazuhRuleLevel : BitVec 8
  wazuhFiredTimes : BitVec 32
  pciDss : String
  gdpr : String
  hipaa : String
  nist80053 : String
  attackTechnique : String
  attackId : String
  attackTactic : String
  cveId : String
  cvssScore : Float32
  srcLocation : String
  decoderName : String
  managerName : String
  eventData : String
  extensions : String
  unmapped : String
  rawData : String

/-! ## Validation -/

/-- `VALID_CLASS_UIDS`. -/
def validClassUids : List (BitVec 32) :=
  [1001, 1002, 1003, 1004, 1005, 1006, 1007, 1008,
   2001, 2002, 2003, 2004, 2005, 2006,
   3001, 3002, 3003, 3004, 3005, 3006,
   4001, 4002, 4003, 4004, 4005, 4006, 4007,
   5001, 5002, 5003, 5004,
   6001, 6002, 6003, 6004, 6005]

/-- `VALID_SEVERITY_IDS`. -/
def validSeverityIds : List (BitVec 8) := [0, 1, 2, 3, 4, 5, 6, 99]

/-- The activity ids a class admits; `none` for a class without a list. -/
def validActivityIdsForClass (classUid : BitVec 32) : Option (List (BitVec 8)) :=
  match classUid.toNat with
  | 1001 => some [1, 2, 3, 4, 5, 99]
  | 1006 => some [1, 2, 3, 99]
  | 2002 | 2003 | 2004 => some [1, 2, 3, 99]
  | 3001 => some [1, 2, 3, 7, 8, 9, 12, 99]
  | 3002 => some [1, 2, 3, 99]
  | 4001 => some [1, 2, 3, 4, 5, 6, 99]
  | 4002 => some [1, 2, 3, 4, 5, 6, 7, 99]
  | 4003 => some [1, 2, 3, 99]
  | 4004 => some [1, 2, 3, 4, 99]
  | _ => none

/-- The category a class belongs to. -/
def expectedCategory (classUid : BitVec 32) : Option (BitVec 32 × String) :=
  let n := classUid.toNat
  if 1001 ≤ n ∧ n ≤ 1099 then some (1, "System Activity")
  else if 2001 ≤ n ∧ n ≤ 2099 then some (2, "Findings")
  else if 3001 ≤ n ∧ n ≤ 3099 then some (3, "Identity & Access Management")
  else if 4001 ≤ n ∧ n ≤ 4099 then some (4, "Network Activity")
  else if 5001 ≤ n ∧ n ≤ 5099 then some (5, "Discovery")
  else if 6001 ≤ n ∧ n ≤ 6099 then some (6, "Application Activity")
  else none

namespace Violation

/-- No class of the schema. -/
def classUid : String := "class_uid not in OCSF 1.7.0 schema"
/-- No severity of the schema. -/
def severityId : String := "severity_id out of range (expected 0-6 or 99)"
/-- The type is not made of class and activity. -/
def typeUid : String := "type_uid != class_uid * 100 + activity_id"
/-- No activity of the class. -/
def activityId : String := "activity_id not valid for this class_uid"
/-- Not the category of the class. -/
def categoryUid : String := "category_uid inconsistent with class_uid"
/-- Not the name of the category of the class. -/
def categoryName : String := "category_name inconsistent with class_uid"
/-- The event has no time. -/
def time : String := "time is 0 — @timestamp missing or unparseable in source event"

end Violation

/-- The schema violations of a record. -/
def validateOcsfRecord (rec : OcsfRecord) : List String :=
  (if rec.classUid ∈ validClassUids then [] else [Violation.classUid]) ++
  (if rec.severityId ∈ validSeverityIds then [] else [Violation.severityId]) ++
  (if rec.typeUid = rec.classUid * 100 + rec.activityId.setWidth 32 then []
    else [Violation.typeUid]) ++
  (match validActivityIdsForClass rec.classUid with
    | some ids => if rec.activityId ∈ ids then [] else [Violation.activityId]
    | none => []) ++
  (match expectedCategory rec.classUid with
    | some (uid, name) =>
        (if rec.categoryUid = uid then [] else [Violation.categoryUid]) ++
        (if rec.categoryName = name then [] else [Violation.categoryName])
    | none => []) ++
  (if rec.time = 0 then [Violation.time] else [])

end WazuhOcsf
