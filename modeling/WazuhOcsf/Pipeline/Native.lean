import WazuhOcsf.Pipeline.Columns

/-!
# Native extraction

The blocks of `transform` that need no mapping entry, in the order of the source:
the generic Wazuh modules first, then one block per vendor integration.  A block
is a list of statements on the `Draft`; a run of near-identical `insert`
statements is a table of (source key, extension key) pairs.
-/

namespace WazuhOcsf

open Json RustString Draft

/-- `m.get(key).and_then(as_str).unwrap_or("")`. -/
def getStr (m : Map) (key : String) : String := ((m.get key).bind Value.asStr).getD ""

/-- The object under `key`, or the empty map. -/
def getSection (m : Map) (key : String) : Map := ((m.get key).bind Value.asObject).getD []

/-- The first of two strings that is not empty. -/
def orElse (v fallback : String) : String := if v = "" then fallback else v

/-- Copy string entries of `m` into the extensions. -/
def putAll (m : Map) (table : List (String × String)) : Draft → Draft :=
  seq (table.map fun entry => put entry.2 (getStr m entry.1))

/-- Copy string leaves found by a dotted path into the extensions. -/
def putPaths (data : Value) (table : List (String × String)) : Draft → Draft :=
  seq (table.map fun entry => put entry.2 (jpath data entry.1))

/-! ## Wazuh modules -/

/-- Vulnerability Detector (`data.vulnerability`), only when a CVE is named. -/
def vulnerabilityBlock (data : Value) : Draft → Draft :=
  let cve := jpath data "vulnerability.cve"
  let score := orElse (getDataField data "vulnerability.cvss.cvss3.base_score")
    (getDataField data "vulnerability.score.base")
  if cve = "" then id
  else
    seq
      [setFinding cve (jpath data "vulnerability.severity") ((parseF32 score).getD 0),
       fill .url (jpath data "vulnerability.reference"),
       fill .appName (jpath data "vulnerability.package.name"),
       fill .status (jpath data "vulnerability.status")]

/-- Windows Event Log (`data.win`). -/
def windowsBlock (data : Value) : Draft → Draft :=
  seq
    [fill .appName (jpath data "win.system.providerName"),
     fillNum .processId ((parseUInt 32 (jpath data "win.system.processID")).getD 0),
     fill .processName (jpath data "win.eventdata.processName"),
     fill .actorUser (orElse (jpath data "win.eventdata.subjectUserName")
       (jpath data "win.eventdata.subjectUserSid")),
     fill .targetUser (orElse (jpath data "win.eventdata.targetUserName")
       (jpath data "win.eventdata.targetUserSid"))]

/-- dpkg and apt audit. -/
def dpkgBlock (fields : Map) : Draft → Draft :=
  seq [fill .appName (getStr fields "package"), fill .status (getStr fields "dpkg_status")]

/-- The top-level `syscheck` and `predecoder` sections. -/
def sectionsBlock (syscheck predecoder : Map) : Draft → Draft :=
  seq
    [fill .fileName (getStr syscheck "path"),
     fill .srcHostname (getStr predecoder "hostname"),
     fill .appName (getStr predecoder "program_name")]

/-- Security Configuration Assessment and Linux audit, typed columns. -/
def complianceBlock (data : Value) : Draft → Draft :=
  seq
    [fillTitle (jpath data "sca.check.title"),
     fill .status (jpath data "sca.check.result"),
     fill .appName (jpath data "sca.policy"),
     fill .fileName (jpath data "audit.directory.name")]

/-- The extension keys filled from dotted paths. -/
def pathExtensions : List (String × String) :=
  [("win.system.eventID", "win_event_id"),
   ("win.system.channel", "win_channel"),
   ("win.eventdata.logonType", "win_logon_type"),
   ("win.eventdata.param1", "win_param1"),
   ("win.eventdata.param2", "win_param2"),
   ("win.eventdata.param3", "win_param3"),
   ("win.eventdata.param4", "win_param4"),
   ("win.eventdata.param5", "win_param5"),
   ("win.eventdata.param6", "win_param6"),
   ("win.eventdata.param7", "win_param7"),
   ("win.eventdata.binary", "win_event_binary"),
   ("sca.scan_id", "sca_scan_id"),
   ("sca.check.id", "sca_check_id"),
   ("sca.check.compliance.cis", "sca_cis_control"),
   ("sca.check.compliance.cis_csc", "sca_cis_csc"),
   ("sca.check.description", "sca_description"),
   ("sca.check.rationale", "sca_rationale"),
   ("sca.check.remediation", "sca_remediation"),
   ("sca.check.reason", "sca_reason"),
   ("sca.check.compliance.cis_csc_v7", "sca_cis_csc_v7"),
   ("sca.check.compliance.cis_csc_v8", "sca_cis_csc_v8"),
   ("sca.check.compliance.cmmc_v2.0", "sca_cmmc_v2"),
   ("sca.check.compliance.hipaa", "sca_hipaa"),
   ("sca.check.compliance.iso_27001-2013", "sca_iso_27001"),
   ("sca.check.compliance.mitre_mitigations", "sca_mitre_mitigations"),
   ("sca.check.compliance.mitre_tactics", "sca_mitre_tactics"),
   ("sca.check.compliance.mitre_techniques", "sca_mitre_techniques"),
   ("sca.check.compliance.nist_sp_800-53", "sca_nist_800_53"),
   ("sca.check.compliance.pci_dss_v3.2.1", "sca_pci_dss_v3"),
   ("sca.check.compliance.pci_dss_v4.0", "sca_pci_dss_v4"),
   ("sca.check.compliance.soc_2", "sca_soc2"),
   ("sca.check.command.0", "sca_check_command"),
   ("sca.check.file.0", "sca_check_file"),
   ("sca.check.references", "sca_references"),
   ("sca.policy_id", "sca_policy_id"),
   ("sca.description", "sca_policy_description"),
   ("sca.file", "sca_policy_file"),
   ("sca.score", "sca_score"),
   ("sca.total_checks", "sca_total_checks"),
   ("sca.passed", "sca_passed_count"),
   ("sca.failed", "sca_failed_count"),
   ("sca.invalid", "sca_invalid_count"),
   ("audit.type", "audit_type"),
   ("audit.id", "audit_id"),
   ("audit.euid", "audit_euid"),
   ("audit.uid", "audit_uid"),
   ("audit.gid", "audit_gid"),
   ("audit.session", "audit_session")]

/-- The file-integrity digests kept from `syscheck`. -/
def fimExtensions : List (String × String) :=
  [("md5_after", "fim_md5"), ("sha1_after", "fim_sha1"), ("sha256_after", "fim_sha256"),
   ("size_after", "fim_size"), ("mode", "fim_mode")]

/-- `fim_changed_attrs`: the whole attribute list as text. -/
def putChangedAttributes (syscheck : Map) (d : Draft) : Draft :=
  { d with
    extensions :=
      match syscheck.get "changed_attributes" with
      | some attributes => d.extensions.insert "fim_changed_attrs" attributes.toJson
      | none => d.extensions }

/-- Extension context of the generic modules, and the last generic fallbacks for
the file name and the finding title. -/
def contextBlock (data : Value) (fields syscheck : Map) : Draft → Draft :=
  seq
    [putPaths data pathExtensions,
     putAll syscheck fimExtensions,
     putChangedAttributes syscheck,
     putAll fields [("version", "package_version"), ("arch", "package_arch"),
       ("uid", "actor_uid"), ("tty", "tty"), ("pwd", "working_dir")],
     fill .fileName (getStr fields "file"),
     fillTitle (getStr fields "title"),
     putAll fields [("gid", "actor_gid"), ("home", "actor_home_dir"), ("shell", "actor_shell")]]

/-! ## Severity tables -/

namespace Severity

/-- Severity 5. -/
def critical : BitVec 8 × String := (5, "Critical")
/-- Severity 4. -/
def high : BitVec 8 × String := (4, "High")
/-- Severity 3. -/
def medium : BitVec 8 × String := (3, "Medium")
/-- Severity 2. -/
def low : BitVec 8 × String := (2, "Low")
/-- Severity 1. -/
def informational : BitVec 8 × String := (1, "Informational")

/-- GuardDuty: a score from 0.0 to 9.9, read in tenths. -/
def ofGuardDuty (score : String) : Option (BitVec 8 × String) :=
  if score = "" then none
  else
    let tenths := (((parseF32 score).getD 0) * 10).toUInt32.toNat
    some (if 80 ≤ tenths then critical
      else if 70 ≤ tenths then high
      else if 40 ≤ tenths then medium
      else if 10 ≤ tenths then low
      else informational)

/-- The label of a scanner: Inspector, Macie and the vulnerability detector. -/
def ofScanner (label : String) : Option (BitVec 8 × String) :=
  match toAsciiLowercase label with
  | "critical" => some critical
  | "high" => some high
  | "medium" | "moderate" => some medium
  | "low" => some low
  | "informational" | "info" | "none" => some informational
  | _ => none

/-- The label of a Security Hub finding. -/
def ofSecurityHub (label : String) : Option (BitVec 8 × String) :=
  match toAsciiLowercase label with
  | "critical" => some critical
  | "high" => some high
  | "medium" => some medium
  | "low" => some low
  | "informational" => some informational
  | _ => none

/-- The GCP scale. -/
def ofGcp (label : String) : Option (BitVec 8 × String) :=
  match toAsciiUppercase label with
  | "EMERGENCY" | "ALERT" => some critical
  | "CRITICAL" => some critical
  | "ERROR" => some high
  | "WARNING" => some medium
  | "NOTICE" => some low
  | "INFO" | "DEBUG" => some informational
  | _ => none

/-- The level of a Docker event. -/
def ofDocker (level : String) : BitVec 8 × String :=
  match toAsciiLowercase level with
  | "error" => high
  | "warning" | "warn" => medium
  | _ => informational

/-- The label of an MS Graph alert. -/
def ofMsGraph (label : String) : Option (BitVec 8 × String) :=
  match toAsciiLowercase label with
  | "high" => some high
  | "medium" => some medium
  | "low" => some low
  | "informational" => some informational
  | _ => none

end Severity

end WazuhOcsf
