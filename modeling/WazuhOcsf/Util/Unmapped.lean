import WazuhOcsf.Config
import WazuhOcsf.Pipeline.FieldPaths
import WazuhOcsf.Util.Json

/-!
# The unmapped-field report

Every leaf of an alert's `data` whose path is neither known, nor a source field of the
mapping table, nor below the two suppressed sections of CloudTrail, is counted; the
report lists the paths counted so far, the frequent ones first.  The lists of known
paths are those of `unmapped.rs`, entry for entry.
-/

namespace WazuhOcsf

open Json RustString

/-! ## The paths that are never reported -/

namespace KnownPaths

/-- Wazuh Vulnerability Detector. -/
def vulnerabilityPaths : List String :=
  ["vulnerability.cve", "vulnerability.title", "vulnerability.severity", "vulnerability.score.base",
   "vulnerability.score.version", "vulnerability.cvss.cvss3.base_score",
   "vulnerability.cvss.cvss3.vector.attack_vector", "vulnerability.cvss.cvss3.vector.availability",
   "vulnerability.cvss.cvss3.vector.confidentiality_impact",
   "vulnerability.cvss.cvss3.vector.integrity_impact",
   "vulnerability.cvss.cvss3.vector.privileges_required", "vulnerability.cvss.cvss3.vector.scope",
   "vulnerability.cvss.cvss3.vector.user_interaction", "vulnerability.status",
   "vulnerability.reference", "vulnerability.package.name", "vulnerability.package.version",
   "vulnerability.package.architecture", "vulnerability.package.condition",
   "vulnerability.package.source", "vulnerability.published", "vulnerability.updated",
   "vulnerability.enumeration", "vulnerability.classification", "vulnerability.type",
   "vulnerability.assigner", "vulnerability.cwe_reference", "vulnerability.rationale",
   "vulnerability.scanner.reference"]

/-- Windows Event Log. -/
def windowsPaths : List String :=
  ["win.system.providerName", "win.system.providerGuid", "win.system.processID",
   "win.system.eventID", "win.system.channel", "win.system.message", "win.system.severityValue",
   "win.system.eventRecordID", "win.system.keywords", "win.system.level", "win.system.opcode",
   "win.system.systemTime", "win.system.task", "win.system.threadID", "win.system.version",
   "win.system.eventSourceName", "win.eventdata.processName", "win.eventdata.logonType",
   "win.eventdata.authenticationPackageName", "win.eventdata.subjectUserSid",
   "win.eventdata.subjectUserName", "win.eventdata.subjectLogonId", "win.eventdata.targetUserSid",
   "win.eventdata.targetUserName", "win.eventdata.targetLogonId",
   "win.eventdata.targetLinkedLogonId", "win.eventdata.elevatedToken",
   "win.eventdata.impersonationLevel", "win.eventdata.keyLength", "win.eventdata.logonGuid",
   "win.eventdata.logonProcessName", "win.eventdata.virtualAccount", "win.eventdata.privilegeList",
   "win.eventdata.algorithmName", "win.eventdata.keyName", "win.eventdata.keyType",
   "win.eventdata.operation", "win.eventdata.providerName", "win.eventdata.returnCode",
   "win.eventdata.address", "win.eventdata.addressLength", "win.eventdata.queryName",
   "win.eventdata.data"]

/-- dpkg / apt Package Audit. -/
def dpkgPaths : List String :=
  ["package", "version", "arch", "dpkg_status"]

/-- Process / sudo context. -/
def processPaths : List String :=
  ["uid", "tty", "pwd"]

/-- Other generic decoder fields. -/
def decoderPaths : List String :=
  ["file", "title", "gid", "home", "shell", "id", "integration"]

/-- predecoder fields. -/
def predecoderPaths : List String :=
  ["predecoder.hostname", "predecoder.program_name", "predecoder.timestamp"]

/-- SCA (Security Configuration Assessment). -/
def scaPaths : List String :=
  ["sca.scan_id", "sca.policy", "sca.policy_id", "sca.description", "sca.file", "sca.score",
   "sca.total_checks", "sca.passed", "sca.failed", "sca.invalid", "sca.check.id", "sca.check.title",
   "sca.check.result", "sca.check.description", "sca.check.rationale", "sca.check.remediation",
   "sca.check.reason", "sca.check.references", "sca.check.command.0", "sca.check.file.0",
   "sca.check.compliance.cis", "sca.check.compliance.cis_csc", "sca.check.compliance.cis_csc_v7",
   "sca.check.compliance.cis_csc_v8", "sca.check.compliance.cmmc_v2.0",
   "sca.check.compliance.hipaa", "sca.check.compliance.iso_27001-2013",
   "sca.check.compliance.mitre_mitigations", "sca.check.compliance.mitre_tactics",
   "sca.check.compliance.mitre_techniques", "sca.check.compliance.nist_sp_800-53",
   "sca.check.compliance.pci_dss_v3.2.1", "sca.check.compliance.pci_dss_v4.0",
   "sca.check.compliance.soc_2"]

/-- Linux audit AVC context. -/
def auditPaths : List String :=
  ["audit.id", "audit.type", "audit.directory.name", "audit.euid", "audit.uid", "audit.gid",
   "audit.session"]

/-- AWS CloudTrail / integrations. -/
def awsPaths : List String :=
  ["aws.source_ip_address", "aws.sourceIPAddress", "aws.eventID", "aws.eventTime", "aws.eventType",
   "aws.eventCategory", "aws.eventVersion", "aws.requestID", "aws.awsRegion", "aws.userAgent",
   "aws.managementEvent", "aws.readOnly", "aws.recipientAccountId", "aws.sharedEventID",
   "aws.sessionCredentialFromConsole", "aws.source", "aws.errorMessage", "aws.aws_account_id",
   "aws.userIdentity.arn", "aws.userIdentity.type", "aws.userIdentity.invokedBy",
   "aws.userIdentity.accessKeyId", "aws.userIdentity.credentialId",
   "aws.userIdentity.sessionContext.attributes.creationDate",
   "aws.userIdentity.sessionContext.attributes.mfaAuthenticated",
   "aws.userIdentity.sessionContext.sessionIssuer.arn",
   "aws.userIdentity.sessionContext.sessionIssuer.accountId",
   "aws.userIdentity.sessionContext.sessionIssuer.principalId",
   "aws.userIdentity.sessionContext.sessionIssuer.type",
   "aws.userIdentity.sessionContext.webIdFederationData.federatedProvider",
   "aws.additionalEventData.UserName", "aws.additionalEventData.LoginTo",
   "aws.additionalEventData.MFAUsed", "aws.additionalEventData.MFAIdentifier",
   "aws.additionalEventData.MobileVersion", "aws.additionalEventData.CredentialType",
   "aws.additionalEventData.AuthWorkflowID", "aws.additionalEventData.keyMaterialId",
   "aws.tlsDetails.tlsVersion", "aws.tlsDetails.cipherSuite", "aws.tlsDetails.keyExchange",
   "aws.tlsDetails.clientProvidedHostHeader", "aws.responseElements.ConsoleLogin",
   "aws.responseElements.status", "aws.responseElements.publicIp",
   "aws.responseElements.networkInterfaceId", "aws.responseElements.allocationId",
   "aws.responseElements.snapshotId", "aws.responseElements.volumeId",
   "aws.requestParameters.keyId", "aws.requestParameters.networkInterfaceId",
   "aws.requestParameters.groupId", "aws.requestParameters.subnetId",
   "aws.requestParameters.snapshotId", "aws.requestParameters.volumeId",
   "aws.requestParameters.allocationId", "aws.resources.ARN", "aws.resources.type",
   "aws.resources.accountId", "aws.log_info.log_file", "aws.log_info.s3bucket",
   "aws.serviceEventDetails.UserAuthentication", "aws.serviceEventDetails.state",
   "aws.serviceEventDetails.CredentialChallenge", "aws.serviceEventDetails.CredentialVerification",
   "aws.serviceEventDetails.backupVaultName", "aws.serviceEventDetails.resourceType"]

end KnownPaths

/-- The lists `KNOWN_PATHS` is the union of: the paths of the typed columns, then those
that are natively extracted. -/
def knownLists : List (List String) :=
  open FieldPaths KnownPaths in
  [srcIp, dstIp, srcPort, dstPort, natSrcIp, natDstIp, natSrcPort, natDstPort, protocol, bytesIn,
   bytesOut, actorUser, targetUser, domain, url, httpMethod, httpStatus, appName, fileName,
   processName, processId, ruleName, category, ifaceIn, ifaceOut, srcHostname, dstHostname,
   action, status, vulnerabilityPaths, windowsPaths, dpkgPaths, processPaths, decoderPaths,
   predecoderPaths, scaPaths, auditPaths, awsPaths]

/-- `KNOWN_PATHS`. -/
def knownPaths : List String := knownLists.flatten

/-! ## The tracker -/

/-- Stats of one path. -/
structure FieldInfo where
  count : ℕ
  sample : String

/-- The contents of `UNMAPPED_TRACKER`. -/
abbrev Tracker := HashMap String FieldInfo

/-- The paths `track_unmapped_fields` does not skip. -/
def Reportable (custom : CustomMappings) (path : String) : Prop :=
  path ∉ knownPaths ∧ path ∉ custom.fieldMap.keys ∧
    ¬ (startsWith path "aws.requestParameters." ∨ startsWith path "aws.responseElements.")

instance (custom : CustomMappings) (path : String) : Decidable (Reportable custom path) :=
  inferInstanceAs (Decidable (_ ∧ _ ∧ _))

/-- One leaf. -/
def trackLeaf (custom : CustomMappings) (tracker : Tracker) (leaf : String × String) : Tracker :=
  if Reportable custom leaf.1 then
    tracker.upsert leaf.1 fun stored =>
      let info := stored.getD ⟨0, leaf.2⟩
      ⟨info.count + 1, if leaf.2 ≠ "" then leaf.2 else info.sample⟩
  else tracker

/-- `track_unmapped_fields`: every leaf of the data is tracked. -/
def trackUnmappedFields (data : Value) (custom : CustomMappings) (tracker : Tracker) : Tracker :=
  (flattenToPaths "" data).foldl (trackLeaf custom) tracker

/-! ## The report -/

/-- The order of the report. -/
def byFrequency (a b : String × FieldInfo) : Bool :=
  decide (b.2.count < a.2.count ∨ b.2.count = a.2.count ∧ a.1 ≤ b.1)

/-- The fields a report lists; without any there is no report. -/
def writeUnmappedReport (order : IterOrder (String × FieldInfo)) (tracker : Tracker) :
    Option (List String) :=
  if tracker.entries = [] then none
  else some (((order.arrange tracker.entries).mergeSort byFrequency).map Prod.fst)

end WazuhOcsf
