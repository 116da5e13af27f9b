import WazuhOcsf.Pipeline.Sections
import WazuhOcsf.Util.Lookup

/-!
# The native blocks as a program

`native` is one straight run of statements, and which string of `data` a statement moves
is written in it.  Here the blocks are such a list (`program`): every statement names
the place its string comes from.  Running the list is running the blocks
(`native_eq_runAll`), so what reaches a column can be read off the list.
-/

namespace WazuhOcsf

open Json RustString Draft

/-! ## Statements -/

/-- The object under nested keys, or the empty map. -/
def sectionUnder (m : Map) (keys : List String) : Map := keys.foldl getSection m

/-- The string under nested keys, `""` if there is none. -/
def strUnder (m : Map) : List String → String
  | [] => ""
  | [key] => getStr m key
  | key :: rest => strUnder (getSection m key) rest

/-- The top-level entries of `data`. -/
def fieldsOf (data : Value) : Map := data.asObject.getD []

/-- The entries of `office365.Actor`. -/
def actorsOf (data : Value) : List Value :=
  (((getSection (fieldsOf data) "office365").get "Actor").bind Value.asArray).getD []

/-- What an entry of `office365.Actor` offers as the user: its id, if it is of type 5. -/
def actorId (item : Value) : String :=
  if (item.get "Type").bind Value.asStr = some "5" then
    ((item.get "ID").bind Value.asStr).getD ""
  else ""

/-- Where the string of a statement comes from. -/
inductive Source
  /-- Not one place of `data`: a section beside it, or several strings put together. -/
  | text (v : String)
  /-- The string under nested keys. -/
  | at (keys : List String)
  /-- The string at a dotted path. -/
  | path (p : String)
  /-- An entry of `office365.Actor`. -/
  | actor (i : ℕ)
  /-- The value of a mapped source field. -/
  | mapped (field : String)
  deriving DecidableEq

/-- The string of a source. -/
def Source.eval (data : Value) : Source → String
  | .text v => v
  | .at keys => strUnder (fieldsOf data) keys
  | .path p => jpath data p
  | .actor i => ((actorsOf data)[i]?.map actorId).getD ""
  | .mapped field => getDataField data field

/-- The tables that turn a label into a severity. -/
inductive Rating
  | guardDuty
  | scanner
  | securityHub
  | gcp
  | docker
  | msGraph
  deriving DecidableEq

namespace Rating

/-- The severity a label has in the table. -/
def table : Rating → String → Option (BitVec 8 × String)
  | guardDuty => Severity.ofGuardDuty
  | scanner => Severity.ofScanner
  | securityHub => Severity.ofSecurityHub
  | gcp => Severity.ofGcp
  | docker => fun level => if level = "" then none else some (Severity.ofDocker level)
  | msGraph => Severity.ofMsGraph

/-- The severity after a label; a Docker level only ever raises it. -/
def apply (rating : Rating) (label : String) (severity : BitVec 8 × String) :
    BitVec 8 × String :=
  match rating.table label with
  | none => severity
  | some rated => if rating = docker ∧ ¬ severity.1 < rated.1 then severity else rated

end Rating

/-- One statement of the native blocks. -/
inductive Assignment
  | fill (c : StrCol) (source : Source)
  | put (key : String) (source : Source)
  | rate (rating : Rating) (keys : List String)
  | processId (v : BitVec 32)
  | title (v : String)
  | finding (cve severity : String) (score : Float32)
  | protocol

/-- What a statement does to the draft. -/
def Assignment.run (data : Value) : Assignment → Draft → Draft
  | .fill c source => Draft.fill c (source.eval data)
  | .put key source => Draft.put key (source.eval data)
  | .rate rating keys => fun d =>
      let severity := rating.apply (strUnder (fieldsOf data) keys) (d.sevId, d.sevLabel)
      { d with sevId := severity.1, sevLabel := severity.2 }
  | .processId v => fillNum .processId v
  | .title v => fillTitle v
  | .finding cve severity score => setFinding cve severity score
  | .protocol => renameProtocol protocolName

/-- The statements one after the other. -/
def runAll (data : Value) (statements : List Assignment) : Draft → Draft :=
  seq (statements.map (Assignment.run data))

/-- The statements that copy strings of one section into the extensions. -/
def copies (keys : List String) (table : List (String × String)) : List Assignment :=
  table.map fun entry => .put entry.2 (.at (keys ++ [entry.1]))

/-! ## The modules -/

/-- The vulnerability detector. -/
def vulnerabilityProgram (data : Value) : List Assignment :=
  let cve := jpath data "vulnerability.cve"
  let score := orElse (getDataField data "vulnerability.cvss.cvss3.base_score")
    (getDataField data "vulnerability.score.base")
  if cve = "" then []
  else
    [.finding cve (jpath data "vulnerability.severity") ((parseF32 score).getD 0),
     .fill .url (.path "vulnerability.reference"),
     .fill .appName (.path "vulnerability.package.name"),
     .fill .status (.path "vulnerability.status")]

/-- Windows events. -/
def windowsProgram (data : Value) : List Assignment :=
  [.fill .appName (.path "win.system.providerName"),
   .processId ((parseUInt 32 (jpath data "win.system.processID")).getD 0),
   .fill .processName (.path "win.eventdata.processName"),
   .fill .actorUser (.text (orElse (jpath data "win.eventdata.subjectUserName")
     (jpath data "win.eventdata.subjectUserSid"))),
   .fill .targetUser (.text (orElse (jpath data "win.eventdata.targetUserName")
     (jpath data "win.eventdata.targetUserSid")))]

/-- The strings of the sections beside `data`. -/
def sectionsProgram (syscheck predecoder : Map) : List Assignment :=
  [.fill .fileName (.text (getStr syscheck "path")),
   .fill .srcHostname (.text (getStr predecoder "hostname")),
   .fill .appName (.text (getStr predecoder "program_name"))]

/-- SCA and auditd. -/
def complianceProgram (data : Value) : List Assignment :=
  [.title (jpath data "sca.check.title"),
   .fill .status (.path "sca.check.result"),
   .fill .appName (.path "sca.policy"),
   .fill .fileName (.path "audit.directory.name")]

/-- The extensions that every alert may have, and what comes with them. -/
def contextProgram (data : Value) (syscheck : Map) : List Assignment :=
  pathExtensions.map (fun entry => .put entry.2 (.path entry.1)) ++
    fimExtensions.map (fun entry => .put entry.2 (.text (getStr syscheck entry.1))) ++
    [.put "fim_changed_attrs"
      (.text (((syscheck.get "changed_attributes").map Value.toJson).getD ""))] ++
    copies [] [("version", "package_version"), ("arch", "package_arch"), ("uid", "actor_uid"),
      ("tty", "tty"), ("pwd", "working_dir")] ++
    [.fill .fileName (.at ["file"]), .title (getStr (fieldsOf data) "title")] ++
    copies [] [("gid", "actor_gid"), ("home", "actor_home_dir"), ("shell", "actor_shell")]

/-- The modules of Wazuh itself, in the order of the source. -/
def modulesProgram (data : Value) (syscheck predecoder : Map) : List Assignment :=
  vulnerabilityProgram data ++ windowsProgram data ++
    [.fill .appName (.at ["package"]), .fill .status (.at ["dpkg_status"])] ++
    sectionsProgram syscheck predecoder ++ complianceProgram data ++ contextProgram data syscheck

/-! ## AWS -/

/-- Who acted, as AWS says it. -/
def awsIdentityProgram : List Assignment :=
  copies ["aws", "userIdentity"] [("type", "aws_identity_type"), ("invokedBy", "aws_invoked_by"),
      ("accessKeyId", "aws_access_key_id"), ("credentialId", "aws_credential_id")] ++
    [.fill .actorUser (.at ["aws", "userIdentity", "sessionContext", "sessionIssuer", "arn"])] ++
    copies ["aws", "userIdentity", "sessionContext", "sessionIssuer"]
      [("type", "aws_session_issuer_type"), ("principalId", "aws_session_principal_id"),
       ("accountId", "aws_session_issuer_account")] ++
    copies ["aws", "userIdentity", "sessionContext", "attributes"]
      [("mfaAuthenticated", "aws_session_mfa_auth"), ("creationDate", "aws_session_created_at")] ++
    copies ["aws", "userIdentity", "sessionContext", "webIdFederationData"]
      [("federatedProvider", "aws_federated_provider")]

/-- What every AWS source is read for. -/
def awsCommonProgram (data : Value) : List Assignment :=
  let errorMessage := strUnder (fieldsOf data) ["aws", "errorMessage"]
  [.fill .srcIp (.at ["aws", "source_ip_address"]),
   .fill .actorUser (.at ["aws", "additionalEventData", "UserName"]),
   .fill .actorUser (.at ["aws", "userIdentity", "arn"]),
   .fill .domain (.at ["aws", "aws_account_id"]),
   .fill .action (.at ["aws", "eventType"]),
   .fill .appCategory (.at ["aws", "eventCategory"]),
   .fill .dstHostname (.at ["aws", "tlsDetails", "clientProvidedHostHeader"]),
   .fill .url (.at ["aws", "additionalEventData", "LoginTo"]),
   .fill .status (.at ["aws", "responseElements", "ConsoleLogin"]),
   .fill .status (.at ["aws", "serviceEventDetails", "UserAuthentication"]),
   .fill .status (.at ["aws", "responseElements", "status"]),
   .fill .status (.text (if errorMessage ≠ "" then "Failure" else "")),
   .put "aws_error_message" (.at ["aws", "errorMessage"])] ++
    copies ["aws"] [("eventID", "aws_event_id"), ("eventTime", "aws_event_time"),
       ("requestID", "aws_request_id"), ("awsRegion", "aws_region"),
       ("userAgent", "aws_user_agent"), ("recipientAccountId", "aws_recipient_account_id"),
       ("sharedEventID", "aws_shared_event_id"), ("managementEvent", "aws_management_event"),
       ("readOnly", "aws_read_only"),
       ("sessionCredentialFromConsole", "aws_session_from_console"), ("source", "aws_source"),
       ("eventVersion", "aws_event_version")] ++
    awsIdentityProgram ++
    copies ["aws", "additionalEventData"] [("MFAUsed", "aws_mfa_used"),
       ("MFAIdentifier", "aws_mfa_identifier"), ("CredentialType", "aws_credential_type"),
       ("AuthWorkflowID", "aws_auth_workflow_id"), ("MobileVersion", "aws_mobile_version"),
       ("keyMaterialId", "aws_key_material_id")] ++
    copies ["aws", "tlsDetails"] [("tlsVersion", "tls_version"),
       ("cipherSuite", "tls_cipher_suite"), ("keyExchange", "tls_key_exchange")] ++
    copies ["aws", "resources"] [("ARN", "aws_resource_arn"), ("type", "aws_resource_type"),
       ("accountId", "aws_resource_account_id")] ++
    copies ["aws", "requestParameters"] [("keyId", "aws_kms_key_id"),
       ("networkInterfaceId", "aws_req_network_interface_id"),
       ("groupId", "aws_req_security_group_id"), ("subnetId", "aws_req_subnet_id"),
       ("snapshotId", "aws_req_snapshot_id"), ("volumeId", "aws_req_volume_id"),
       ("allocationId", "aws_req_allocation_id")] ++
    copies ["aws", "responseElements"] [("publicIp", "aws_res_public_ip"),
       ("networkInterfaceId", "aws_res_network_interface_id"),
       ("allocationId", "aws_res_allocation_id"), ("snapshotId", "aws_res_snapshot_id"),
       ("volumeId", "aws_res_volume_id")] ++
    copies ["aws", "serviceEventDetails"] [("state", "aws_service_state"),
       ("CredentialChallenge", "aws_credential_challenge"),
       ("CredentialVerification", "aws_credential_verification"),
       ("backupVaultName", "aws_backup_vault_name"),
       ("resourceType", "aws_service_resource_type")] ++
    copies ["aws", "log_info"] [("log_file", "aws_log_file"), ("s3bucket", "aws_log_s3bucket")]

/-- The table that rates the findings of a source, and the place of the label. -/
def awsFindingRating (data : Value) (source : String) : Rating × List String :=
  if source = "guardduty" then (.guardDuty, ["aws", "severity"])
  else if (((sectionUnder (fieldsOf data) ["aws"]).get "severity").bind Value.asObject).isSome then
    (.scanner, ["aws", "severity", "description"])
  else (.scanner, ["aws", "severity"])

/-- Findings of GuardDuty, Inspector and Macie. -/
def awsFindingProgram (data : Value) (source : String) : List Assignment :=
  let rating := awsFindingRating data source
  [.fill .ruleName (.at ["aws", "title"]),
   .fill .appCategory (.at ["aws", "type"]),
   .fill .domain (.at ["aws", "accountId"]),
   .fill .action (.at ["aws", "service", "action", "actionType"]),
   .rate rating.1 rating.2,
   .fill .srcHostname (.at ["aws", "assetAttributes", "hostname"])] ++
    copies ["aws"] [("arn", "aws_finding_arn"), ("id", "aws_finding_id"),
      ("description", "aws_description"), ("region", "aws_region_src"),
      ("createdAt", "aws_created_at"), ("updatedAt", "aws_updated_at")]

/-- S3 access logs. -/
def awsS3Program (data : Value) : List Assignment :=
  let errorCode := strUnder (fieldsOf data) ["aws", "error_code"]
  [.fill .domain (.at ["aws", "bucket"]),
   .fill .status (.text (if errorCode ≠ "" ∧ errorCode ≠ "-" then "Failure" else "")),
   .put "aws_s3_error_code" (.text (if errorCode ≠ "-" then errorCode else ""))] ++
    copies ["aws"] [("user_agent", "aws_user_agent"), ("key", "aws_s3_key"),
      ("bytes_sent", "aws_s3_bytes_sent"), ("object_size", "aws_s3_object_size"),
      ("total_time", "aws_s3_total_time_ms"), ("turn_around_time", "aws_s3_turnaround_ms"),
      ("referrer", "aws_s3_referrer")]

/-- The statements of one AWS source. -/
def awsSourceProgram (data : Value) : List Assignment :=
  let source := strUnder (fieldsOf data) ["aws", "source"]
  if source = "guardduty" ∨ source = "inspector" ∨ source = "macie" then
    awsFindingProgram data source
  else if source = "vpc" then
    .protocol :: copies ["aws"] [("interface_id", "aws_interface_id"),
      ("account_id", "aws_flow_account_id"), ("log_status", "aws_log_status"),
      ("packets", "aws_packets"), ("version", "aws_flow_version")]
  else if source = "waf" then
    .fill .ruleName (.at ["aws", "terminatingRuleId"]) :: copies ["aws"]
      [("webaclId", "aws_waf_acl_id"), ("terminatingRuleId", "aws_waf_rule_id"),
       ("terminatingRuleType", "aws_waf_rule_type")]
  else if source = "alb" then
    .fill .action (.at ["aws", "action_executed"]) :: copies ["aws"]
      [("error_reason", "aws_alb_error_reason"), ("elb", "aws_alb_name"),
       ("user_agent", "aws_user_agent"), ("target_port", "aws_alb_target_port"),
       ("target_status_code", "aws_alb_target_status")]
  else if source = "s3_server_access" then awsS3Program data
  else if source = "config" then
    [.fill .domain (.at ["aws", "awsAccountId"]), .fill .ruleName (.at ["aws", "resourceId"])] ++
      copies ["aws"] [("resourceName", "aws_resource_name"),
        ("configurationItemCaptureTime", "aws_config_capture_time"),
        ("configuration.complianceType", "aws_compliance_type"),
        ("configuration.configRuleList.configRuleName", "aws_config_rule_name")]
  else if source = "trustedadvisor" then
    copies ["aws"] [("uuid", "aws_trusted_advisor_uuid"),
      ("category", "aws_trusted_advisor_category")]
  else if source = "inspector2" then
    copies ["aws"] [("packageVulnerabilityDetails.vulnerabilityId", "aws_v2_cve_id"),
      ("severity.label", "aws_v2_severity_label"), ("type", "aws_v2_finding_type")]
  else if source = "securityhub" then
    [.fill .ruleName (.at ["aws", "Title"]), .fill .appCategory (.at ["aws", "Type"]),
      .rate .securityHub ["aws", "Severity", "Label"]] ++
      copies ["aws"] [("Id", "aws_sh_finding_id"), ("ProductArn", "aws_sh_product_arn"),
        ("GeneratorId", "aws_sh_generator_id"), ("Description", "aws_description"),
        ("RecordState", "aws_sh_record_state"), ("WorkflowStatus", "aws_sh_workflow_status")]
  else []

/-! ## The other vendors -/

/-- Office 365. -/
def office365Program (data : Value) : List Assignment :=
  .fill .srcIp (.at ["office365", "ClientIPAddress"]) ::
    (List.range (actorsOf data).length).map (fun i => .fill .actorUser (.actor i)) ++
    [.fill .appName (.at ["office365", "Workload"]),
     .fill .appName (.at ["office365", "ApplicationDisplayName"]),
     .fill .appName (.at ["office365", "AppAccessContext", "ClientAppName"]),
     .fill .domain (.at ["office365", "OrganizationId"]),
     .fill .action (.at ["office365", "Operation"]),
     .fill .status (.at ["office365", "ResultStatus"])] ++
    copies ["office365"] [("AadAppId", "o365_aad_app_id"), ("ActorAppId", "o365_actor_app_id"),
       ("ActorContextId", "o365_actor_context_id"), ("ActorInfoString", "o365_actor_info"),
       ("AddOnGuid", "o365_addon_guid"), ("AppId", "o365_app_id"),
       ("AppIdentity", "o365_app_identity"), ("ApplicationId", "o365_application_id"),
       ("AssertingApplicationId", "o365_asserting_app_id"), ("AuthType", "o365_auth_type"),
       ("AuthenticationType", "o365_authentication_type"),
       ("AzureActiveDirectoryEventType", "o365_aad_event_type"),
       ("BrowserName", "browser_name"), ("BrowserVersion", "browser_version"),
       ("CallId", "o365_call_id"), ("ChatName", "o365_chat_name"),
       ("ChatThreadId", "o365_chat_thread_id"), ("ClientAppId", "o365_client_app_id"),
       ("ClientApplication", "o365_client_application"),
       ("ClientInfoString", "o365_client_info"), ("ClientRegion", "o365_client_region"),
       ("ClientRequestId", "o365_client_request_id"), ("UserType", "o365_user_type"),
       ("RecordType", "o365_record_type"), ("AgentId", "o365_agent_id"),
       ("AgentName", "o365_agent_name")] ++
    copies ["office365", "AppAccessContext"] [("AADSessionId", "o365_aad_session_id"),
       ("CorrelationId", "o365_correlation_id"), ("UniqueTokenId", "o365_token_id"),
       ("UserObjectId", "o365_user_object_id"), ("DeviceId", "o365_device_id"),
       ("ClientAppId", "o365_aac_client_app_id"), ("ClientAppName", "o365_aac_client_app_name")]

/-- Google Cloud. -/
def gcpProgram : List Assignment :=
  [.rate .gcp ["gcp", "severity"],
   .fill .actorUser (.at ["gcp", "protoPayload", "authenticationInfo", "principalEmail"]),
   .fill .srcIp (.at ["gcp", "protoPayload", "requestMetadata", "callerIp"]),
   .fill .action (.at ["gcp", "protoPayload", "methodName"]),
   .fill .url (.at ["gcp", "protoPayload", "resourceName"]),
   .fill .srcIp (.at ["gcp", "jsonPayload", "sourceIP"]),
   .fill .domain (.at ["gcp", "resource", "labels", "project_id"])] ++
    copies ["gcp"] [("s_request_id", "gcp_request_id"), ("insertId", "gcp_insert_id"),
      ("logName", "gcp_log_name")]

/-- The Docker listener. -/
def dockerProgram : List Assignment :=
  [.rate .docker ["docker", "level"],
   .fill .action (.at ["docker", "Action"]),
   .fill .appCategory (.at ["docker", "Type"]),
   .fill .appName (.at ["docker", "Actor", "Attributes", "name"])] ++
    copies ["docker", "Actor", "Attributes"] [("role.new", "docker_role_new"),
      ("role.old", "docker_role_old"), ("image", "docker_image")]

/-- MS Graph. -/
def msGraphProgram (data : Value) : List Assignment :=
  [.rate .msGraph ["ms-graph", "severity"],
   .fill .ruleName (.at ["ms-graph", "title"]),
   .fill .appCategory (.at ["ms-graph", "category"]),
   .fill .status (.at ["ms-graph", "status"]),
   .fill .appName (.text (orElse (strUnder (fieldsOf data) ["ms-graph", "detectionSource"])
     (strUnder (fieldsOf data) ["ms-graph", "serviceSource"]))),
   .fill .dstHostname (.at ["ms-graph", "resource"])] ++
    copies ["ms-graph"] [("id", "ms_graph_alert_id"), ("incidentId", "ms_graph_incident_id"),
       ("classification", "ms_graph_classification"),
       ("determination", "ms_graph_determination"),
       ("relationship", "ms_graph_relationship"),
       ("detectionSource", "ms_graph_detection_source"),
       ("serviceSource", "ms_graph_service_source"), ("tenantId", "ms_graph_tenant_id")]

/-- The statements of all native blocks. -/
def program (data : Value) (syscheck predecoder : Map) : List Assignment :=
  modulesProgram data syscheck predecoder ++ awsCommonProgram data ++ awsSourceProgram data ++
    office365Program data ++ gcpProgram ++ dockerProgram ++ msGraphProgram data

/-! ## Running the program -/

section

variable {data : Value}

theorem strUnder_concat (m : Map) (keys : List String) (key : String) :
    strUnder m (keys ++ [key]) = getStr (sectionUnder m keys) key := by
  induction keys generalizing m with
  | nil => rfl
  | cons first rest ih =>
      cases rest with
      | nil => rfl
      | cons second rest => exact ih (getSection m first)

theorem runAll_append (first second : List Assignment) (d : Draft) :
    runAll data (first ++ second) d = runAll data second (runAll data first d) := by
  rw [runAll, List.map_append, seq, List.foldl_append]
  rfl

theorem runAll_nil (d : Draft) : runAll data [] d = d := rfl

theorem runAll_cons (first : Assignment) (rest : List Assignment) (d : Draft) :
    runAll data (first :: rest) d = runAll data rest (first.run data d) := rfl

theorem runAll_copies (keys : List String) (table : List (String × String)) :
    runAll data (copies keys table) = putAll (sectionUnder (fieldsOf data) keys) table := by
  rw [runAll, copies, List.map_map, putAll]
  refine congrArg seq (List.map_congr_left fun entry _ => ?_)
  exact congrArg (Draft.put entry.2) (strUnder_concat _ keys entry.1)

/-- A table that is not Docker's sets the severity. -/
theorem run_rate {rating : Rating} (hdocker : rating ≠ .docker) (keys : List String) :
    (Assignment.rate rating keys).run data =
      setSeverity (rating.table (strUnder (fieldsOf data) keys)) := by
  funext d
  simp only [Assignment.run, Rating.apply, setSeverity, hdocker, false_and, if_false]
  cases rating.table (strUnder (fieldsOf data) keys) <;> rfl

theorem run_rate_docker (keys : List String) :
    (Assignment.rate .docker keys).run data =
      if strUnder (fieldsOf data) keys = "" then id
      else raiseSeverity (Severity.ofDocker (strUnder (fieldsOf data) keys)) := by
  funext d
  by_cases hlevel : strUnder (fieldsOf data) keys = ""
  · simp [Assignment.run, Rating.apply, Rating.table, hlevel]
  · simp only [Assignment.run, Rating.apply, Rating.table, if_neg hlevel, true_and, raiseSeverity]
    by_cases hraise : d.sevId < (Severity.ofDocker (strUnder (fieldsOf data) keys)).1 <;>
      simp [hraise, setSeverity]

theorem runAll_vulnerability :
    runAll data (vulnerabilityProgram data) = vulnerabilityBlock data := by
  unfold vulnerabilityProgram vulnerabilityBlock
  dsimp only
  split <;> rfl

theorem toJson_ne_empty (v : Value) : v.toJson ≠ "" := by
  obtain ⟨c, rest, hwrite, -⟩ := v.exists_write_eq_cons
  rw [Value.toJson, hwrite, ← String.toList_inj.ne, String.toList_ofList]
  exact List.cons_ne_nil c rest

theorem run_changedAttributes (syscheck : Map) :
    put "fim_changed_attrs" (((syscheck.get "changed_attributes").map Value.toJson).getD "") =
      putChangedAttributes syscheck := by
  funext d
  rw [put, putChangedAttributes]
  cases syscheck.get "changed_attributes" with
  | none => rfl
  | some attributes => rw [Option.map_some, Option.getD_some, if_neg (toJson_ne_empty attributes)]

theorem runAll_paths (table : List (String × String)) :
    runAll data (table.map fun entry => .put entry.2 (.path entry.1)) = putPaths data table := by
  rw [runAll, List.map_map]
  rfl

theorem runAll_texts (m : Map) (table : List (String × String)) :
    runAll data (table.map fun entry => .put entry.2 (.text (getStr m entry.1))) =
      putAll m table := by
  rw [runAll, List.map_map]
  rfl

theorem runAll_context (syscheck : Map) :
    runAll data (contextProgram data syscheck) = contextBlock data (fieldsOf data) syscheck := by
  funext d
  have hattributes : runAll data [.put "fim_changed_attrs"
      (.text (((syscheck.get "changed_attributes").map Value.toJson).getD ""))] =
        putChangedAttributes syscheck := run_changedAttributes syscheck
  simp only [contextProgram, runAll_append, runAll_copies, runAll_paths, runAll_texts, hattributes,
    contextBlock, seq_cons, seq_nil]
  rfl

theorem runAll_modules (syscheck predecoder : Map) :
    runAll data (modulesProgram data syscheck predecoder) =
      modulesBlock data (fieldsOf data) syscheck predecoder := by
  funext d
  simp only [modulesProgram, runAll_append, runAll_vulnerability, runAll_context, modulesBlock,
    seq_cons, seq_nil]
  rfl

theorem runAll_awsIdentity : runAll data awsIdentityProgram =
    awsIdentityBlock (sectionUnder (fieldsOf data) ["aws", "userIdentity"]) := by
  funext d
  simp only [awsIdentityProgram, runAll_append, runAll_copies, awsIdentityBlock, seq_cons, seq_nil]
  rfl

theorem runAll_awsCommon :
    runAll data (awsCommonProgram data) = awsCommonBlock (getSection (fieldsOf data) "aws") := by
  funext d
  simp only [awsCommonProgram, runAll_append, runAll_copies, runAll_awsIdentity, awsCommonBlock,
    seq_cons, seq_nil]
  rfl

/-- The rating of a finding sets the severity as its block does. -/
theorem run_awsFindingRating (data : Value) (source : String) :
    (Assignment.rate (awsFindingRating data source).1 (awsFindingRating data source).2).run data =
      setSeverity (if source = "guardduty" then
        Severity.ofGuardDuty (getStr (getSection (fieldsOf data) "aws") "severity")
        else Severity.ofScanner (awsFindingSeverity (getSection (fieldsOf data) "aws"))) := by
  have hunder : sectionUnder (fieldsOf data) ["aws"] = getSection (fieldsOf data) "aws" := rfl
  have hlabel : strUnder (fieldsOf data) ["aws", "severity", "description"] =
      getStr (getSection (getSection (fieldsOf data) "aws") "severity") "description" := rfl
  unfold awsFindingRating awsFindingSeverity
  rw [hunder]
  split
  · exact run_rate (by decide) _
  · cases hobject : ((getSection (fieldsOf data) "aws").get "severity").bind Value.asObject with
    | none => exact run_rate (by decide) _
    | some severity =>
        have hsection : getSection (getSection (fieldsOf data) "aws") "severity" = severity := by
          rw [getSection, hobject, Option.getD_some]
        rw [Option.isSome_some, if_pos rfl, run_rate (by decide), hlabel, hsection]
        rfl

theorem runAll_awsSource :
    runAll data (awsSourceProgram data) = awsSourceBlock (getSection (fieldsOf data) "aws") := by
  have hsource : strUnder (fieldsOf data) ["aws", "source"] =
    getStr (getSection (fieldsOf data) "aws") "source" := rfl
  have hunder : sectionUnder (fieldsOf data) ["aws"] = getSection (fieldsOf data) "aws" := rfl
  have hhead := run_awsFindingRating data
    (getStr (getSection (fieldsOf data) "aws") "source")
  have hlabel : (Assignment.rate .securityHub ["aws", "Severity", "Label"]).run data = _ :=
    run_rate (by decide) _
  unfold awsSourceProgram awsSourceBlock
  rw [hsource]
  dsimp only
  split_ifs <;> funext d
  · simp only [awsFindingProgram, awsFindingBlock, runAll_append, runAll_cons, runAll_nil,
      runAll_copies, hhead, seq_cons, seq_nil, hunder]
    rfl
  · simp only [awsVpcBlock, runAll_cons, runAll_copies, seq_cons, seq_nil, hunder]
    rfl
  · simp only [awsWafBlock, runAll_cons, runAll_copies, seq_cons, seq_nil, hunder]
    rfl
  · simp only [awsAlbBlock, runAll_cons, runAll_copies, seq_cons, seq_nil, hunder]
    rfl
  · simp only [awsS3Program, awsS3Block, runAll_append, runAll_cons, runAll_nil, runAll_copies,
      seq_cons, seq_nil, hunder]
    rfl
  · simp only [awsConfigBlock, runAll_append, runAll_cons, runAll_nil, runAll_copies, seq_cons,
      seq_nil, hunder]
    rfl
  · rw [runAll_copies, hunder, awsTrustedAdvisorBlock]
  · rw [runAll_copies, hunder, awsInspector2Block]
  · simp only [awsSecurityHubBlock, runAll_append, runAll_cons, runAll_nil, runAll_copies, hlabel,
      seq_cons, seq_nil, hunder]
    rfl
  · rfl

theorem fill_fill (c : StrCol) (v w : String) (d : Draft) :
    fill c w (fill c v d) = fill c (orElse v w) d := by
  simp only [fill, Columns.fillStr, Function.update_self, Function.update_idem, orElse]
  congr 3
  split_ifs <;> simp_all

theorem seq_fill (c : StrCol) (values : List String) :
    seq (values.map (fill c)) = fill c (firstOf values) := by
  funext d
  induction values generalizing d with
  | nil => simp [seq_nil, firstOf]
  | cons v rest ih => rw [List.map_cons, seq_cons, ih, fill_fill, firstOf, firstOf, List.foldr_cons]

theorem actorUpn_eq_firstOf (items : List Value) :
    actorUpn items = firstOf (items.map actorId) := by
  induction items with
  | nil => rfl
  | cons item rest ih =>
      rw [List.map_cons, firstOf, List.foldr_cons, ← firstOf, ← ih, actorId, actorUpn,
        List.findSome?_cons]
      by_cases htype : (item.get "Type").bind Value.asStr = some "5"
      · rw [if_pos htype, if_pos htype]
        cases (item.get "ID").bind Value.asStr with
        | none => rfl
        | some id =>
            by_cases hid : id = ""
            · subst hid
              rfl
            · rw [Option.filter_some, if_pos (by simpa using hid)]
              exact (if_neg hid).symm
      · rw [if_neg htype, if_neg htype]
        rfl

theorem runAll_actors :
    runAll data ((List.range (actorsOf data).length).map fun i => .fill .actorUser (.actor i)) =
      fill .actorUser (actorUpn (actorsOf data)) := by
  have hvalues : (List.range (actorsOf data).length).map
      (fun i => ((actorsOf data)[i]?.map actorId).getD "") = (actorsOf data).map actorId := by
    refine List.ext_getElem (by simp) fun i hi hi' => ?_
    simp at hi ⊢
    simp [hi]
  rw [actorUpn_eq_firstOf, ← hvalues, ← seq_fill, List.map_map, runAll, List.map_map]
  rfl

theorem runAll_office365 :
    runAll data (office365Program data) =
      office365Block (getSection (fieldsOf data) "office365") := by
  funext d
  simp only [office365Program, List.cons_append, runAll_append, runAll_cons, runAll_nil,
    runAll_copies, runAll_actors, office365Block, seq_cons, seq_nil]
  rfl

theorem runAll_gcp :
    runAll data gcpProgram = gcpBlock (getSection (fieldsOf data) "gcp") := by
  funext d
  have hrate : (Assignment.rate .gcp ["gcp", "severity"]).run data = _ := run_rate (by decide) _
  simp only [gcpProgram, runAll_append, runAll_cons, runAll_nil, runAll_copies, hrate, gcpBlock,
    seq_cons, seq_nil]
  rfl

theorem runAll_docker :
    runAll data dockerProgram = dockerBlock (getSection (fieldsOf data) "docker") := by
  funext d
  simp only [dockerProgram, runAll_append, runAll_cons, runAll_nil, runAll_copies,
    run_rate_docker, dockerBlock, seq_cons, seq_nil]
  rfl

theorem runAll_msGraph :
    runAll data (msGraphProgram data) = msGraphBlock (getSection (fieldsOf data) "ms-graph") := by
  funext d
  have hrate : (Assignment.rate .msGraph ["ms-graph", "severity"]).run data = _ :=
    run_rate (by decide) _
  simp only [msGraphProgram, runAll_append, runAll_cons, runAll_nil, runAll_copies, hrate,
    msGraphBlock, seq_cons, seq_nil]
  rfl

/-- A block that does nothing on an empty section runs whether there is one or not. -/
theorem vendor_eq {block : Map → Draft → Draft} (hempty : block [] = id) (fields : Map)
    (key : String) : vendor fields key block = block (getSection fields key) := by
  unfold vendor getSection
  split
  · next m hm => rw [hm, Option.getD_some]
  · next hnone => rw [hnone, Option.getD_none, hempty]

theorem putAll_nil (table : List (String × String)) : putAll [] table = id :=
  seq_eq_id (List.forall_mem_map.mpr fun entry _ => put_empty entry.2)

theorem getStr_nil (key : String) : getStr [] key = "" := rfl

theorem getSection_nil (key : String) : getSection [] key = [] := rfl

theorem awsBlock_nil : awsBlock [] = id := by
  have hidentity : awsIdentityBlock [] = id :=
    seq_eq_id (by simp [putAll_nil, getStr_nil, getSection_nil])
  have hcommon : awsCommonBlock [] = id :=
    seq_eq_id (by simp [putAll_nil, getStr_nil, getSection_nil, hidentity])
  have hsource : awsSourceBlock [] = id := rfl
  exact seq_eq_id (by simp [hcommon, hsource])

theorem office365Block_nil : office365Block [] = id := by
  have hactors : actorUpn (((Map.get [] "Actor").bind Value.asArray).getD []) = "" := rfl
  exact seq_eq_id (by simp [putAll_nil, getStr_nil, getSection_nil, hactors])

theorem gcpBlock_nil : gcpBlock [] = id := by
  have hseverity : setSeverity (Severity.ofGcp "") = id := rfl
  exact seq_eq_id (by simp [putAll_nil, getStr_nil, getSection_nil, hseverity])

theorem dockerBlock_nil : dockerBlock [] = id :=
  seq_eq_id (by simp [putAll_nil, getStr_nil, getSection_nil])

theorem msGraphBlock_nil : msGraphBlock [] = id := by
  have hseverity : setSeverity (Severity.ofMsGraph "") = id := rfl
  exact seq_eq_id (by simp [putAll_nil, getStr_nil, orElse, hseverity])

/-- The blocks are their program. -/
theorem native_eq_runAll (syscheck predecoder : Map) :
    native data syscheck predecoder = runAll data (program data syscheck predecoder) := by
  funext d
  simp only [program, runAll_append, runAll_modules, runAll_awsCommon, runAll_awsSource,
    runAll_office365, runAll_gcp, runAll_docker, runAll_msGraph, native, vendor_eq awsBlock_nil,
    vendor_eq office365Block_nil, vendor_eq gcpBlock_nil, vendor_eq dockerBlock_nil,
    vendor_eq msGraphBlock_nil, seq_cons, seq_nil]
  rfl

end

end WazuhOcsf
