import WazuhOcsf.Pipeline.Native

/-!
# Vendor integrations

The AWS, Office 365, GCP, Docker and MS Graph blocks of `transform`.  Each one
runs only when its section of `data` is an object, fills typed columns that are
still empty, copies extension context and may override the severity.
-/

namespace WazuhOcsf

open Json RustString Draft

/-! ## AWS -/

/-- `userIdentity` and its session context. -/
def awsIdentityBlock (identity : Map) : Draft → Draft :=
  let session := getSection identity "sessionContext"
  let issuer := getSection session "sessionIssuer"
  seq
    [putAll identity [("type", "aws_identity_type"), ("invokedBy", "aws_invoked_by"),
       ("accessKeyId", "aws_access_key_id"), ("credentialId", "aws_credential_id")],
     -- the role behind the session, when the identity itself has no ARN
     fill .actorUser (getStr issuer "arn"),
     putAll issuer [("type", "aws_session_issuer_type"),
       ("principalId", "aws_session_principal_id"), ("accountId", "aws_session_issuer_account")],
     putAll (getSection session "attributes") [("mfaAuthenticated", "aws_session_mfa_auth"),
       ("creationDate", "aws_session_created_at")],
     putAll (getSection session "webIdFederationData")
       [("federatedProvider", "aws_federated_provider")]]

/-- The severity label of an Inspector or Macie finding. -/
def awsFindingSeverity (aws : Map) : String :=
  match (aws.get "severity").bind Value.asObject with
  | some severity => getStr severity "description"
  | none => getStr aws "severity"

/-- GuardDuty, Inspector and Macie findings. -/
def awsFindingBlock (aws : Map) (source : String) : Draft → Draft :=
  seq
    [fill .ruleName (getStr aws "title"),
     fill .appCategory (getStr aws "type"),
     fill .domain (getStr aws "accountId"),
     fill .action (getStr (getSection (getSection aws "service") "action") "actionType"),
     setSeverity (if source = "guardduty" then Severity.ofGuardDuty (getStr aws "severity")
       else Severity.ofScanner (awsFindingSeverity aws)),
     fill .srcHostname (getStr (getSection aws "assetAttributes") "hostname"),
     putAll aws [("arn", "aws_finding_arn"), ("id", "aws_finding_id"),
       ("description", "aws_description"), ("region", "aws_region_src"),
       ("createdAt", "aws_created_at"), ("updatedAt", "aws_updated_at")]]

/-- The names of the common IANA protocol numbers. -/
def protocolName (protocol : String) : String :=
  match trim protocol with
  | "6" => "tcp"
  | "17" => "udp"
  | "1" => "icmp"
  | "58" => "icmpv6"
  | "47" => "gre"
  | "50" => "esp"
  | other => other

/-- VPC flow logs: the protocol is an IANA number or a name. -/
def awsVpcBlock (aws : Map) : Draft → Draft :=
  seq
    [renameProtocol protocolName,
     putAll aws [("interface_id", "aws_interface_id"), ("account_id", "aws_flow_account_id"),
       ("log_status", "aws_log_status"), ("packets", "aws_packets"),
       ("version", "aws_flow_version")]]

/-- The fields of an AWS WAF log. -/
def awsWafBlock (aws : Map) : Draft → Draft :=
  seq
    [fill .ruleName (getStr aws "terminatingRuleId"),
     putAll aws [("webaclId", "aws_waf_acl_id"), ("terminatingRuleId", "aws_waf_rule_id"),
       ("terminatingRuleType", "aws_waf_rule_type")]]

/-- The fields of a load balancer log. -/
def awsAlbBlock (aws : Map) : Draft → Draft :=
  seq
    [fill .action (getStr aws "action_executed"),
     putAll aws [("error_reason", "aws_alb_error_reason"), ("elb", "aws_alb_name"),
       ("user_agent", "aws_user_agent"), ("target_port", "aws_alb_target_port"),
       ("target_status_code", "aws_alb_target_status")]]

/-- S3 server access logs; a dash is their way of saying "no error". -/
def awsS3Block (aws : Map) : Draft → Draft :=
  let errorCode := getStr aws "error_code"
  seq
    [fill .domain (getStr aws "bucket"),
     fill .status (if errorCode ≠ "" ∧ errorCode ≠ "-" then "Failure" else ""),
     put "aws_s3_error_code" (if errorCode ≠ "-" then errorCode else ""),
     putAll aws [("user_agent", "aws_user_agent"), ("key", "aws_s3_key"),
       ("bytes_sent", "aws_s3_bytes_sent"), ("object_size", "aws_s3_object_size"),
       ("total_time", "aws_s3_total_time_ms"), ("turn_around_time", "aws_s3_turnaround_ms"),
       ("referrer", "aws_s3_referrer")]]

/-- The fields of an AWS Config item. -/
def awsConfigBlock (aws : Map) : Draft → Draft :=
  seq
    [fill .domain (getStr aws "awsAccountId"),
     fill .ruleName (getStr aws "resourceId"),
     putAll aws [("resourceName", "aws_resource_name"),
       ("configurationItemCaptureTime", "aws_config_capture_time"),
       ("configuration.complianceType", "aws_compliance_type"),
       ("configuration.configRuleList.configRuleName", "aws_config_rule_name")]]

/-- The fields of a Trusted Advisor check. -/
def awsTrustedAdvisorBlock (aws : Map) : Draft → Draft :=
  putAll aws [("uuid", "aws_trusted_advisor_uuid"), ("category", "aws_trusted_advisor_category")]

/-- The fields of an Inspector finding. -/
def awsInspector2Block (aws : Map) : Draft → Draft :=
  putAll aws [("packageVulnerabilityDetails.vulnerabilityId", "aws_v2_cve_id"),
    ("severity.label", "aws_v2_severity_label"), ("type", "aws_v2_finding_type")]

/-- The fields of a Security Hub finding. -/
def awsSecurityHubBlock (aws : Map) : Draft → Draft :=
  seq
    [fill .ruleName (getStr aws "Title"),
     fill .appCategory (getStr aws "Type"),
     setSeverity (Severity.ofSecurityHub (getStr (getSection aws "Severity") "Label")),
     putAll aws [("Id", "aws_sh_finding_id"), ("ProductArn", "aws_sh_product_arn"),
       ("GeneratorId", "aws_sh_generator_id"), ("Description", "aws_description"),
       ("RecordState", "aws_sh_record_state"), ("WorkflowStatus", "aws_sh_workflow_status")]]

/-- What `aws.source` adds to the common extraction. -/
def awsSourceBlock (aws : Map) : Draft → Draft :=
  let source := getStr aws "source"
  if source = "guardduty" ∨ source = "inspector" ∨ source = "macie" then
    awsFindingBlock aws source
  else if source = "vpc" then awsVpcBlock aws
  else if source = "waf" then awsWafBlock aws
  else if source = "alb" then awsAlbBlock aws
  else if source = "s3_server_access" then awsS3Block aws
  else if source = "config" then awsConfigBlock aws
  else if source = "trustedadvisor" then awsTrustedAdvisorBlock aws
  else if source = "inspector2" then awsInspector2Block aws
  else if source = "securityhub" then awsSecurityHubBlock aws
  else id

/-- What every AWS source has in common, CloudTrail above all. -/
def awsCommonBlock (aws : Map) : Draft → Draft :=
  let identity := getSection aws "userIdentity"
  let additional := getSection aws "additionalEventData"
  let tls := getSection aws "tlsDetails"
  let response := getSection aws "responseElements"
  let service := getSection aws "serviceEventDetails"
  let errorMessage := getStr aws "errorMessage"
  seq
    [fill .srcIp (getStr aws "source_ip_address"),
     fill .actorUser (getStr additional "UserName"),
     fill .actorUser (getStr identity "arn"),
     fill .domain (getStr aws "aws_account_id"),
     fill .action (getStr aws "eventType"),
     fill .appCategory (getStr aws "eventCategory"),
     fill .dstHostname (getStr tls "clientProvidedHostHeader"),
     fill .url (getStr additional "LoginTo"),
     fill .status (getStr response "ConsoleLogin"),
     fill .status (getStr service "UserAuthentication"),
     fill .status (getStr response "status"),
     -- an error message is present only on failed API calls
     fill .status (if errorMessage ≠ "" then "Failure" else ""),
     put "aws_error_message" errorMessage,
     putAll aws [("eventID", "aws_event_id"), ("eventTime", "aws_event_time"),
       ("requestID", "aws_request_id"), ("awsRegion", "aws_region"),
       ("userAgent", "aws_user_agent"), ("recipientAccountId", "aws_recipient_account_id"),
       ("sharedEventID", "aws_shared_event_id"), ("managementEvent", "aws_management_event"),
       ("readOnly", "aws_read_only"),
       ("sessionCredentialFromConsole", "aws_session_from_console"), ("source", "aws_source"),
       ("eventVersion", "aws_event_version")],
     awsIdentityBlock identity,
     putAll additional [("MFAUsed", "aws_mfa_used"), ("MFAIdentifier", "aws_mfa_identifier"),
       ("CredentialType", "aws_credential_type"), ("AuthWorkflowID", "aws_auth_workflow_id"),
       ("MobileVersion", "aws_mobile_version"), ("keyMaterialId", "aws_key_material_id")],
     putAll tls [("tlsVersion", "tls_version"), ("cipherSuite", "tls_cipher_suite"),
       ("keyExchange", "tls_key_exchange")],
     putAll (getSection aws "resources") [("ARN", "aws_resource_arn"),
       ("type", "aws_resource_type"), ("accountId", "aws_resource_account_id")],
     putAll (getSection aws "requestParameters") [("keyId", "aws_kms_key_id"),
       ("networkInterfaceId", "aws_req_network_interface_id"),
       ("groupId", "aws_req_security_group_id"), ("subnetId", "aws_req_subnet_id"),
       ("snapshotId", "aws_req_snapshot_id"), ("volumeId", "aws_req_volume_id"),
       ("allocationId", "aws_req_allocation_id")],
     putAll response [("publicIp", "aws_res_public_ip"),
       ("networkInterfaceId", "aws_res_network_interface_id"),
       ("allocationId", "aws_res_allocation_id"), ("snapshotId", "aws_res_snapshot_id"),
       ("volumeId", "aws_res_volume_id")],
     putAll service [("state", "aws_service_state"),
       ("CredentialChallenge", "aws_credential_challenge"),
       ("CredentialVerification", "aws_credential_verification"),
       ("backupVaultName", "aws_backup_vault_name"),
       ("resourceType", "aws_service_resource_type")],
     putAll (getSection aws "log_info") [("log_file", "aws_log_file"),
       ("s3bucket", "aws_log_s3bucket")]]

/-- CloudTrail and the other AWS sources (`data.aws`). -/
def awsBlock (aws : Map) : Draft → Draft := seq [awsCommonBlock aws, awsSourceBlock aws]

/-! ## Office 365 -/

/-- The UPN in an `Actor` array: the first entry of type 5 with a non-empty id. -/
def actorUpn (actors : List Value) : String :=
  (actors.findSome? fun item =>
    if (item.get "Type").bind Value.asStr = some "5" then
      ((item.get "ID").bind Value.asStr).filter (· ≠ "")
    else none).getD ""

/-- Office 365 unified audit log (`data.office365`). -/
def office365Block (o365 : Map) : Draft → Draft :=
  let access := getSection o365 "AppAccessContext"
  seq
    [fill .srcIp (getStr o365 "ClientIPAddress"),
     fill .actorUser (actorUpn (((o365.get "Actor").bind Value.asArray).getD [])),
     fill .appName (getStr o365 "Workload"),
     fill .appName (getStr o365 "ApplicationDisplayName"),
     fill .appName (getStr access "ClientAppName"),
     fill .domain (getStr o365 "OrganizationId"),
     fill .action (getStr o365 "Operation"),
     fill .status (getStr o365 "ResultStatus"),
     putAll o365 [("AadAppId", "o365_aad_app_id"), ("ActorAppId", "o365_actor_app_id"),
       ("ActorContextId", "o365_actor_context_id"), ("ActorInfoString", "o365_actor_info"),
       ("AddOnGuid", "o365_addon_guid"), ("AppId", "o365_app_id"),
       ("AppIdentity", "o365_app_identity"), ("ApplicationId", "o365_application_id"),
       ("AssertingApplicationId", "o365_asserting_app_id"), ("AuthType", "o365_auth_type"),
       ("AuthenticationType", "o365_authentication_type"),
       ("AzureActiveDirectoryEventType", "o365_aad_event_type"),
       ("BrowserName", "browser_name"), ("BrowserVersion", "browser_version"),
       ("CallId", "o365_call_id"), ("ChatName", "o365_chat_name"),
       ("ChatThreadId", "o365_chat_thread_id"), ("ClientAppId", "o365_client_app_id"),
       ("ClientApplication", "o365_client_application"),
       ("ClientInfoString", "o365_client_info"), ("ClientRegion", "o365_client_region"),
       ("ClientRequestId", "o365_client_request_id"), ("UserType", "o365_user_type"),
       ("RecordType", "o365_record_type"), ("AgentId", "o365_agent_id"),
       ("AgentName", "o365_agent_name")],
     putAll access [("AADSessionId", "o365_aad_session_id"),
       ("CorrelationId", "o365_correlation_id"), ("UniqueTokenId", "o365_token_id"),
       ("UserObjectId", "o365_user_object_id"), ("DeviceId", "o365_device_id"),
       ("ClientAppId", "o365_aac_client_app_id"), ("ClientAppName", "o365_aac_client_app_name")]]

/-! ## GCP, Docker and MS Graph -/

/-- GCP Cloud Logging (`data.gcp`). -/
def gcpBlock (gcp : Map) : Draft → Draft :=
  let proto := getSection gcp "protoPayload"
  seq
    [setSeverity (Severity.ofGcp (getStr gcp "severity")),
     fill .actorUser (getStr (getSection proto "authenticationInfo") "principalEmail"),
     fill .srcIp (getStr (getSection proto "requestMetadata") "callerIp"),
     fill .action (getStr proto "methodName"),
     fill .url (getStr proto "resourceName"),
     fill .srcIp (getStr (getSection gcp "jsonPayload") "sourceIP"),
     fill .domain (getStr (getSection (getSection gcp "resource") "labels") "project_id"),
     putAll gcp [("s_request_id", "gcp_request_id"), ("insertId", "gcp_insert_id"),
       ("logName", "gcp_log_name")]]

/-- Docker daemon events (`data.docker`). -/
def dockerBlock (docker : Map) : Draft → Draft :=
  let level := getStr docker "level"
  let attributes := getSection (getSection docker "Actor") "Attributes"
  seq
    [if level = "" then id else raiseSeverity (Severity.ofDocker level),
     fill .action (getStr docker "Action"),
     fill .appCategory (getStr docker "Type"),
     fill .appName (getStr attributes "name"),
     putAll attributes [("role.new", "docker_role_new"), ("role.old", "docker_role_old"),
       ("image", "docker_image")]]

/-- MS Graph security alerts (`data.ms-graph`). -/
def msGraphBlock (graph : Map) : Draft → Draft :=
  seq
    [setSeverity (Severity.ofMsGraph (getStr graph "severity")),
     fill .ruleName (getStr graph "title"),
     fill .appCategory (getStr graph "category"),
     fill .status (getStr graph "status"),
     fill .appName (orElse (getStr graph "detectionSource") (getStr graph "serviceSource")),
     fill .dstHostname (getStr graph "resource"),
     putAll graph [("id", "ms_graph_alert_id"), ("incidentId", "ms_graph_incident_id"),
       ("classification", "ms_graph_classification"),
       ("determination", "ms_graph_determination"),
       ("relationship", "ms_graph_relationship"),
       ("detectionSource", "ms_graph_detection_source"),
       ("serviceSource", "ms_graph_service_source"), ("tenantId", "ms_graph_tenant_id")]]

/-! ## All native extraction -/

/-- A vendor block, if its section of `data` is an object. -/
def vendor (fields : Map) (key : String) (block : Map → Draft → Draft) : Draft → Draft :=
  match (fields.get key).bind Value.asObject with
  | some m => block m
  | none => id

/-- The generic Wazuh modules, in the order of the source. -/
def modulesBlock (data : Value) (fields syscheck predecoder : Map) : Draft → Draft :=
  seq
    [vulnerabilityBlock data,
     windowsBlock data,
     dpkgBlock fields,
     sectionsBlock syscheck predecoder,
     complianceBlock data,
     contextBlock data fields syscheck]

/-- Everything `transform` extracts before the mapping overlay. -/
def native (data : Value) (syscheck predecoder : Map) : Draft → Draft :=
  let fields := data.asObject.getD []
  seq
    [modulesBlock data fields syscheck predecoder,
     vendor fields "aws" awsBlock,
     vendor fields "office365" office365Block,
     vendor fields "gcp" gcpBlock,
     vendor fields "docker" dockerBlock,
     vendor fields "ms-graph" msGraphBlock]

end WazuhOcsf
