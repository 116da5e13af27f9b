/-!
# The built-in field paths

For every typed column, the paths inside an alert's `data` object that are tried
for it, in order.  The arrays are those of `field_paths.rs`, entry for entry;
an entry that occurs twice there occurs twice here.
-/

namespace WazuhOcsf.FieldPaths

/-- `SRC_IP`. -/
def srcIp : List String :=
  ["srcip", "src_ip", "source_ip", "source_address", "sourceip", "sourceIpAddress", "src", "ip",
   "IP", "client", "host_ip", "ip_address", "proxy_ip", "xff_address", "locip", "ipaddr",
   "ip.address", "LocalIp", "identSrc", "assignip", "client_dyn_ip", "alert.src_ip",
   "win.eventdata.ipAddress", "win.eventdata.sourceAddress", "win.eventdata.IpAddress",
   "aws.sourceIPAddress", "aws.requestParameters.ipAddress", "aws.source_ip_address",
   "aws.service.action.networkConnectionAction.remoteIpDetails.ipAddressV4",
   "aws.service.action.portProbeAction.portProbeDetails.remoteIpDetails.ipAddressV4", "srcAddr",
   "gcp.protoPayload.requestMetadata.callerIp", "azure.callerIpAddress",
   "azure.properties.ipAddress", "azure.properties.clientIP", "okta.client.ipAddress",
   "office365.ActorIpAddress", "office365.ClientIP", "office365.ClientIPAddress", "github.actor_ip",
   "zeek.id.orig_h", "remip", "tunnelip", "forwardedfor", "x_forwarded_for", "cs1", "aws.srcaddr",
   "aws.httpRequest.clientIp", "aws.remote_ip", "aws.summary.IP", "gcp.jsonPayload.sourceIP",
   "src_endpoint.ip", "botnetip", "win.eventdata.sourceIp", "mariadb.ip", "forwarded_ip",
   "network.forwarded_ip_1"]

/-- `DST_IP`. -/
def dstIp : List String :=
  ["dstip", "dst_ip", "dest_ip", "destination_ip", "destip", "dstname", "destinationIpAddress",
   "destination_address", "dst", "dstcip", "dhost", "alert.dest_ip", "win.eventdata.destinationIp",
   "win.eventdata.DestinationIp", "dstAddr",
   "aws.service.action.networkConnectionAction.localIpDetails.ipAddressV4", "zeek.id.resp_h",
   "aws.dstaddr", "qualysguard.ip"]

/-- `SRC_PORT`. -/
def srcPort : List String :=
  ["srcport", "src_port", "source_port", "locport", "LocalPort", "s_port", "spt", "sport",
   "alert.src_port", "win.eventdata.ipPort", "win.eventdata.IpPort", "cs2", "srcPort",
   "aws.service.action.networkConnectionAction.remotePortDetails.port", "zeek.id.orig_p",
   "aws.srcport", "src_endpoint.port"]

/-- `DST_PORT`. -/
def dstPort : List String :=
  ["dstport", "dst_port", "dest_port", "destination_port", "remport", "dpt", "dport",
   "alert.dest_port", "win.eventdata.destinationPort", "win.eventdata.DestinationPort", "dstPort",
   "aws.service.action.networkConnectionAction.localPortDetails.port", "zeek.id.resp_p",
   "aws.dstport", "dst_endpoint.port"]

/-- `NAT_SRC_IP`. -/
def natSrcIp : List String :=
  ["nat_srcip", "nat_src_ip", "nat_source_ip", "transip", "mapped_src_ip", "xlatesrc",
   "tran_src_ip"]

/-- `NAT_DST_IP`. -/
def natDstIp : List String :=
  ["nat_dstip", "nat_dst_ip", "nat_destination_ip", "nat_dest_ip", "mapped_dst_ip", "xlatedst",
   "tran_dst_ip"]

/-- `NAT_SRC_PORT`. -/
def natSrcPort : List String :=
  ["nat_srcport", "nat_src_port", "nat_source_port", "transport", "mapped_src_port", "xlatesport",
   "tran_src_port"]

/-- `NAT_DST_PORT`. -/
def natDstPort : List String :=
  ["nat_dstport", "nat_dst_port", "nat_destination_port", "nat_dest_port", "mapped_dst_port",
   "xlatedport", "tran_dst_port"]

/-- `PROTOCOL`. -/
def protocol : List String :=
  ["protocol", "proto", "transport", "protocol_id", "Protocol", "ip_protocol", "alert.proto",
   "win.eventdata.protocol", "network_forwarded_protocol", "aws.protocol", "protocol_name"]

/-- `BYTES_IN`. -/
def bytesIn : List String :=
  ["rcvdbyte", "bytes_recv", "bytes_in", "bytesIn", "bytes", "BytesReceived", "bytes_received",
   "bytes_from_server", "aws.additionalEventData.bytesTransferredIn", "aws.bytes", "recv_bytes"]

/-- `BYTES_OUT`. -/
def bytesOut : List String :=
  ["sentbyte", "bytes_sent", "bytes_out", "bytesOut", "sent_bytes", "BytesSent",
   "bytes_from_client", "aws.additionalEventData.bytesTransferredOut"]

/-- `ACTOR_USER`. -/
def actorUser : List String :=
  ["srcuser", "src_user", "user", "username", "user_name", "source_user", "account", "admin",
   "userName", "userAccount", "userid", "userID", "LoggedUser", "SourceUserName", "client_user",
   "database_user", "ldap_data.Username", "audit.acct", "audit.auid", "login", "logname", "usrName",
   "xauthuser", "account_name", "subject.account_name", "win.eventdata.subjectUserName",
   "win.eventdata.SubjectUserName", "win.eventdata.targetUserName", "win.eventdata.TargetUserName",
   "win.eventdata.initiatorAccountName", "aws.userIdentity.userName",
   "aws.userIdentity.principalId", "aws.userIdentity.sessionContext.sessionIssuer.userName",
   "gcp.protoPayload.authenticationInfo.principalEmail", "azure.properties.userPrincipalName",
   "azure.properties.initiatedBy.user.userPrincipalName", "okta.actor.alternateId",
   "okta.actor.displayName", "office365.UserId", "aws.requester", "aws.userIdentity.userName",
   "aws.userIdentity.arn", "office365.UserKey", "github.actor", "mariadb.username", "cs5", "suser",
   "sourceUserName", "identity.user.name", "office365.actor", "win.eventdata.subjectAccountName"]

/-- `TARGET_USER`. -/
def targetUser : List String :=
  ["dstuser", "dst_user", "target_user", "destination_user", "TargetUserName", "new_user",
   "removed_user", "win.eventdata.targetUserName", "win.eventdata.TargetUserName",
   "win.system.security.userID", "win.eventdata.targetUserSid", "win.eventdata.targetSid"]

/-- `DOMAIN`. -/
def domain : List String :=
  ["domain", "account_domain", "dntdom", "subject.account_domain",
   "win.eventdata.subjectDomainName", "win.eventdata.SubjectDomainName",
   "win.eventdata.targetDomainName", "win.eventdata.TargetDomainName", "aws.userIdentity.accountId",
   "aws.recipientAccountId", "aws.awsRegion", "office365.OrganizationId", "azure.tenantId",
   "gcp.resource.labels.project_id", "github.org", "mariadb.database", "mongodb.database",
   "sqlserver.dbname", "gcp.bucket", "project_path"]

/-- `URL`. -/
def url : List String :=
  ["url", "uri", "request_uri", "URL", "win.eventdata.objectName", "aws.requestParameters.url",
   "request", "aws.requestParameters.bucketName", "gcp.protoPayload.resourceName", "github.repo",
   "office365.ObjectId", "office365.SiteUrl", "office365.SourceRelativeUrl",
   "azure.properties.resourceUri", "okta.target.displayName", "aws.request_uri",
   "aws.httpRequest.uri", "ClientRequestURI", "win.eventdata.shareName",
   "win.eventdata.targetObject", "url_path", "query_string"]

/-- `HTTP_METHOD`. -/
def httpMethod : List String :=
  ["method", "http_method", "reqtype", "aws.requestParameters.httpMethod",
   "aws.httpRequest.httpMethod", "aws.operation", "ClientRequestMethod", "request_method",
   "requestMethod"]

/-- `HTTP_STATUS`. -/
def httpStatus : List String :=
  ["http_response_code", "http_status_code", "http_status", "response_code", "status_code",
   "aws.elb_status_code", "aws.http_status", "EdgeResponseStatus", "gcp.jsonPayload.statusCode"]

/-- `APP_NAME`. -/
def appName : List String :=
  ["app", "application", "appName", "service", "service_name", "product_name", "product",
   "product.name", "protocol", "aws.eventSource", "aws.userIdentity.invokedBy", "aws.userAgent",
   "office365.Workload", "office365.ApplicationDisplayName", "office365.EventSource",
   "office365.UserAgent", "aws.elb", "aws.webaclId", "azure.resourceType",
   "azure.properties.appDisplayName", "okta.target.alternateId", "okta.client.userAgent.browser",
   "module", "win.system.providerName", "win.system.channel", "metadata.product.name",
   "mongodb.component", "aws.finding.ProductName", "ms-graph.detectionSource",
   "ms-graph.serviceSource", "ms-graph.resource", "jenkins.component", "osquery.name",
   "osquery.pack"]

/-- `FILE_NAME`. -/
def fileName : List String :=
  ["filename", "file_id", "sysmon.targetfilename", "audit.file.name", "office365.SourceFileName",
   "office365.SourceFileExtension", "TargetPath", "TargetFileName", "SourceFilePath", "ChildPath",
   "ParentPath", "win.eventdata.objectName", "defender.path", "defender.pathfound",
   "cylance_threats.file_name", "cylance_threats.file_path", "cylance_events.filepath",
   "infected_file_path", "target_file", "path", "Path", "sysmon.imageLoaded", "object",
   "url_filename", "sysmon.filecreated", "win.eventdata.targetFileName",
   "win.eventdata.targetFilename", "win.eventdata.originalFileName", "win.eventdata.imageLoaded",
   "audit.directory.name"]

/-- `PROCESS_NAME`. -/
def processName : List String :=
  ["sysmon.image", "sysmon.Image", "audit.exe", "audit.command", "audit.execve.a0",
   "audit.execve.a1", "audit.execve.a2", "command", "program", "process", "cmd",
   "SourceProcessName", "ChildProcessName", "defender.processname", "process.name",
   "sysmon.commandLine", "sysmon.targetImage", "sysmon.parentImage", "sysmon.sourceImage",
   "win.eventdata.image", "win.eventdata.Image", "win.eventdata.ProcessName",
   "win.eventdata.commandLine", "win.eventdata.parentCommandLine", "win.eventdata.imagePath",
   "win.eventdata.sourceImage", "win.eventdata.parentImage", "win.eventdata.targetImage",
   "parameters.program"]

/-- `PROCESS_ID`. -/
def processId : List String :=
  ["sysmon.processId", "sysmon.ProcessId", "sysmon.processid", "audit.pid", "pid", "PID",
   "process.pid", "win.eventdata.processId", "win.eventdata.ProcessId",
   "win.system.execution.processId", "sysmon.parentProcessId", "sqlserver.processid"]

/-- `RULE_NAME`. -/
def ruleName : List String :=
  ["rule_name", "attack.name", "attack", "sysmon.signature", "sysmon.ruleName", "signature",
   "ThreatName", "AnalyzerRuleName", "aws.title", "aws.check-name", "ruleName",
   "qualysguard.vulnerability_title", "cylance_threats.description",
   "aws.finding.Compliance.SecurityControlId", "virus", "defender.name"]

/-- `CATEGORY`. -/
def category : List String :=
  ["category", "cat", "appcat", "application_category", "subtype", "sub_cat", "subcat", "Category",
   "ThreatCategory", "threat_category", "log_type", "aws.type", "aws.resourceType", "sca.type",
   "mariadb.type", "win.eventdata.logonType", "office365.AuthenticationType", "event.type",
   "event_type", "subcategory", "ms-graph.category", "ms-graph.classification", "docker.Type",
   "gcp.resource.type", "log_subtype", "defender.category", "aws.userIdentity.type",
   "office365.InternalLogonType", "office365.LogonType"]

/-- `IFACE_IN`. -/
def ifaceIn : List String :=
  ["srcintf", "inbound_interface", "interface", "packet_incoming_interface", "source_zone",
   "srczone", "in_interface", "inzone", "ifname", "if_name", "interfaceId", "zeek._path", "lanin"]

/-- `IFACE_OUT`. -/
def ifaceOut : List String :=
  ["dstintf", "outbound_interface", "destination_zone", "dstzone", "out_interface", "outzone",
   "outintf", "dstinterface", "lanout"]

/-- `SRC_HOSTNAME`. -/
def srcHostname : List String :=
  ["hostname", "srchost", "src_host", "sourceHostname", "source_hostname", "dvchost", "host",
   "HostName", "AnalyzerHostName", "TargetHostName", "identHostName", "serial_number",
   "win.system.computer", "win.eventdata.workstationName", "win.eventdata.WorkstationName",
   "srcname", "sname", "caller_computer", "machine_name", "machinename", "sysmon.sourceHostname",
   "qualysguard.dns_hostname", "qualysguard.netbios_hostname", "firewall_name",
   "aws.assetAttributes.hostname", "sourceHostName", "system_name"]

/-- `DST_HOSTNAME`. -/
def dstHostname : List String :=
  ["dsthost", "dst_host", "destinationHostname", "destination_hostname",
   "sysmon.destinationHostname", "server_name", "device_name", "win.eventdata.destination",
   "office365.DeviceDisplayName", "botnedomain"]

/-- `ACTION`. -/
def action : List String :=
  ["action", "log_action", "Action", "ThreatActionTaken", "RegAction", "data.action",
   "alert.action", "fw_action", "act", "aws.eventName", "gcp.protoPayload.methodName",
   "azure.operationName", "azure.properties.operationType", "okta.displayMessage", "okta.eventType",
   "github.action", "office365.Operation", "defender.action", "operation", "rule_action",
   "utmaction", "aws.action", "WAFAction", "docker.Action", "activity_name", "audit.type",
   "audit_record.name", "gcp.protoPayload.methodName", "gcp.jsonPayload.rule_details.action",
   "mariadb.operation", "mariadb.action", "jenkins.action", "audit.op", "api.operation",
   "operationName"]

/-- `STATUS`. -/
def status : List String :=
  ["status", "result", "outcome", "reason", "severity", "data.status", "cylance_events.eventstatus",
   "win.eventdata.status", "win.eventdata.Status", "win.eventdata.failureReason", "aws.errorCode",
   "okta.outcome.result", "azure.resultType", "azure.resultDescription", "audit.res",
   "audit.success", "error", "event.severity", "aws.status", "aws.configurationItemStatus",
   "ms-graph.status", "ms-graph.determination", "docker.status", "audit_record.status",
   "gcp.jsonPayload.responseCode", "mariadb.retcode", "qualysguard.state",
   "cylance_threats.file_status", "win.eventdata.errorCode", "win.eventdata.failureCode",
   "win.system.severityValue", "sca.check.result", "sca.check.previous_result", "cis.result",
   "cis-data.result", "oscap.check.result", "oscap.check.severity", "oscap.scan.return_code",
   "virustotal.found", "virustotal.malicious", "virustotal.error", "qualysguard.severity", "rcode",
   "jenkins.severity", "sophos_fw_status_msg", "mongodb.severity", "cisco.severity",
   "osquery.columns.status", "fstatus", "resolved", "error_code", "aws.error_code",
   "aws.finding.Compliance.Status", "aws.finding.RecordState", "office365.ResultStatus"]

end WazuhOcsf.FieldPaths
