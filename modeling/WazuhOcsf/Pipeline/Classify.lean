import WazuhOcsf.Library.RustString

/-!
# Choosing the OCSF class

`classify.rs`: the first matching rule over the rule groups, the decoder name and
the location decides the class; the rule level decides the base severity.
-/

namespace WazuhOcsf

open RustString

/-- A class of the schema with its category. -/
structure OcsfClass where
  classUid : BitVec 32
  className : String
  categoryUid : BitVec 32
  categoryName : String
  deriving DecidableEq

namespace OcsfClass

/-- Files created, changed or deleted. -/
def fileSystemActivity : OcsfClass := ⟨1001, "File System Activity", 1, "System Activity"⟩
/-- Processes started or ended. -/
def processActivity : OcsfClass := ⟨1006, "Process Activity", 1, "System Activity"⟩
/-- Findings of the vulnerability detector. -/
def vulnerabilityFinding : OcsfClass := ⟨2002, "Vulnerability Finding", 2, "Findings"⟩
/-- SCA, OpenSCAP and CIS-CAT. -/
def complianceFinding : OcsfClass := ⟨2003, "Compliance Finding", 2, "Findings"⟩
/-- Everything else. -/
def detectionFinding : OcsfClass := ⟨2004, "Detection Finding", 2, "Findings"⟩
/-- Users and groups added, changed or removed. -/
def accountChange : OcsfClass := ⟨3001, "Account Change", 3, "Identity & Access Management"⟩
/-- Logons and logoffs. -/
def authentication : OcsfClass := ⟨3002, "Authentication", 3, "Identity & Access Management"⟩
/-- Firewall drops and allows. -/
def networkActivity : OcsfClass := ⟨4001, "Network Activity", 4, "Network Activity"⟩
/-- Web access logs. -/
def httpActivity : OcsfClass := ⟨4002, "HTTP Activity", 4, "Network Activity"⟩
/-- Name servers. -/
def dnsActivity : OcsfClass := ⟨4003, "DNS Activity", 4, "Network Activity"⟩
/-- DHCP leases. -/
def dhcpActivity : OcsfClass := ⟨4004, "DHCP Activity", 4, "Network Activity"⟩

/-- The classes the classifier can return. -/
def all : List OcsfClass :=
  [fileSystemActivity, processActivity, vulnerabilityFinding, complianceFinding,
   detectionFinding, accountChange, authentication, networkActivity, httpActivity, dnsActivity,
   dhcpActivity]

end OcsfClass

/-- The rules of the classifier, most specific first: the condition on groups,
lower-cased decoder and lower-cased location, and the class. -/
def classRules (groups : List String) (dec loc : String) : List (Bool × OcsfClass) :=
  let g := fun s => groups.contains s
  let ga := fun (ss : List String) => ss.any fun s => groups.contains s
  let has := contains dec
  [ -- Cloud and integration sources
   (has "vpcflow" || has "vpc-flow" || g "amazon-vpcflow" || g "aws_vpcflow", .networkActivity),
   (has "guardduty" || has "guard-duty" || g "amazon-guardduty" || g "aws-guardduty",
    .vulnerabilityFinding),
   (g "aws_inspector" || g "aws_macie", .vulnerabilityFinding),
   (g "aws_config", .complianceFinding),
   (g "aws_waf", .httpActivity),
   (g "aws_alb" || g "aws_elb", .httpActivity),
   (g "aws_s3" || g "s3", .httpActivity),
   (has "okta" || has "azure-ad" || has "azure_ad" || has "azure-active" || has "onelogin" ||
    g "okta" || g "azure-ad" || g "azure_ad" || g "onelogin", .authentication),
   (has "zeek" || has "bro-ids" || g "zeek" || g "bro", .networkActivity),
   ((has "cloudtrail" || has "aws-cloudtrail") && ga ["authentication", "aws_iam", "aws-iam"],
    .authentication),
   -- System Activity
   (ga ["syscheck", "syscheck_file", "sysmon_file", "fim_config"] ||
    (g "sysmon" && g "sysmon_file"), .fileSystemActivity),
   (ga ["sysmon_process", "process_creation", "process_activity", "execve", "audit_command"] ||
    (g "sysmon" && !ga ["sysmon_file", "sysmon_network_connection", "sysmon_dns_query",
      "sysmon_registry"]), .processActivity),
   -- Findings
   (ga ["vulnerability-detector", "vulnerability", "vuls"] || has "vulnerability",
    .vulnerabilityFinding),
   (ga ["oscap", "sca", "ciscat"], .complianceFinding),
   (has "ms-graph" || has "ms_graph" || g "ms-graph", .vulnerabilityFinding),
   -- Identity & Access Management
   (ga ["adduser", "addgroup", "userdel", "groupdel", "usermod", "account_changed",
      "user_management", "group_management"], .accountChange),
   (ga ["authentication", "authentication_failed", "authentication_success", "pam", "sudo", "su",
      "sshd", "win_authentication", "windows_logon"] ||
    dec == "pam" || dec == "sudo" || dec == "su" || dec == "sshd" || endsWith dec "_auth" ||
    has "auth", .authentication),
   -- Network Activity
   (ga ["dns", "sysmon_dns_query"] || has "dns" || has "named", .dnsActivity),
   (g "dhcp" || has "dhcp", .dhcpActivity),
   (has "cloudflare" || g "WAF" || g "Cloudflare" || g "cloudflare", .httpActivity),
   (ga ["web", "web-log", "web_accesslog", "web_attack", "apache", "nginx", "iis", "squid",
      "haproxy"] ||
    has "apache" || has "nginx" || has "iis" || has "squid" || endsWith loc "access.log" ||
    contains loc "access_log", .httpActivity),
   (ga ["firewall", "iptables", "ids", "suricata", "snort", "paloalto", "fortigate", "cisco",
      "pfsense", "checkpoint", "juniper", "netscreen", "sysmon_network_connection"] ||
    has "fortigate" || has "paloalto" || has "cisco" || has "pfsense" || has "checkpoint" ||
    has "iptables" || has "suricata" || has "snort" || has "netfilter", .networkActivity)]

/-- The class of an event; the fallback is Detection Finding. -/
def classifyEvent (groups : List String) (decoder location : String) : OcsfClass :=
  match (classRules groups (toAsciiLowercase decoder) (toAsciiLowercase location)).find?
      (fun rule => rule.1) with
  | some rule => rule.2
  | none => .detectionFinding

theorem classRules_mem_all (groups : List String) (decoder location : String) :
    ∀ rule ∈ classRules groups decoder location, rule.2 ∈ OcsfClass.all := by
  simp only [classRules, List.forall_mem_cons]
  simp [OcsfClass.all]

theorem classifyEvent_mem_all (groups : List String) (decoder location : String) :
    classifyEvent groups decoder location ∈ OcsfClass.all := by
  unfold classifyEvent
  split
  · next rule hfind => exact classRules_mem_all _ _ _ rule (List.mem_of_find?_eq_some hfind)
  · simp [OcsfClass.all]

/-- Severity id and label of a Wazuh rule level. -/
def mapSeverity (level : BitVec 64) : BitVec 8 × String :=
  let n := level.toNat
  if n = 0 then (0, "Unknown")
  else if n ≤ 3 then (1, "Informational")
  else if n ≤ 6 then (2, "Low")
  else if n ≤ 9 then (3, "Medium")
  else if n ≤ 12 then (4, "High")
  else (5, "Critical")

end WazuhOcsf
