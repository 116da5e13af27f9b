import WazuhOcsf.Library.HashMap

/-!
# Configuration and custom mappings

The parts of `config.rs` the pipeline reads: the settings of `AppConfig`, the
mapping table of `field_mappings.toml` and the list of mapping targets that have
a typed column.
-/

namespace WazuhOcsf

/-- The mapping targets with a typed column; any other target is stored in
`extensions` and gets a column of its own. -/
def standardOcsfTargets : List String :=
  ["src_ip", "dst_ip", "src_port", "dst_port", "nat_src_ip", "nat_dst_ip", "nat_src_port",
   "nat_dst_port", "actor_user", "target_user", "domain", "url", "http_method", "http_status",
   "app_name", "src_hostname", "dst_hostname", "file_name", "process_name", "process_id",
   "rule_name", "category", "action", "status", "interface_in", "interface_out", "bytes_in",
   "bytes_out", "network_protocol"]

/-- The mapping table in force: source field to target. -/
structure CustomMappings where
  ocsfVersion : String
  fieldMap : HashMap String String
  ocsfRenames : HashMap String String := .empty

/-- `field_mappings.toml` as `toml::from_str` returns it. -/
structure MappingsToml where
  ocsfVersion : String
  fieldMappings : HashMap String String
  ocsfFieldRenames : HashMap String String

namespace CustomMappings

instance : Inhabited CustomMappings := ⟨{ ocsfVersion := "1.7.0", fieldMap := .empty }⟩

/-- `load`, given the bytes that reading the file returned. -/
def load (fromStr : String → Option MappingsToml) (read : Option (List UInt8)) :
    Option CustomMappings := do
  let bytes ← read
  let text ← String.fromUTF8? ⟨bytes.toArray⟩
  let parsed ← fromStr text
  return { ocsfVersion := parsed.ocsfVersion, fieldMap := parsed.fieldMappings,
           ocsfRenames := parsed.ocsfFieldRenames }

/-- The targets that need a column of their own, once for each entry that names
them, in the order the table is iterated. -/
def customColumnTargets (m : CustomMappings) (order : IterOrder (String × String)) :
    List String :=
  ((order.arrange m.fieldMap.entries).map Prod.snd).filter (· ∉ standardOcsfTargets)

end CustomMappings

/-- The settings the processing side reads. -/
structure AppConfig where
  clickhouseDb : String
  specialLocations : List String
  dataTtlDays : Option (BitVec 32)
  seekToEndOnFirstRun : Bool
  batchSize : ℕ
  channelCap : ℕ
  storeRawData : Bool

end WazuhOcsf
