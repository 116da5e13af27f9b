import WazuhOcsf.Pipeline.Blocks

/-!
# Fill-if-empty precedence

Every write to a typed column is guarded by the column being empty, so the field
paths win over the vendor blocks, these win over the mappings, and the mappings
win over the status backfill.  The one exception is a VPC flow log, whose protocol
is renamed in place.

`fillsOnly_native` says so of all native blocks.  What the mapping
table can change at all is then read off by comparing a record with the one of
the empty table.
-/

namespace WazuhOcsf

open Json RustString Draft

/-- The alert is an AWS VPC flow log. -/
def IsVpcFlow (data : Value) : Prop :=
  getStr (getSection (data.asObject.getD []) "aws") "source" = "vpc"

variable {scope : StrCol → Prop}

/-! ## The native blocks -/

/-- A block that renames no protocol. -/
theorem fillsOnly_of_writes {f : Draft → Draft} (h : Writes False (fun _ => True) f) :
    FillsOnly scope f :=
  h.fillsOnly False.elim

theorem fillsOnly_modulesBlock (data : Value) (fields syscheck predecoder : Map) :
    FillsOnly scope (modulesBlock data fields syscheck predecoder) :=
  fillsOnly_of_writes (writes_modulesBlock (fun _ => trivial) data fields syscheck predecoder)

theorem fillsOnly_awsCommonBlock (aws : Map) : FillsOnly scope (awsCommonBlock aws) :=
  fillsOnly_of_writes (writes_awsCommonBlock (fun _ _ => trivial) aws)

/-- The vendor blocks after AWS. -/
def laterVendors (fields : Map) : Draft → Draft :=
  seq
    [vendor fields "office365" office365Block,
     vendor fields "gcp" gcpBlock,
     vendor fields "docker" dockerBlock,
     vendor fields "ms-graph" msGraphBlock]

theorem fillsOnly_laterVendors (fields : Map) : FillsOnly scope (laterVendors fields) := by
  have hquiet : ∀ place ∉ quietPlaces, True := fun _ _ => trivial
  refine fillsOnly_of_writes (.seq _ ?_)
  simp [writes_vendor, writes_office365Block hquiet, writes_gcpBlock hquiet,
    writes_dockerBlock hquiet, writes_msGraphBlock hquiet]

/-- The three parts of native extraction. -/
theorem native_eq (data : Value) (syscheck predecoder : Map) (d : Draft) :
    native data syscheck predecoder d = laterVendors (data.asObject.getD [])
      (vendor (data.asObject.getD []) "aws" awsBlock
        (modulesBlock data (data.asObject.getD []) syscheck predecoder d)) := by
  rw [native, seq_cons, seq_cons, laterVendors]

/-- Native extraction overwrites no filled column, the protocol of a VPC flow log
excepted. -/
theorem fillsOnly_native {data : Value} (syscheck predecoder : Map)
    (hvpc : IsVpcFlow data → ¬ scope .networkProtocol) :
    FillsOnly scope (native data syscheck predecoder) := by
  have hwrites : Writes (IsVpcFlow data) (fun _ => True) (native data syscheck predecoder) :=
    writes_native (fun _ => trivial) syscheck predecoder id
  exact hwrites.fillsOnly hvpc

/-! ## VPC flow logs -/

/-- The flow log block renames the protocol first and overwrites nothing after. -/
theorem awsVpcBlock_preserves (aws : Map) (d : Draft) :
    Columns.Preserves scope (renameProtocol protocolName d).cols (awsVpcBlock aws d).cols :=
  fillsOnly_putAll aws _ _

theorem vendor_aws_of_vpcFlow {data : Value} (hvpc : IsVpcFlow data) :
    ∃ aws, ∀ d, vendor (data.asObject.getD []) "aws" awsBlock d =
      awsVpcBlock aws (awsCommonBlock aws d) := by
  unfold IsVpcFlow getSection at hvpc
  cases haws : ((data.asObject.getD []).get "aws").bind Value.asObject with
  | none =>
      rw [haws] at hvpc
      exact absurd hvpc (by decide)
  | some aws =>
      have hsource : getStr aws "source" = "vpc" := by rwa [haws] at hvpc
      refine ⟨aws, fun d => ?_⟩
      simp [vendor, haws, awsBlock, awsSourceBlock, hsource, seq_cons, seq_nil]

/-- The protocol of a VPC flow log is renamed, and kept from then on. -/
theorem native_protocol_of_vpcFlow {data : Value} (syscheck predecoder : Map)
    (hvpc : IsVpcFlow data) {d : Draft} (hfound : d.cols.str .networkProtocol ≠ "")
    (hname : protocolName (d.cols.str .networkProtocol) ≠ "") :
    (native data syscheck predecoder d).cols.str .networkProtocol =
      protocolName (d.cols.str .networkProtocol) := by
  obtain ⟨aws, haws⟩ := vendor_aws_of_vpcFlow hvpc
  rw [native_eq, haws]
  -- up to the flow log block the protocol is the one found
  set before := awsCommonBlock aws
    (modulesBlock data (data.asObject.getD []) syscheck predecoder d) with hbefore
  have hkept : Columns.Preserves (fun _ => True) d.cols before.cols :=
    .trans (fillsOnly_modulesBlock _ _ _ _ d) (fillsOnly_awsCommonBlock aws _)
  have hsame : before.cols.str .networkProtocol = d.cols.str .networkProtocol :=
    hkept.str _ trivial hfound
  have hrenamed : (renameProtocol protocolName before).cols.str .networkProtocol =
      protocolName (d.cols.str .networkProtocol) := by
    simp [renameProtocol, hsame, hfound]
  -- nothing after it overwrites the name
  have hafter : Columns.Preserves (fun _ => True) (renameProtocol protocolName before).cols
      (laterVendors (data.asObject.getD []) (awsVpcBlock aws before)).cols :=
    (awsVpcBlock_preserves aws before).trans (fillsOnly_laterVendors _ _)
  rw [hafter.str _ trivial (hrenamed ▸ hname), hrenamed]

/-! ## After the overlay -/

theorem backfillStatus_preserves (groups : List String) (classUid : BitVec 32) (cols : Columns) :
    Columns.Preserves scope cols (backfillStatus groups classUid cols) := by
  unfold backfillStatus
  dsimp only
  split
  · exact .trans (.fillStr _ _ _) (.fillStr _ _ _)
  · exact .fillStr _ _ _

/-- The backfill touches the status alone. -/
theorem backfillStatus_str (groups : List String) (classUid : BitVec 32) (cols : Columns)
    {c : StrCol} (hc : c ≠ .status) :
    (backfillStatus groups classUid cols).str c = cols.str c := by
  unfold backfillStatus
  dsimp only
  split <;> simp [Columns.fillStr_str, hc]

@[simp] theorem backfillStatus_num (groups : List String) (classUid : BitVec 32) (cols : Columns) :
    (backfillStatus groups classUid cols).num = cols.num := by
  unfold backfillStatus
  dsimp only
  split <;> simp

/-- The native blocks keep what the field paths find. -/
theorem nativeDraft_preserves (obj : Map) :
    Columns.Preserves (fun c => ¬ (c = .networkProtocol ∧ IsVpcFlow (dataOf obj)))
      (.find (dataOf obj)) (nativeDraft obj).cols := by
  have hfills : FillsOnly (fun c => ¬ (c = .networkProtocol ∧ IsVpcFlow (dataOf obj)))
      (native (dataOf obj) (getSection obj "syscheck") (getSection obj "predecoder")) :=
    fillsOnly_native _ _ fun hvpc hscope => hscope ⟨rfl, hvpc⟩
  exact hfills (foundDraft obj)

theorem nativeDraft_protocol_of_vpcFlow {obj : Map} (hvpc : IsVpcFlow (dataOf obj))
    (hname : protocolName (firstStr (dataOf obj) FieldPaths.protocol) ≠ "") :
    (nativeDraft obj).cols.str .networkProtocol =
      protocolName (firstStr (dataOf obj) FieldPaths.protocol) := by
  have hfound : firstStr (dataOf obj) FieldPaths.protocol ≠ "" := fun h => by
    rw [h] at hname
    exact hname (by decide)
  exact native_protocol_of_vpcFlow _ _ hvpc hfound hname

theorem mappedColumns_preserves (env : TransformEnv) (custom : CustomMappings) (obj : Map) :
    Columns.Preserves (fun _ => True) (nativeDraft obj).cols (mappedColumns env custom obj).1 := by
  unfold mappedColumns
  exact overlay_preserves _ ((nativeDraft obj).cols, (nativeDraft obj).extensions)

/-- What native extraction put into a column is what the record has. -/
theorem finalColumns_preserves (env : TransformEnv) (custom : CustomMappings) (obj : Map) :
    Columns.Preserves (fun _ => True) (nativeDraft obj).cols (finalColumns env custom obj) :=
  (mappedColumns_preserves env custom obj).trans (backfillStatus_preserves _ _ _)

theorem finalColumns_str (env : TransformEnv) (custom : CustomMappings) (obj : Map) {c : StrCol}
    (hc : c ≠ .status) :
    (finalColumns env custom obj).str c = (mappedColumns env custom obj).1.str c := by
  rw [finalColumns, backfillStatus_str _ _ _ hc]

/-- A mapped value is the final one; for the status, the backfill comes too late. -/
theorem finalColumns_str_of_mapped (env : TransformEnv) (custom : CustomMappings) (obj : Map)
    {c : StrCol} (h : (mappedColumns env custom obj).1.str c ≠ "") :
    (finalColumns env custom obj).str c = (mappedColumns env custom obj).1.str c := by
  have hkept : Columns.Preserves (fun _ => True) (mappedColumns env custom obj).1
      (finalColumns env custom obj) := by
    rw [finalColumns]
    exact backfillStatus_preserves _ _ _
  exact hkept.str _ trivial h

theorem finalColumns_num (env : TransformEnv) (custom : CustomMappings) (obj : Map) :
    (finalColumns env custom obj).num = (mappedColumns env custom obj).1.num := by
  rw [finalColumns, backfillStatus_num]

/-- With no mapping entry the overlay leaves the native columns alone. -/
theorem mappedColumns_of_empty (env : TransformEnv) (custom : CustomMappings) (obj : Map) :
    mappedColumns env { custom with fieldMap := .empty } obj =
      ((nativeDraft obj).cols, (nativeDraft obj).extensions) := by
  simp [mappedColumns, overlay]

/-- The mapping table changes no column that is filled without it, a backfilled
status apart. -/
theorem finalColumns_of_empty_preserved (env env' : TransformEnv) (custom : CustomMappings)
    (obj : Map) :
    Columns.Preserves (fun c => c = .status → (nativeDraft obj).cols.str .status ≠ "")
      (finalColumns env' { custom with fieldMap := .empty } obj) (finalColumns env custom obj) := by
  have hmapped := mappedColumns_preserves env custom obj
  constructor
  · intro c hnative hne
    by_cases hc : c = .status
    · subst hc
      have hkept := fun env custom =>
        (finalColumns_preserves env custom obj).str .status trivial (hnative rfl)
      rw [hkept, hkept]
    · rw [finalColumns_str env' _ _ hc, mappedColumns_of_empty] at hne ⊢
      rw [finalColumns_str _ _ _ hc]
      exact hmapped.str c trivial hne
  · intro c hne
    rw [finalColumns_num env', mappedColumns_of_empty] at hne ⊢
    rw [finalColumns_num]
    exact hmapped.num c hne

/-- Two calls with the same clock build the same record up to what the mapping
table feeds. -/
theorem buildRecord_frame (ext : Externals) {env env' : TransformEnv}
    {custom custom' : CustomMappings} (raw : String) (obj : Map) (hclock : env'.now = env.now)
    (hversion : custom'.ocsfVersion = custom.ocsfVersion) :
    buildRecord ext env' custom' raw obj =
      { buildRecord ext env custom raw obj with
        columns := (buildRecord ext env' custom' raw obj).columns
        statusId := (buildRecord ext env' custom' raw obj).statusId
        activityId := (buildRecord ext env' custom' raw obj).activityId
        activityName := (buildRecord ext env' custom' raw obj).activityName
        typeUid := (buildRecord ext env' custom' raw obj).typeUid
        extensions := (buildRecord ext env' custom' raw obj).extensions } := by
  have htime : timeOf ext env' obj = timeOf ext env obj := by rw [timeOf, timeOf, hclock]
  simp only [buildRecord, htime, hversion]

/-- The record of a line has the value the field paths find in every typed column
they find one for, a VPC flow log's protocol under its name; and against the
record of the empty mapping table no filled typed column changes, except a
backfilled status, and nothing changes outside the typed columns, the status,
activity and type ids and the extensions. -/
theorem transform_precedence {ext : Externals} {env : TransformEnv} {raw db : String}
    {specialLocs : List String} {custom : CustomMappings} {obj : Map} {table : String}
    {rec : OcsfRecord} (hparse : ext.fromStr raw = some (.object obj))
    (h : transform ext env raw db specialLocs custom = some (table, rec)) :
    (∀ c, firstStr (dataOf obj) c.paths ≠ "" → ¬ (c = .networkProtocol ∧ IsVpcFlow (dataOf obj)) →
      rec.columns.str c = firstStr (dataOf obj) c.paths) ∧
    (IsVpcFlow (dataOf obj) → protocolName (firstStr (dataOf obj) FieldPaths.protocol) ≠ "" →
      rec.columns.str .networkProtocol =
        protocolName (firstStr (dataOf obj) FieldPaths.protocol)) ∧
    (∀ c ∉ NumCol.counters, firstPort (dataOf obj) c.paths ≠ 0 →
      rec.columns.num c = (firstPort (dataOf obj) c.paths).setWidth c.width) ∧
    (∀ c ∈ NumCol.counters, firstU64 (dataOf obj) c.paths ≠ 0 →
      rec.columns.num c = (firstU64 (dataOf obj) c.paths).setWidth c.width) ∧
    ∀ baseEnv : TransformEnv, baseEnv.now = env.now →
      ∃ base, transform ext baseEnv raw db specialLocs { custom with fieldMap := .empty } =
          some (table, base) ∧
        (∀ c, (c = .status → (nativeDraft obj).cols.str .status ≠ "") → base.columns.str c ≠ "" →
          rec.columns.str c = base.columns.str c) ∧
        (∀ c, base.columns.num c ≠ 0 → rec.columns.num c = base.columns.num c) ∧
        base = { rec with
          columns := base.columns
          statusId := base.statusId
          activityId := base.activityId
          activityName := base.activityName
          typeUid := base.typeUid
          extensions := base.extensions } := by
  obtain ⟨_, hblank, -⟩ := transform_eq_some_iff.mp h
  obtain ⟨rfl, rfl⟩ := row_of_transform hparse h
  have hnative := nativeDraft_preserves obj
  have hfinal := finalColumns_preserves env custom obj
  have hnumber (c : NumCol) (hfound : NumCol.find (dataOf obj) c ≠ 0) :
      (finalColumns env custom obj).num c = NumCol.find (dataOf obj) c := by
    have hnum := hnative.num c hfound
    rw [hfinal.num c (hnum ▸ hfound), hnum]
    rfl
  rw [buildRecord_columns]
  refine ⟨fun c hfound hscope => ?_, fun hvpc hname => ?_, fun c hc hfound => ?_,
    fun c hc hfound => ?_, ?_⟩
  · have hstr := hnative.str c hscope hfound
    rw [hfinal.str c trivial (hstr ▸ hfound), hstr]
    rfl
  · have hrenamed := nativeDraft_protocol_of_vpcFlow hvpc hname
    rw [hfinal.str _ trivial (hrenamed ▸ hname), hrenamed]
  · rw [hnumber c (NumCol.find_ne_zero_of_port hc hfound), NumCol.find_port _ hc]
  · rw [hnumber c (NumCol.find_ne_zero_of_counter hc hfound), NumCol.find_counter _ hc]
  · intro baseEnv hclock
    have hcols := finalColumns_of_empty_preserved env baseEnv custom obj
    refine ⟨_, transform_eq_some_iff.mpr ⟨obj, hblank, hparse, rfl, rfl⟩, ?_, ?_, ?_⟩
    · rw [buildRecord_columns]
      exact hcols.str
    · rw [buildRecord_columns]
      exact hcols.num
    · exact buildRecord_frame ext raw obj hclock rfl

/-- An alert with a source address and a port, and two fields of the peer. -/
def firewallAlert : Map :=
  [("data", .object [("srcip", .string "10.0.0.1"), ("srcport", .string "8080"),
    ("peer", .string "10.9.9.9"), ("peer_port", .string "99")])]

/-- The text of `firewallAlert`. -/
def firewallLine : String := (Value.object firewallAlert).toJson

/-- The fields of the peer are mapped to the columns of the source. -/
def peerMappings : CustomMappings where
  ocsfVersion := "1.7.0"
  fieldMap := ⟨[("peer", "src_ip"), ("peer_port", "src_port")], by decide⟩

theorem transform_precedence_peer :
    let record := buildRecord (.knowing firewallLine (.object firewallAlert)) default peerMappings
      firewallLine firewallAlert
    record.columns.str .srcIp = "10.0.0.1" ∧ record.columns.num .srcPort = (8080 : BitVec 16) := by
  have h := transform_precedence (fromStr_knowing firewallLine _)
    (transform_knowing (trim_toJson_ne_empty firewallAlert) firewallAlert default "wazuh" []
      peerMappings)
  exact ⟨(h.1 .srcIp (by decide) (fun h => nomatch h.1)).trans (by decide),
    (h.2.2.1 .srcPort (by decide) (by decide)).trans rfl⟩

end WazuhOcsf
