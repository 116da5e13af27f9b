import WazuhOcsf.Pipeline.Places

/-!
# What the native blocks are made of

The blocks are walked here once.  `Writes` says which places a statement may write and
how it treats the severity and the protocol; every discipline of the statements follows
from it by induction (`Writes.fillsOnly`, `Writes.keepsLabel`, `Writes.together`,
`Writes.spares`).  One lemma per block gives its places.
-/

namespace WazuhOcsf

open Json RustString Draft

/-- The statement is built from the kinds of statement of the native blocks.  It writes
`places` at most, sets no severity without its label, and renames the protocol only if
`renames`. -/
inductive Writes (renames : Prop) (places : Place → Prop) : (Draft → Draft) → Prop
  | fill (c : StrCol) (v : String) (h : places (.str c)) : Writes renames places (fill c v)
  | fillNum (c : NumCol) (v : BitVec c.width) (h : places (.num c)) :
      Writes renames places (fillNum c v)
  | put (key v : String) (h : places (.extension key)) : Writes renames places (put key v)
  | putChangedAttributes (syscheck : Map) (h : places (.extension "fim_changed_attrs")) :
      Writes renames places (putChangedAttributes syscheck)
  | fillTitle (v : String) (h : places .title) : Writes renames places (fillTitle v)
  | setFinding (cve severity : String) (score : Float32) (h : places .finding) :
      Writes renames places (setFinding cve severity score)
  | setSeverity (severity : Option (BitVec 8 × String)) (h : places .severity)
      (hlabel : ∀ s ∈ severity, Labelled s) : Writes renames places (setSeverity severity)
  | raiseSeverity (severity : BitVec 8 × String) (h : places .severity)
      (hlabel : Labelled severity) : Writes renames places (raiseSeverity severity)
  | renameProtocol (rename : String → String) (h : places (.str .networkProtocol))
      (hrenames : renames) : Writes renames places (renameProtocol rename)
  | seq (statements : List (Draft → Draft))
      (h : ∀ statement ∈ statements, Writes renames places statement) :
      Writes renames places (seq statements)

variable {renames : Prop} {places : Place → Prop} {f : Draft → Draft}

/-! ## What follows for a statement -/

/-- Renaming the protocol is the only way to overwrite a filled column. -/
theorem Writes.fillsOnly {scope : StrCol → Prop} (h : Writes renames places f)
    (hscope : renames → ¬ scope .networkProtocol) : FillsOnly scope f := by
  induction h with
  | renameProtocol rename _ hrenames => exact fillsOnly_renameProtocol rename (hscope hrenames)
  | fillNum c v => exact fillsOnly_fillNum c v
  | seq _ _ ih => exact fillsOnly_seq ih
  | _ => simp

theorem Writes.keepsLabel (h : Writes renames places f) : KeepsLabel f := by
  induction h with
  | setSeverity _ _ hlabel => exact keepsLabel_setSeverity hlabel
  | raiseSeverity _ _ hlabel => exact keepsLabel_raiseSeverity hlabel
  | fillNum c v => exact keepsLabel_fillNum c v
  | seq _ _ ih => exact keepsLabel_seq ih
  | _ => simp

theorem Writes.together {place : Place} (h : Writes renames places f) : Together place f f := by
  induction h with
  | fillNum c v => exact together_fillNum c v
  | seq _ _ ih => exact together_seq_self ih
  | _ => simp

/-- Every other place is left alone. -/
theorem Writes.spares {place : Place} (h : Writes renames places f) (hplace : ¬ places place) :
    Together place f id := by
  have hne {other : Place} (hother : places other) : place ≠ other :=
    fun heq => hplace (heq ▸ hother)
  induction h with
  | fill c v h => exact spares_fill (hne h) v
  | fillNum c v h => exact spares_fillNum (hne h) v
  | put key v h => exact spares_put (hne h) v
  | putChangedAttributes syscheck h => exact spares_putChangedAttributes (hne h) syscheck
  | fillTitle v h => exact spares_fillTitle (hne h) v
  | setFinding cve severity score h => exact spares_setFinding (hne h) cve severity score
  | setSeverity severity h _ => exact spares_setSeverity (hne h) severity
  | raiseSeverity severity h _ => exact spares_raiseSeverity (hne h) severity
  | renameProtocol rename h _ => exact spares_renameProtocol (hne h) rename
  | seq _ _ ih => exact spares_seq ih

/-! ## Tables -/

theorem writes_id : Writes renames places id := .seq [] (List.forall_mem_nil _)

theorem writes_putAll (m : Map) {table : List (String × String)}
    (h : ∀ entry ∈ table, places (.extension entry.2)) :
    Writes renames places (putAll m table) :=
  .seq _ (List.forall_mem_map.mpr fun entry hentry => .put _ _ (h entry hentry))

theorem writes_putPaths (data : Value) {table : List (String × String)}
    (h : ∀ entry ∈ table, places (.extension entry.2)) :
    Writes renames places (putPaths data table) :=
  .seq _ (List.forall_mem_map.mpr fun entry hentry => .put _ _ (h entry hentry))

/-! ## The modules -/

/-- The columns that a string of one of the sections fills. -/
def sectionCols : List StrCol := [.fileName, .srcHostname, .appName]

/-- The extension keys that `syscheck` fills. -/
def sectionKeys : List String := fimExtensions.map Prod.snd ++ ["fim_changed_attrs"]

/-- The places that the strings of the sections go to. -/
def sectionPlaces : List Place := sectionCols.map .str ++ sectionKeys.map .extension

/-- The places that most blocks leave alone: those of the sections, the title and the
process id. -/
def quietPlaces : List Place := .num .processId :: .title :: sectionPlaces

theorem writes_vulnerabilityBlock (hquiet : ∀ place ∉ quietPlaces, places place)
    (happ : places (.str .appName)) (data : Value) :
    Writes renames places (vulnerabilityBlock data) := by
  unfold vulnerabilityBlock
  dsimp only
  split
  · exact writes_id
  · exact .seq _ (by simp +decide [Writes.fill, Writes.setFinding, hquiet, happ])

theorem writes_windowsBlock (hquiet : ∀ place ∉ quietPlaces, places place)
    (happ : places (.str .appName)) (hprocess : places (.num .processId)) (data : Value) :
    Writes renames places (windowsBlock data) := by
  have hid : Writes renames places
      (fillNum .processId ((parseUInt 32 (jpath data "win.system.processID")).getD 0)) :=
    .fillNum .processId _ hprocess
  exact .seq _ (by simpa +decide [Writes.fill, hquiet, happ] using hid)

theorem writes_dpkgBlock (hquiet : ∀ place ∉ quietPlaces, places place)
    (happ : places (.str .appName)) (fields : Map) : Writes renames places (dpkgBlock fields) :=
  .seq _ (by simp +decide [Writes.fill, hquiet, happ])

theorem writes_sectionsBlock (hcols : ∀ c ∈ sectionCols, places (.str c))
    (syscheck predecoder : Map) : Writes renames places (sectionsBlock syscheck predecoder) := by
  simp only [sectionCols, List.forall_mem_cons] at hcols
  exact .seq _ (by simp [Writes.fill, hcols])

theorem writes_complianceBlock (hquiet : ∀ place ∉ quietPlaces, places place)
    (hcols : ∀ c ∈ sectionCols, places (.str c)) (htitle : places .title) (data : Value) :
    Writes renames places (complianceBlock data) := by
  simp only [sectionCols, List.forall_mem_cons] at hcols
  exact .seq _ (by simp +decide [Writes.fill, Writes.fillTitle, hquiet, hcols, htitle])

theorem writes_contextBlock (hquiet : ∀ place ∉ quietPlaces, places place)
    (hfile : places (.str .fileName)) (hkeys : ∀ key ∈ sectionKeys, places (.extension key))
    (htitle : places .title) (data : Value) (fields syscheck : Map) :
    Writes renames places (contextBlock data fields syscheck) := by
  have hpaths : Writes renames places (putPaths data pathExtensions) :=
    writes_putPaths data fun entry hentry => hquiet _ (by revert entry; decide)
  have hdigests : Writes renames places (putAll syscheck fimExtensions) :=
    writes_putAll syscheck fun entry hentry =>
      hkeys _ (List.mem_append_left _ (List.mem_map_of_mem hentry))
  have hattributes : Writes renames places (putChangedAttributes syscheck) :=
    .putChangedAttributes syscheck (hkeys _ (by decide))
  exact .seq _ (by
    simp +decide [Writes.fill, Writes.fillTitle, writes_putAll, hquiet, hpaths, hdigests,
      hattributes, hfile, htitle])

theorem writes_modulesBlock (hall : ∀ place, places place) (data : Value)
    (fields syscheck predecoder : Map) :
    Writes renames places (modulesBlock data fields syscheck predecoder) := by
  have hquiet : ∀ place ∉ quietPlaces, places place := fun place _ => hall place
  have hcols : ∀ c ∈ sectionCols, places (.str c) := fun c _ => hall (.str c)
  have hkeys : ∀ key ∈ sectionKeys, places (.extension key) := fun key _ => hall (.extension key)
  exact .seq _ (by
    simp [writes_vulnerabilityBlock hquiet, writes_windowsBlock hquiet, writes_dpkgBlock hquiet,
      writes_sectionsBlock hcols, writes_complianceBlock hquiet hcols,
      writes_contextBlock hquiet _ hkeys, hall])

/-! ## AWS -/

theorem writes_awsCommonBlock (hquiet : ∀ place ∉ quietPlaces, places place) (aws : Map) :
    Writes renames places (awsCommonBlock aws) := by
  have hidentity (identity : Map) : Writes renames places (awsIdentityBlock identity) :=
    .seq _ (by simp +decide [Writes.fill, writes_putAll, hquiet])
  exact .seq _ (by simp +decide [Writes.fill, Writes.put, writes_putAll, hquiet, hidentity])

/-- The alert is a finding of an AWS service. -/
def IsAwsFinding (aws : Map) : Prop :=
  getStr aws "source" = "guardduty" ∨ getStr aws "source" = "inspector" ∨
    getStr aws "source" = "macie"

instance (aws : Map) : Decidable (IsAwsFinding aws) := by unfold IsAwsFinding; infer_instance

/-- One case for each AWS source. -/
theorem awsSourceBlock_cases {P : (Draft → Draft) → Prop} (aws : Map)
    (finding : IsAwsFinding aws → P (awsFindingBlock aws (getStr aws "source")))
    (vpc : getStr aws "source" = "vpc" → P (awsVpcBlock aws)) (waf : P (awsWafBlock aws))
    (alb : P (awsAlbBlock aws)) (s3 : P (awsS3Block aws)) (config : P (awsConfigBlock aws))
    (trustedAdvisor : P (awsTrustedAdvisorBlock aws)) (inspector2 : P (awsInspector2Block aws))
    (securityHub : P (awsSecurityHubBlock aws)) (other : P id) : P (awsSourceBlock aws) := by
  unfold awsSourceBlock
  exact iteInduction finding fun _ => iteInduction vpc fun _ =>
    iteInduction (fun _ => waf) fun _ => iteInduction (fun _ => alb) fun _ =>
    iteInduction (fun _ => s3) fun _ => iteInduction (fun _ => config) fun _ =>
    iteInduction (fun _ => trustedAdvisor) fun _ => iteInduction (fun _ => inspector2) fun _ =>
    iteInduction (fun _ => securityHub) fun _ => other

/-- Only a finding names a host, and only a VPC flow log renames the protocol. -/
theorem writes_awsSourceBlock (hquiet : ∀ place ∉ quietPlaces, places place) {aws : Map}
    (hhost : IsAwsFinding aws → places (.str .srcHostname))
    (hvpc : getStr aws "source" = "vpc" → renames) :
    Writes renames places (awsSourceBlock aws) := by
  have hset (severity : Option (BitVec 8 × String)) (hlabel : ∀ s ∈ severity, Labelled s) :
      Writes renames places (setSeverity severity) :=
    .setSeverity severity (hquiet _ (by decide)) hlabel
  apply awsSourceBlock_cases aws
  case finding =>
    intro hfinding
    have hlabel : ∀ s ∈ (if getStr aws "source" = "guardduty" then
        Severity.ofGuardDuty (getStr aws "severity")
        else Severity.ofScanner (awsFindingSeverity aws)), Labelled s := by
      split
      · exact Severity.labelled_ofGuardDuty _
      · exact Severity.labelled_ofScanner _
    have hseverity := hset _ hlabel
    exact .seq _ (by
      simp +decide [Writes.fill, writes_putAll, hquiet, hhost hfinding, hseverity])
  case vpc =>
    intro hsource
    have hrename : Writes renames places (renameProtocol protocolName) :=
      .renameProtocol _ (hquiet _ (by decide)) (hvpc hsource)
    exact .seq _ (by simp +decide [writes_putAll, hquiet, hrename])
  case securityHub =>
    have hseverity := hset _ (Severity.labelled_ofSecurityHub
      (getStr (getSection aws "Severity") "Label"))
    exact .seq _ (by simp +decide [Writes.fill, writes_putAll, hquiet, hseverity])
  case trustedAdvisor => exact writes_putAll aws fun entry h => hquiet _ (by revert entry; decide)
  case inspector2 => exact writes_putAll aws fun entry h => hquiet _ (by revert entry; decide)
  case other => exact writes_id
  all_goals exact .seq _ (by simp +decide [Writes.fill, Writes.put, writes_putAll, hquiet])

theorem writes_awsBlock (hquiet : ∀ place ∉ quietPlaces, places place) {aws : Map}
    (hhost : IsAwsFinding aws → places (.str .srcHostname))
    (hvpc : getStr aws "source" = "vpc" → renames) : Writes renames places (awsBlock aws) :=
  .seq _ (by simp [writes_awsCommonBlock hquiet, writes_awsSourceBlock hquiet hhost hvpc])

/-! ## The other vendors -/

theorem writes_office365Block (hquiet : ∀ place ∉ quietPlaces, places place)
    (happ : places (.str .appName)) (o365 : Map) :
    Writes renames places (office365Block o365) :=
  .seq _ (by simp +decide [Writes.fill, writes_putAll, hquiet, happ])

theorem writes_gcpBlock (hquiet : ∀ place ∉ quietPlaces, places place) (gcp : Map) :
    Writes renames places (gcpBlock gcp) := by
  have hseverity (label : String) : Writes renames places (setSeverity (Severity.ofGcp label)) :=
    .setSeverity _ (hquiet _ (by decide)) (Severity.labelled_ofGcp label)
  exact .seq _ (by simp +decide [Writes.fill, writes_putAll, hquiet, hseverity])

theorem writes_dockerBlock (hquiet : ∀ place ∉ quietPlaces, places place)
    (happ : places (.str .appName)) (docker : Map) :
    Writes renames places (dockerBlock docker) := by
  have hlevel : Writes renames places (if getStr docker "level" = "" then id
      else raiseSeverity (Severity.ofDocker (getStr docker "level"))) := by
    split
    · exact writes_id
    · exact .raiseSeverity _ (hquiet _ (by decide)) (Severity.labelled_ofDocker _)
  exact .seq _ (by simp +decide [Writes.fill, writes_putAll, hquiet, happ, hlevel])

theorem writes_msGraphBlock (hquiet : ∀ place ∉ quietPlaces, places place)
    (happ : places (.str .appName)) (graph : Map) :
    Writes renames places (msGraphBlock graph) := by
  have hseverity (label : String) :
      Writes renames places (setSeverity (Severity.ofMsGraph label)) :=
    .setSeverity _ (hquiet _ (by decide)) (Severity.labelled_ofMsGraph label)
  exact .seq _ (by simp +decide [Writes.fill, writes_putAll, hquiet, happ, hseverity])

/-- A vendor block runs on its own section. -/
theorem writes_vendor (fields : Map) (key : String) {block : Map → Draft → Draft}
    (h : Writes renames places (block (getSection fields key))) :
    Writes renames places (vendor fields key block) := by
  unfold vendor
  split
  · next m hm =>
      have hsection : getSection fields key = m := by rw [getSection, hm]; rfl
      exact hsection ▸ h
  · exact writes_id

/-! ## All native extraction -/

theorem writes_native (hall : ∀ place, places place) {data : Value} (syscheck predecoder : Map)
    (hvpc : getStr (getSection (data.asObject.getD []) "aws") "source" = "vpc" → renames) :
    Writes renames places (native data syscheck predecoder) := by
  have hquiet : ∀ place ∉ quietPlaces, places place := fun place _ => hall place
  have haws : Writes renames places (vendor (data.asObject.getD []) "aws" awsBlock) :=
    writes_vendor _ _ (writes_awsBlock hquiet (fun _ => hall _) hvpc)
  exact .seq _ (by
    simp [haws, writes_modulesBlock hall, writes_vendor, writes_office365Block hquiet,
      writes_gcpBlock hquiet, writes_dockerBlock hquiet, writes_msGraphBlock hquiet, hall])

end WazuhOcsf
