import WazuhOcsf.Pipeline.Blocks

/-!
# What the `syscheck` and `predecoder` sections reach

The native blocks read two sections beside `data`.  They fill three typed columns and
six extension keys (`sectionPlaces`).  Everywhere else the draft is the same whatever
they hold (`together_native`).  In each of the three columns a section is one of several
sources, the first of which that is not empty wins (`native_str`); the extension keys
hold what the section holds (`native_digest`, `native_attributes`).
-/

namespace WazuhOcsf

open Json RustString Draft

variable {place : Place} {f : Draft → Draft}

/-- A block, wherever it writes, works place by place. -/
theorem together_of_writes (h : Writes True (fun _ => True) f) : Together place f f := h.together

/-- A block that writes other places only. -/
theorem spares_of_writes (h : Writes True (· ≠ place) f) : Together place f id :=
  h.spares (not_not_intro rfl)

/-! ## Outside the places of the sections -/

theorem ne_of_not_mem_sectionPlaces (hplace : place ∉ sectionPlaces) {other : Place}
    (hother : other ∈ sectionPlaces) : place ≠ other :=
  fun heq => hplace (heq ▸ hother)

theorem extension_mem_sectionPlaces {entry : String × String} (h : entry ∈ fimExtensions) :
    .extension entry.2 ∈ sectionPlaces :=
  List.mem_append_right _ (List.mem_map_of_mem (List.mem_append_left _ (List.mem_map_of_mem h)))

/-- Outside their places the sections leave nothing. -/
theorem together_modulesBlock (hplace : place ∉ sectionPlaces) (data : Value)
    (fields syscheck predecoder syscheck' predecoder' : Map) :
    Together place (modulesBlock data fields syscheck predecoder)
      (modulesBlock data fields syscheck' predecoder') := by
  have hne {other : Place} : other ∈ sectionPlaces → place ≠ other :=
    ne_of_not_mem_sectionPlaces hplace
  have hfills (c : StrCol) (hc : .str c ∈ sectionPlaces) (v v' : String) :
      Together place (fill c v) (fill c v') :=
    .of_spares (spares_fill (hne hc) v) (spares_fill (hne hc) v')
  have hsections : Together place (sectionsBlock syscheck predecoder)
      (sectionsBlock syscheck' predecoder') :=
    together_seq (.cons (hfills .fileName (by decide) _ _) (.cons (hfills .srcHostname (by decide) _ _)
      (.cons (hfills .appName (by decide) _ _) .nil)))
  have hfim (m : Map) : Together place (putAll m fimExtensions) id :=
    spares_putAll (fun _ hentry => hne (extension_mem_sectionPlaces hentry)) m
  have hattributes (m : Map) : Together place (putChangedAttributes m) id :=
    spares_putChangedAttributes (hne (by decide)) m
  have hcontext : Together place (contextBlock data fields syscheck)
      (contextBlock data fields syscheck') := by
    refine together_seq ?_
    simp [(hfim _).of_spares (hfim _), (hattributes _).of_spares (hattributes _)]
  have hcompliance : Together place (complianceBlock data) (complianceBlock data) :=
    together_seq_self (by simp)
  have hquiet : ∀ place ∉ quietPlaces, True := fun _ _ => trivial
  refine together_seq ?_
  simp [together_of_writes (writes_vulnerabilityBlock hquiet trivial data),
    together_of_writes (writes_windowsBlock hquiet trivial trivial data),
    together_of_writes (writes_dpkgBlock hquiet trivial fields), hsections, hcompliance, hcontext]

theorem together_native (hplace : place ∉ sectionPlaces) (data : Value)
    (syscheck predecoder syscheck' predecoder' : Map) :
    Together place (native data syscheck predecoder) (native data syscheck' predecoder') := by
  have hquiet : ∀ place ∉ quietPlaces, True := fun _ _ => trivial
  have hvendor (fields : Map) (key : String) {block : Map → Draft → Draft}
      (h : ∀ m, Writes True (fun _ => True) (block m)) :
      Together place (vendor fields key block) (vendor fields key block) :=
    together_of_writes (writes_vendor fields key (h _))
  refine together_seq ?_
  simp [together_modulesBlock hplace, hvendor, writes_awsBlock hquiet,
    writes_office365Block hquiet, writes_gcpBlock hquiet, writes_dockerBlock hquiet,
    writes_msGraphBlock hquiet]

/-! ## What is left in the places of the sections -/

theorem ne_of_not_quiet (hplace : place ∈ quietPlaces) : ∀ other ∉ quietPlaces, other ≠ place :=
  fun _ hother heq => hother (heq ▸ hplace)

theorem quiet_putAll (hplace : place ∈ quietPlaces) {table : List (String × String)}
    (htable : ∀ entry ∈ table, .extension entry.2 ∉ quietPlaces) (m : Map) :
    Together place (putAll m table) id :=
  spares_putAll (fun entry hentry heq => htable entry hentry (heq ▸ hplace)) m

theorem quiet_putPaths (hplace : place ∈ quietPlaces) {table : List (String × String)}
    (htable : ∀ entry ∈ table, .extension entry.2 ∉ quietPlaces) (data : Value) :
    Together place (putPaths data table) id :=
  spares_putPaths (fun entry hentry heq => htable entry hentry (heq ▸ hplace)) data

/-! ## Sources of a column -/

/-- The first of some strings that is not empty. -/
def firstOf (sources : List String) : String := sources.foldr orElse ""

@[simp] theorem empty_orElse (v : String) : orElse "" v = v := rfl

@[simp] theorem orElse_empty (v : String) : orElse v "" = v := by
  unfold orElse
  split
  · next h => exact h.symm
  · rfl

theorem orElse_assoc (u v w : String) : orElse (orElse u v) w = orElse u (orElse v w) := by
  by_cases hu : u = ""
  · rw [hu, empty_orElse, empty_orElse]
  · simp [orElse, hu]

/-- The statement fills the column with `v` if it is still empty. -/
def Fills (c : StrCol) (f : Draft → Draft) (v : String) : Prop :=
  ∀ d, (f d).cols.str c = orElse (d.cols.str c) v

section

variable {c : StrCol}

theorem fills_of_spares (h : Together (.str c) f id) : Fills c f "" := fun d => by
  rw [orElse_empty]
  exact sameAt_of_spares h d

theorem fills_of_writes (h : Writes True (· ≠ .str c) f) : Fills c f "" :=
  fills_of_spares (spares_of_writes h)

theorem fills_seq {fs : List (Draft → Draft)} {sources : List String}
    (h : List.Forall₂ (Fills c) fs sources) : Fills c (seq fs) (firstOf sources) := by
  intro d
  induction h generalizing d with
  | nil => rw [seq_nil, firstOf, List.foldr_nil, orElse_empty]
  | cons hfirst _ ih => rw [seq_cons, ih, hfirst, orElse_assoc, firstOf, firstOf, List.foldr_cons]

theorem fills_fill (v : String) : Fills c (fill c v) v := fun d => by
  simp [fill, Columns.fillStr_str, orElse]

theorem fills_fill_of_ne {other : StrCol} (hne : c ≠ other) (v : String) :
    Fills c (fill other v) "" :=
  fills_of_spares (spares_fill (by simpa using hne) v)

/-- An absent vendor section fills what an empty one does. -/
theorem fills_vendor (fields : Map) (key : String) {block : Map → Draft → Draft}
    {source : Map → String} (h : ∀ m, Fills c (block m) (source m)) (hempty : source [] = "") :
    Fills c (vendor fields key block) (source (getSection fields key)) := by
  unfold vendor getSection
  split
  · next m hm =>
      rw [hm]
      exact h m
  · next hnone =>
      rw [hnone, Option.getD_none, hempty]
      exact fills_of_spares together_id

end

/-- The host an AWS finding is about. -/
def awsFindingHost (aws : Map) : String :=
  if IsAwsFinding aws then getStr (getSection aws "assetAttributes") "hostname" else ""

/-- The sources of a column before the one in a section. -/
def earlierSources (data : Value) (c : StrCol) : List String :=
  firstStr data c.paths ::
    match c with
    | .appName =>
        [if jpath data "vulnerability.cve" = "" then ""
          else jpath data "vulnerability.package.name",
         jpath data "win.system.providerName",
         getStr (data.asObject.getD []) "package"]
    | _ => []

/-- The sources after it; the mappings come last. -/
def laterSources (data : Value) (c : StrCol) : List String :=
  let fields := data.asObject.getD []
  let o365 := getSection fields "office365"
  let docker := getSection fields "docker"
  let graph := getSection fields "ms-graph"
  match c with
  | .fileName => [jpath data "audit.directory.name", getStr fields "file"]
  | .srcHostname => [awsFindingHost (getSection fields "aws")]
  | .appName =>
      [jpath data "sca.policy", getStr o365 "Workload", getStr o365 "ApplicationDisplayName",
       getStr (getSection o365 "AppAccessContext") "ClientAppName",
       getStr (getSection (getSection docker "Actor") "Attributes") "name",
       getStr graph "detectionSource", getStr graph "serviceSource"]
  | _ => []

/-- The string of a section that fills a column. -/
def sectionSource (obj : Map) : StrCol → String
  | .fileName => getStr (getSection obj "syscheck") "path"
  | .srcHostname => getStr (getSection obj "predecoder") "hostname"
  | .appName => getStr (getSection obj "predecoder") "program_name"
  | _ => ""

theorem fill_str (c other : StrCol) (v : String) (d : Draft) :
    (fill c v d).cols.str other =
      if other = c then orElse (d.cols.str other) v else d.cols.str other := by
  rw [fill, Columns.fillStr_str, orElse]
  split_ifs <;> simp_all

@[simp] theorem fillTitle_cols (v : String) (d : Draft) : (fillTitle v d).cols = d.cols := rfl

@[simp] theorem setFinding_cols (cve severity : String) (score : Float32) (d : Draft) :
    (setFinding cve severity score d).cols = d.cols := rfl

@[simp] theorem setSeverity_cols (severity : Option (BitVec 8 × String)) (d : Draft) :
    (setSeverity severity d).cols = d.cols := rfl

@[simp] theorem raiseSeverity_cols (severity : BitVec 8 × String) (d : Draft) :
    (raiseSeverity severity d).cols = d.cols := rfl

theorem putAll_cols (m : Map) (table : List (String × String)) (d : Draft) :
    (putAll m table d).cols = d.cols := by
  have hput (entry : String × String) (d : Draft) :
      (put entry.2 (getStr m entry.1) d).cols = d.cols := rfl
  exact rel_seq (R := fun a b => b.cols = a.cols) (fun _ => rfl) (fun _ _ _ hab hbc => hbc.trans hab)
    (List.forall_mem_map.mpr fun entry _ => hput entry) d

theorem fills_vulnerabilityBlock (data : Value) :
    Fills .appName (vulnerabilityBlock data) (if jpath data "vulnerability.cve" = "" then ""
      else jpath data "vulnerability.package.name") := by
  intro d
  by_cases hcve : jpath data "vulnerability.cve" = ""
  · simp [vulnerabilityBlock, hcve]
  · simp [vulnerabilityBlock, hcve, seq_cons, seq_nil, fill_str]

theorem fills_windowsBlock (data : Value) :
    Fills .appName (windowsBlock data) (jpath data "win.system.providerName") := by
  have hprocess : Fills .appName
      (fillNum .processId ((parseUInt 32 (jpath data "win.system.processID")).getD 0)) "" :=
    fills_of_spares (spares_fillNum (by decide) _)
  have hsources : Fills .appName (windowsBlock data)
      (firstOf [jpath data "win.system.providerName", "", "", "", ""]) :=
    fills_seq (.cons (fills_fill _) (.cons hprocess (by simp [fills_fill_of_ne])))
  simpa [firstOf] using hsources

theorem fills_awsBlock (aws : Map) : Fills .srcHostname (awsBlock aws) (awsFindingHost aws) := by
  intro d
  have hplace : Place.str .srcHostname ∈ quietPlaces := by decide
  have hquiet := ne_of_not_quiet hplace
  have hcommon := fills_of_writes (writes_awsCommonBlock hquiet aws) d
  rw [orElse_empty] at hcommon
  rw [awsBlock, seq_cons, seq_cons, seq_nil, ← hcommon, awsFindingHost]
  split
  · next hfinding =>
      have hblock : awsSourceBlock aws = awsFindingBlock aws (getStr aws "source") :=
        if_pos hfinding
      rw [hblock]
      simp [awsFindingBlock, seq_cons, seq_nil, fill_str, putAll_cols]
  · next hfinding =>
      exact fills_of_writes (writes_awsSourceBlock hquiet (fun h => absurd h hfinding)
        fun _ => trivial) _

theorem fills_office365Block (o365 : Map) :
    Fills .appName (office365Block o365) (firstOf [getStr o365 "Workload",
      getStr o365 "ApplicationDisplayName",
      getStr (getSection o365 "AppAccessContext") "ClientAppName"]) := by
  intro d
  simp [office365Block, seq_cons, seq_nil, fill_str, putAll_cols, firstOf, orElse_assoc]

theorem fills_dockerBlock (docker : Map) :
    Fills .appName (dockerBlock docker)
      (getStr (getSection (getSection docker "Actor") "Attributes") "name") := by
  intro d
  have hlevel (d : Draft) : ((if getStr docker "level" = "" then id
      else raiseSeverity (Severity.ofDocker (getStr docker "level"))) d).cols = d.cols := by
    split
    · rfl
    · exact raiseSeverity_cols _ d
  simp [dockerBlock, seq_cons, seq_nil, fill_str, putAll_cols, hlevel]

theorem fills_msGraphBlock (graph : Map) :
    Fills .appName (msGraphBlock graph)
      (firstOf [getStr graph "detectionSource", getStr graph "serviceSource"]) := by
  intro d
  simp [msGraphBlock, seq_cons, seq_nil, fill_str, putAll_cols, firstOf]

theorem fills_dpkgBlock (fields : Map) :
    Fills .appName (dpkgBlock fields) (getStr fields "package") := fun d => by
  simp [dpkgBlock, seq_cons, seq_nil, fill_str]

theorem fills_sectionsBlock (syscheck predecoder : Map) :
    Fills .fileName (sectionsBlock syscheck predecoder) (getStr syscheck "path") ∧
      Fills .srcHostname (sectionsBlock syscheck predecoder) (getStr predecoder "hostname") ∧
      Fills .appName (sectionsBlock syscheck predecoder) (getStr predecoder "program_name") := by
  refine ⟨fun d => ?_, fun d => ?_, fun d => ?_⟩ <;>
    simp [sectionsBlock, seq_cons, seq_nil, fill_str]

theorem fills_complianceBlock (data : Value) :
    Fills .fileName (complianceBlock data) (jpath data "audit.directory.name") ∧
      Fills .srcHostname (complianceBlock data) "" ∧
      Fills .appName (complianceBlock data) (jpath data "sca.policy") := by
  refine ⟨fun d => ?_, fun d => ?_, fun d => ?_⟩ <;>
    simp [complianceBlock, seq_cons, seq_nil, fill_str]

theorem fills_contextBlock (c : StrCol) (data : Value) (fields syscheck : Map) :
    Fills c (contextBlock data fields syscheck)
      (if c = .fileName then getStr fields "file" else "") := by
  have hall (m : Map) (table : List (String × String)) : Fills c (putAll m table) "" :=
    fills_of_spares (spares_putAll (by simp) m)
  have hpaths : Fills c (putPaths data pathExtensions) "" :=
    fills_of_spares (spares_putPaths (by simp) data)
  have hattributes : Fills c (putChangedAttributes syscheck) "" :=
    fills_of_spares (spares_putChangedAttributes (by simp) syscheck)
  have htitle (v : String) : Fills c (fillTitle v) "" :=
    fills_of_spares (spares_fillTitle (by simp) v)
  have hfile (v : String) : Fills c (fill .fileName v) (if c = .fileName then v else "") := by
    split
    · next hc => exact hc ▸ fills_fill v
    · next hc => exact fills_fill_of_ne hc v
  have hcontext : Fills c (contextBlock data fields syscheck) (firstOf ["", "", "", "",
      if c = .fileName then getStr fields "file" else "", "", ""]) :=
    fills_seq (.cons hpaths (.cons (hall _ _) (.cons hattributes (.cons (hall _ _)
      (.cons (hfile _) (.cons (htitle _) (.cons (hall _ _) .nil)))))))
  simpa [firstOf] using hcontext

section

variable (data : Value) (syscheck predecoder : Map)

/-- The vendor blocks. -/
def vendorsBlock (fields : Map) : Draft → Draft :=
  seq
    [vendor fields "aws" awsBlock,
     vendor fields "office365" office365Block,
     vendor fields "gcp" gcpBlock,
     vendor fields "docker" dockerBlock,
     vendor fields "ms-graph" msGraphBlock]

theorem native_eq_vendorsBlock (d : Draft) :
    native data syscheck predecoder d = vendorsBlock (data.asObject.getD [])
      (modulesBlock data (data.asObject.getD []) syscheck predecoder d) := by
  rw [native, seq_cons, vendorsBlock]

/-- What the vendor blocks leave alone is left by the modules. -/
theorem sameAt_native (hplace : place ∈ quietPlaces) (hhost : place ≠ .str .srcHostname)
    (happ : place ≠ .str .appName) (d : Draft) :
    SameAt (native data syscheck predecoder d)
      (modulesBlock data (data.asObject.getD []) syscheck predecoder d) place := by
  have hquiet := ne_of_not_quiet hplace
  have haws (m : Map) : Writes True (· ≠ place) (awsBlock m) :=
    writes_awsBlock hquiet (fun _ => hhost.symm) fun _ => trivial
  have hvendors (fields : Map) : Writes True (· ≠ place) (vendorsBlock fields) :=
    .seq _ (by
      simp [writes_vendor, haws, writes_office365Block hquiet happ.symm, writes_gcpBlock hquiet,
        writes_dockerBlock hquiet happ.symm, writes_msGraphBlock hquiet happ.symm])
  rw [native_eq_vendorsBlock]
  exact sameAt_of_spares (spares_of_writes (hvendors _)) _

/-- Of the module blocks four may write a quiet place. -/
theorem sameAt_native_of_modules (hplace : place ∈ quietPlaces) (hhost : place ≠ .str .srcHostname)
    (happ : place ≠ .str .appName) {windows sections compliance context : Draft → Draft}
    (hwindows : Together place (windowsBlock data) windows)
    (hsections : Together place (sectionsBlock syscheck predecoder) sections)
    (hcompliance : Together place (complianceBlock data) compliance)
    (hcontext : Together place (contextBlock data (data.asObject.getD []) syscheck) context)
    (d : Draft) :
    SameAt (native data syscheck predecoder d) (seq [windows, sections, compliance, context] d)
      place := by
  have hquiet := ne_of_not_quiet hplace
  have hmodules : Together place (modulesBlock data (data.asObject.getD []) syscheck predecoder)
      (seq [id, windows, id, sections, compliance, context]) :=
    together_seq (.cons (spares_of_writes (writes_vulnerabilityBlock hquiet happ.symm _))
      (.cons hwindows (.cons (spares_of_writes (writes_dpkgBlock hquiet happ.symm _))
      (.cons hsections (.cons hcompliance (.cons hcontext .nil))))))
  exact (sameAt_native data syscheck predecoder hplace hhost happ d).trans (hmodules.sameAt d)

theorem fills_native_fileName :
    Fills .fileName (native data syscheck predecoder) (firstOf (getStr syscheck "path" ::
      [jpath data "audit.directory.name", getStr (data.asObject.getD []) "file"])) := by
  have hplace : Place.str .fileName ∈ quietPlaces := by decide
  have hquiet := ne_of_not_quiet hplace
  have hmodules : Fills .fileName (modulesBlock data (data.asObject.getD []) syscheck predecoder) _ :=
    fills_seq (.cons (fills_of_writes (writes_vulnerabilityBlock hquiet (by decide) data))
      (.cons (fills_of_writes (writes_windowsBlock hquiet (by decide) (by decide) data))
      (.cons (fills_of_writes (writes_dpkgBlock hquiet (by decide) _))
      (.cons (fills_sectionsBlock _ _).1
      (.cons (fills_complianceBlock _).1 (.cons (fills_contextBlock _ _ _ _) .nil))))))
  intro d
  have hnative : (native data syscheck predecoder d).cols.str .fileName = _ :=
    sameAt_native data syscheck predecoder hplace (by decide) (by decide) d
  rw [hnative, hmodules]
  simp [firstOf]

theorem fills_native_srcHostname :
    Fills .srcHostname (native data syscheck predecoder) (firstOf (getStr predecoder "hostname" ::
      [awsFindingHost (getSection (data.asObject.getD []) "aws")])) := by
  have hplace : Place.str .srcHostname ∈ quietPlaces := by decide
  have hquiet := ne_of_not_quiet hplace
  have hmodules :
      Fills .srcHostname (modulesBlock data (data.asObject.getD []) syscheck predecoder) _ :=
    fills_seq (.cons (fills_of_writes (writes_vulnerabilityBlock hquiet (by decide) data))
      (.cons (fills_of_writes (writes_windowsBlock hquiet (by decide) (by decide) data))
      (.cons (fills_of_writes (writes_dpkgBlock hquiet (by decide) _))
      (.cons (fills_sectionsBlock _ _).2.1
      (.cons (fills_complianceBlock _).2.1 (.cons (fills_contextBlock _ _ _ _) .nil))))))
  have hnative : Fills .srcHostname (native data syscheck predecoder) _ :=
    fills_seq (.cons hmodules
      (.cons (fills_vendor _ _ fills_awsBlock (by decide))
      (.cons (fills_of_writes (writes_vendor _ _ (writes_office365Block hquiet (by decide) _)))
      (.cons (fills_of_writes (writes_vendor _ _ (writes_gcpBlock hquiet _)))
      (.cons (fills_of_writes (writes_vendor _ _ (writes_dockerBlock hquiet (by decide) _)))
      (.cons (fills_of_writes (writes_vendor _ _ (writes_msGraphBlock hquiet (by decide) _))) .nil))))))
  simpa [firstOf] using hnative

theorem fills_native_appName :
    Fills .appName (native data syscheck predecoder)
      (orElse (firstOf (earlierSources data .appName).tail)
        (firstOf (getStr predecoder "program_name" :: laterSources data .appName))) := by
  have hplace : Place.str .appName ∈ quietPlaces := by decide
  have hquiet := ne_of_not_quiet hplace
  have hmodules : Fills .appName (modulesBlock data (data.asObject.getD []) syscheck predecoder) _ :=
    fills_seq (.cons (fills_vulnerabilityBlock data) (.cons (fills_windowsBlock data)
      (.cons (fills_dpkgBlock _) (.cons (fills_sectionsBlock _ _).2.2
      (.cons (fills_complianceBlock _).2.2 (.cons (fills_contextBlock _ _ _ _) .nil))))))
  have hnative : Fills .appName (native data syscheck predecoder) _ :=
    fills_seq (.cons hmodules
      (.cons (fills_of_writes (writes_vendor _ _ (writes_awsBlock hquiet (fun _ => by decide) fun _ => trivial)))
      (.cons (fills_vendor _ _ fills_office365Block (by decide))
      (.cons (fills_of_writes (writes_vendor _ _ (writes_gcpBlock hquiet _)))
      (.cons (fills_vendor _ _ fills_dockerBlock (by decide))
      (.cons (fills_vendor _ _ fills_msGraphBlock (by decide)) .nil))))))
  simpa [firstOf, earlierSources, laterSources, orElse_assoc] using hnative

end

theorem native_str {c : StrCol} (hc : c ∈ sectionCols) (obj : Map) :
    (nativeDraft obj).cols.str c =
      orElse (firstOf (earlierSources (dataOf obj) c))
        (orElse (sectionSource obj c) (firstOf (laterSources (dataOf obj) c))) := by
  have hfound : (foundDraft obj).cols.str c = firstStr (dataOf obj) c.paths := rfl
  simp only [sectionCols, List.mem_cons, List.not_mem_nil, or_false] at hc
  rcases hc with rfl | rfl | rfl
  · rw [nativeDraft, fills_native_fileName, hfound]
    simp [firstOf, earlierSources, laterSources, sectionSource]
  · rw [nativeDraft, fills_native_srcHostname, hfound]
    simp [firstOf, earlierSources, laterSources, sectionSource]
  · rw [nativeDraft, fills_native_appName, hfound]
    simp [firstOf, earlierSources, laterSources, sectionSource, orElse_assoc]

/-! ## The extension keys and the title -/

theorem foundDraft_extensions (obj : Map) (key : String) :
    (foundDraft obj).extensions[key]? = none := by
  simp [foundDraft]

/-- Only two statements write the extension keys of `syscheck`. -/
theorem native_extension {key : String} (hkey : key ∈ sectionKeys) (obj : Map) :
    (nativeDraft obj).extensions[key]? =
      (putChangedAttributes (getSection obj "syscheck")
        (putAll (getSection obj "syscheck") fimExtensions (foundDraft obj))).extensions[key]? := by
  have hplace : Place.extension key ∈ quietPlaces :=
    List.mem_cons_of_mem _ (List.mem_cons_of_mem _
      (List.mem_append_right _ (List.mem_map_of_mem hkey)))
  have hquiet := ne_of_not_quiet hplace
  have hfill (c : StrCol) (v : String) : Together (.extension key) (fill c v) id :=
    spares_fill (by simp) v
  have htitle (v : String) : Together (.extension key) (fillTitle v) id :=
    spares_fillTitle (by simp) v
  have hpaths : Together (.extension key) (putPaths (dataOf obj) pathExtensions) id :=
    quiet_putPaths hplace (by decide) _
  have hcontext (fields syscheck : Map) :
      Together (.extension key) (contextBlock (dataOf obj) fields syscheck)
        (seq [id, putAll syscheck fimExtensions, putChangedAttributes syscheck, id, id, id, id]) :=
    together_seq (by simp +decide [hfill, htitle, hpaths, quiet_putAll hplace])
  exact sameAt_native_of_modules (dataOf obj) _ _ hplace (by simp) (by simp)
    (spares_of_writes (writes_windowsBlock hquiet (by simp) (by simp) _))
    (spares_of_writes (writes_sectionsBlock (by simp) _ _))
    (spares_of_writes (writes_complianceBlock hquiet (by simp) (by simp) _)) (hcontext _ _)
    (foundDraft obj)

theorem putAll_extension (m : Map) {table : List (String × String)}
    (hnodup : (table.map Prod.snd).Nodup) {entry : String × String} (hentry : entry ∈ table)
    (d : Draft) :
    (putAll m table d).extensions[entry.2]? =
      if getStr m entry.1 = "" then d.extensions[entry.2]? else some (getStr m entry.1) := by
  induction table generalizing d with
  | nil => cases hentry
  | cons first rest ih =>
      rw [List.map_cons, List.nodup_cons] at hnodup
      have hcons : putAll m (first :: rest) d = putAll m rest (put first.2 (getStr m first.1) d) :=
        rfl
      rw [hcons]
      rcases List.mem_cons.mp hentry with rfl | hrest
      · have hkept : SameAt (putAll m rest (put entry.2 (getStr m entry.1) d))
            (put entry.2 (getStr m entry.1) d) (.extension entry.2) := by
          refine sameAt_of_spares (spares_putAll (fun other hother heq => hnodup.1 ?_) m) _
          rw [Place.extension.inj heq]
          exact List.mem_map_of_mem hother
        refine Eq.trans hkept ?_
        rw [put]
        split <;> simp
      · have hne : Place.extension entry.2 ≠ .extension first.2 := fun heq => hnodup.1
          (Place.extension.inj heq ▸ List.mem_map_of_mem hrest)
        have hkept : SameAt (put first.2 (getStr m first.1) d) d (.extension entry.2) :=
          sameAt_of_spares (spares_put hne _) d
        rw [ih hnodup.2 hrest, hkept]

/-- A digest of `syscheck` is kept under its key unless it is empty. -/
theorem native_digest (obj : Map) {entry : String × String} (hentry : entry ∈ fimExtensions) :
    (nativeDraft obj).extensions[entry.2]? =
      if getStr (getSection obj "syscheck") entry.1 = "" then none
      else some (getStr (getSection obj "syscheck") entry.1) := by
  have hkey : entry.2 ∈ fimExtensions.map Prod.snd := List.mem_map_of_mem hentry
  have hne : Place.extension entry.2 ≠ .extension "fim_changed_attrs" := by
    rintro heq
    rw [Place.extension.inj heq] at hkey
    exact absurd hkey (by decide)
  rw [native_extension (List.mem_append_left _ hkey),
    sameAt_of_spares (spares_putChangedAttributes hne _) _,
    putAll_extension _ (by decide) hentry, foundDraft_extensions]

/-- The attribute list of `syscheck` is kept as text. -/
theorem native_attributes (obj : Map) :
    (nativeDraft obj).extensions["fim_changed_attrs"]? =
      ((getSection obj "syscheck").get "changed_attributes").map Value.toJson := by
  have hdigests : SameAt (putAll (getSection obj "syscheck") fimExtensions (foundDraft obj))
      (foundDraft obj) (.extension "fim_changed_attrs") :=
    sameAt_of_spares (spares_putAll (by decide) _) _
  rw [native_extension (by decide), putChangedAttributes]
  cases (getSection obj "syscheck").get "changed_attributes" with
  | none => exact Eq.trans hdigests (foundDraft_extensions obj _)
  | some attributes => simp

/-- The title in `data` that comes before the description of the rule. -/
def dataTitle (data : Value) : String :=
  orElse (jpath data "sca.check.title") (getStr (data.asObject.getD []) "title")

theorem native_title (obj : Map) :
    (nativeDraft obj).findingTitleOverride = dataTitle (dataOf obj) := by
  have hplace : Place.title ∈ quietPlaces := List.mem_cons_of_mem _ List.mem_cons_self
  have hquiet := ne_of_not_quiet hplace
  have hfill (c : StrCol) (v : String) : Together .title (fill c v) id :=
    spares_fill (by simp) v
  have hattributes (syscheck : Map) : Together .title (putChangedAttributes syscheck) id :=
    spares_putChangedAttributes (by simp) syscheck
  have hall (m : Map) (table : List (String × String)) : Together .title (putAll m table) id :=
    spares_putAll (by simp) m
  have hpaths : Together .title (putPaths (dataOf obj) pathExtensions) id :=
    spares_putPaths (by simp) _
  have hcompliance : Together .title (complianceBlock (dataOf obj))
      (seq [fillTitle (jpath (dataOf obj) "sca.check.title"), id, id, id]) :=
    together_seq (by simp [hfill])
  have hcontext (fields syscheck : Map) :
      Together .title (contextBlock (dataOf obj) fields syscheck)
        (seq [id, id, id, id, id, fillTitle (getStr fields "title"), id]) :=
    together_seq (by simp [hfill, hattributes, hall, hpaths])
  exact sameAt_native_of_modules (dataOf obj) _ _ hplace (by simp) (by simp)
    (spares_of_writes (writes_windowsBlock hquiet (by simp) (by simp) _))
    (spares_of_writes (writes_sectionsBlock (by simp) _ _)) hcompliance (hcontext _ _)
    (foundDraft obj)

end WazuhOcsf
