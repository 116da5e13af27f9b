import WazuhOcsf.Determinism
import WazuhOcsf.Pipeline.Program
import WazuhOcsf.ProcessId

/-!
# What a place of the record is offered

The native blocks and the mapping table offer strings, in an order that the alert fixes.
A column keeps the first that is not empty (`mappedColumns_str_eq_firstOf`), an extension key the
last (`mappedColumns_extension_eq_stored`), and the severity goes through the tables that rate it
(`finalSeverity_eq_rated`).  The lists name the sources and not their strings, so they
are the same for alerts that differ in one string only.
-/

namespace WazuhOcsf

open Json RustString Draft

/-! ## The offers of a program -/

/-- The sources offered to a column. -/
def offers (c : StrCol) : List Assignment → List Source
  | [] => []
  | .fill c' source :: rest => if c' = c then source :: offers c rest else offers c rest
  | _ :: rest => offers c rest

/-- The sources offered to an extension key. -/
def puts (key : String) : List Assignment → List Source
  | [] => []
  | .put key' source :: rest => if key' = key then source :: puts key rest else puts key rest
  | _ :: rest => puts key rest

/-- The assignments that move no string and rate no label. -/
def others : List Assignment → List Assignment
  | [] => []
  | .fill .. :: rest => others rest
  | .put .. :: rest => others rest
  | .rate .. :: rest => others rest
  | a :: rest => a :: others rest

/-- The tables the severity goes through, with the places of the labels. -/
def ratings : List Assignment → List (Rating × List String)
  | [] => []
  | .rate rating keys :: rest => (rating, keys) :: ratings rest
  | _ :: rest => ratings rest

/-- The severity after some ratings. -/
def rated (data : Value) (severity : BitVec 8 × String) (l : List (Rating × List String)) :
    BitVec 8 × String :=
  l.foldl (fun severity r => r.1.apply (strUnder (fieldsOf data) r.2) severity) severity

/-- An extension entry; an empty string is not stored. -/
def stored (v : String) : Option String := if v = "" then none else some v

theorem firstOf_cons (v : String) (rest : List String) :
    firstOf (v :: rest) = orElse v (firstOf rest) := rfl

theorem firstOf_append (first second : List String) :
    firstOf (first ++ second) = orElse (firstOf first) (firstOf second) := by
  induction first with
  | nil => rfl
  | cons v rest ih =>
      rw [List.cons_append, firstOf_cons, ih, firstOf_cons, orElse_assoc]

theorem stored_orElse (v w : String) : stored (orElse v w) = (stored v).or (stored w) := by
  by_cases hv : v = "" <;> simp [stored, orElse, hv]

section

variable {data : Value}

/-- A column is filled once, by the first offer; the protocol may be renamed besides. -/
theorem runAll_str {c : StrCol} {l : List Assignment}
    (hc : c = .networkProtocol → .protocol ∉ others l)
    (d : Draft) : (runAll data l d).cols.str c =
      orElse (d.cols.str c) (firstOf ((offers c l).map (Source.eval data))) := by
  induction l generalizing d with
  | nil => simp [offers, firstOf, runAll_nil]
  | cons a rest ih =>
      rw [runAll_cons]
      cases a with
      | fill c' source =>
          rw [ih hc, Assignment.run, fill_str, offers]
          by_cases hcol : c' = c
          · rw [if_pos hcol.symm, if_pos hcol, List.map_cons, firstOf_cons, orElse_assoc]
          · rw [if_neg (Ne.symm hcol), if_neg hcol]
      | protocol =>
          have hne : c ≠ .networkProtocol := fun h => hc h List.mem_cons_self
          rw [ih fun h => absurd h hne, Assignment.run, renameProtocol]
          exact congrArg (orElse · _) (Function.update_of_ne hne ..)
      | put => exact ih hc _
      | rate => exact ih hc _
      | _ => exact ih (fun h hmem => hc h (List.mem_cons_of_mem _ hmem)) _

/-- Nothing but the Windows section writes a number. -/
theorem runAll_num {c : NumCol} (hc : c ≠ .processId) (l : List Assignment) (d : Draft) :
    (runAll data l d).cols.num c = d.cols.num c := by
  induction l generalizing d with
  | nil => rfl
  | cons a rest ih =>
      rw [runAll_cons, ih]
      cases a with
      | processId v => exact Columns.fillNum_num_of_ne (c := .processId) v d.cols hc
      | _ => rfl

/-- An extension key keeps the last offer. -/
theorem runAll_extension (key : String) (l : List Assignment) (d : Draft) :
    (runAll data l d).extensions[key]? =
      (stored (firstOf ((puts key l).reverse.map (Source.eval data)))).or d.extensions[key]? := by
  induction l generalizing d with
  | nil => simp [puts, firstOf, stored, runAll_nil]
  | cons a rest ih =>
      rw [runAll_cons, ih]
      cases a with
      | put key' source =>
          rw [Assignment.run, put, puts]
          by_cases hkey : key' = key
          · rw [if_pos hkey, List.reverse_cons, List.map_append, firstOf_append, stored_orElse,
              Option.or_assoc]
            refine congrArg _ ?_
            by_cases hv : source.eval data = "" <;> simp [hv, hkey, firstOf, stored]
          · rw [if_neg hkey]
            refine congrArg _ ?_
            split
            · rfl
            · rw [Std.ExtTreeMap.getElem?_insert, if_neg (by simpa using hkey)]
      | _ => rfl

theorem runAll_severity (l : List Assignment) (d : Draft) :
    ((runAll data l d).sevId, (runAll data l d).sevLabel) =
      rated data (d.sevId, d.sevLabel) (ratings l) := by
  induction l generalizing d with
  | nil => rfl
  | cons a rest ih =>
      rw [runAll_cons, ih]
      cases a <;> rfl

end

/-! ## The offers for an alert -/

/-- The program of the native blocks on an alert. -/
def programOf (obj : Map) : List Assignment :=
  program (dataOf obj) (getSection obj "syscheck") (getSection obj "predecoder")

/-- The protocol the field paths find; a VPC flow log renames it. -/
def protocolOf (data : Value) : String :=
  let protocol := firstStr data FieldPaths.protocol
  if getStr (getSection (fieldsOf data) "aws") "source" = "vpc" ∧ protocol ≠ "" then
    protocolName protocol
  else protocol

/-- What a column is offered before the overlay. -/
def nativeSources (obj : Map) (c : StrCol) : List Source :=
  if c = .networkProtocol then [.text (protocolOf (dataOf obj))]
  else .text (firstStr (dataOf obj) c.paths) :: offers c (programOf obj)

/-- The mapping entries for a target, as sources. -/
def mappedSources (target : Target) (entries : List (String × String)) : List Source :=
  (entries.filter fun entry => Target.of entry.2 = target).map fun entry => .mapped entry.1

/-- Everything a string column is offered: the first that is not empty counts. -/
def strSources (env : TransformEnv) (custom : CustomMappings) (obj : Map) (c : StrCol) :
    List Source :=
  nativeSources obj c ++ mappedSources (.str c) (env.order.arrange custom.fieldMap.entries)

/-- Everything an extension key is offered, the last offer first. -/
def extensionSources (env : TransformEnv) (custom : CustomMappings) (obj : Map) (key : String) :
    List Source :=
  (mappedSources (.extension key) (env.order.arrange custom.fieldMap.entries)).reverse ++
    (puts key (programOf obj)).reverse

section

variable {env : TransformEnv} {custom : CustomMappings} {obj : Map}

theorem nativeDraft_eq_runAll (obj : Map) :
    nativeDraft obj = runAll (dataOf obj) (programOf obj) (foundDraft obj) := by
  rw [nativeDraft, native_eq_runAll, programOf]

@[simp] theorem offers_append (c : StrCol) (first second : List Assignment) :
    offers c (first ++ second) = offers c first ++ offers c second := by
  induction first with
  | nil => rfl
  | cons a rest ih =>
      cases a with
      | fill c' source =>
          rw [List.cons_append, offers, offers, ih]
          split <;> rfl
      | _ => exact ih

@[simp] theorem others_append (first second : List Assignment) :
    others (first ++ second) = others first ++ others second := by
  induction first with
  | nil => rfl
  | cons a rest ih =>
      cases a with
      | fill | put | rate => exact ih
      | _ => exact congrArg _ ih

@[simp] theorem ratings_append (first second : List Assignment) :
    ratings (first ++ second) = ratings first ++ ratings second := by
  induction first with
  | nil => rfl
  | cons a rest ih =>
      cases a with
      | rate rating keys => exact congrArg _ ih
      | _ => exact ih

section

variable {α : Type} (key : α → String) (source : α → Source) (table : List α)

@[simp] theorem offers_map_put (c : StrCol) :
    offers c (table.map fun entry => .put (key entry) (source entry)) = [] := by
  induction table with
  | nil => rfl
  | cons entry rest ih => exact ih

@[simp] theorem others_map_put :
    others (table.map fun entry => .put (key entry) (source entry)) = [] := by
  induction table with
  | nil => rfl
  | cons entry rest ih => exact ih

@[simp] theorem ratings_map_put :
    ratings (table.map fun entry => .put (key entry) (source entry)) = [] := by
  induction table with
  | nil => rfl
  | cons entry rest ih => exact ih

@[simp] theorem offers_map_fill {c c' : StrCol} :
    offers c (table.map fun entry => .fill c' (source entry)) =
      if c' = c then table.map source else [] := by
  induction table with
  | nil => simp [offers]
  | cons entry rest ih =>
      rw [List.map_cons, offers, ih]
      split <;> simp

@[simp] theorem others_map_fill (c : StrCol) :
    others (table.map fun entry => .fill c (source entry)) = [] := by
  induction table with
  | nil => rfl
  | cons entry rest ih => exact ih

@[simp] theorem ratings_map_fill (c : StrCol) :
    ratings (table.map fun entry => .fill c (source entry)) = [] := by
  induction table with
  | nil => rfl
  | cons entry rest ih => exact ih

end

section

variable {data : Value} (keys : List String) (table : List (String × String))

@[simp] theorem offers_copies (c : StrCol) : offers c (copies keys table) = [] :=
  offers_map_put _ _ table c

@[simp] theorem others_copies : others (copies keys table) = [] := others_map_put _ _ table

@[simp] theorem ratings_copies : ratings (copies keys table) = [] := ratings_map_put _ _ table

end

theorem awsSourceProgram_of_vpc {data : Value}
    (hvpc : strUnder (fieldsOf data) ["aws", "source"] = "vpc") :
    awsSourceProgram data = .protocol :: copies ["aws"] [("interface_id", "aws_interface_id"),
      ("account_id", "aws_flow_account_id"), ("log_status", "aws_log_status"),
      ("packets", "aws_packets"), ("version", "aws_flow_version")] := by
  simp [awsSourceProgram, hvpc]

/-- Every other AWS source moves strings and rates labels only. -/
theorem others_awsSource {data : Value}
    (hvpc : strUnder (fieldsOf data) ["aws", "source"] ≠ "vpc") :
    others (awsSourceProgram data) = [] := by
  unfold awsSourceProgram
  dsimp only
  rw [if_neg hvpc]
  split_ifs <;> simp [awsFindingProgram, awsS3Program, others]

/-- No other assignment writes the protocol. -/
theorem keeps_protocol {data : Value} {l : List Assignment}
    (hoffers : offers .networkProtocol l = [])
    (hothers : .protocol ∉ others l) (d : Draft) :
    (runAll data l d).cols.str .networkProtocol = d.cols.str .networkProtocol := by
  rw [runAll_str fun _ => hothers, hoffers, List.map_nil, firstOf, List.foldr_nil, orElse_empty]

theorem keeps_protocol_before (data : Value) (syscheck predecoder : Map) (d : Draft) :
    (runAll data (modulesProgram data syscheck predecoder ++ awsCommonProgram data) d).cols.str
      .networkProtocol = d.cols.str .networkProtocol := by
  have hvulnerability : offers .networkProtocol (vulnerabilityProgram data) = [] ∧
      .protocol ∉ others (vulnerabilityProgram data) := by
    unfold vulnerabilityProgram
    dsimp only
    split <;> simp [offers, others]
  refine keeps_protocol ?_ ?_ d <;>
    simp [modulesProgram, windowsProgram, sectionsProgram, complianceProgram, contextProgram,
      awsCommonProgram, awsIdentityProgram, hvulnerability, others, offers]

theorem keeps_protocol_after {data : Value} (d : Draft) :
    (runAll data (office365Program data ++ gcpProgram ++ dockerProgram ++ msGraphProgram data)
      d).cols.str .networkProtocol = d.cols.str .networkProtocol := by
  refine keeps_protocol ?_ ?_ d <;>
    simp [office365Program, gcpProgram, dockerProgram, msGraphProgram, others, offers]

theorem renameProtocol_str (rename : String → String) (d : Draft) :
    (renameProtocol rename d).cols.str .networkProtocol =
      if d.cols.str .networkProtocol = "" then d.cols.str .networkProtocol
      else rename (d.cols.str .networkProtocol) := by
  simp [renameProtocol]

theorem native_protocol (obj : Map) :
    (nativeDraft obj).cols.str .networkProtocol = protocolOf (dataOf obj) := by
  have hprogram : programOf obj =
      (modulesProgram (dataOf obj) (getSection obj "syscheck") (getSection obj "predecoder") ++
        awsCommonProgram (dataOf obj)) ++ (awsSourceProgram (dataOf obj) ++
          (office365Program (dataOf obj) ++ gcpProgram ++ dockerProgram ++
            msGraphProgram (dataOf obj))) := by
    simp only [programOf, program, List.append_assoc]
  rw [nativeDraft_eq_runAll, hprogram, runAll_append, runAll_append, keeps_protocol_after]
  have hbefore := keeps_protocol_before (dataOf obj) (getSection obj "syscheck")
    (getSection obj "predecoder") (foundDraft obj)
  by_cases hvpc : strUnder (fieldsOf (dataOf obj)) ["aws", "source"] = "vpc"
  · rw [awsSourceProgram_of_vpc hvpc, runAll_cons, keeps_protocol (by simp) (by simp)]
    have hfound : (foundDraft obj).cols.str .networkProtocol =
      firstStr (dataOf obj) FieldPaths.protocol := rfl
    have hsource : getStr (getSection (fieldsOf (dataOf obj)) "aws") "source" = "vpc" := hvpc
    rw [Assignment.run, renameProtocol_str, hbefore, hfound, protocolOf]
    by_cases hempty : firstStr (dataOf obj) FieldPaths.protocol = "" <;> simp [hempty, hsource]
  · have hoffers : offers .networkProtocol (awsSourceProgram (dataOf obj)) = [] := by
      unfold awsSourceProgram
      dsimp only
      split_ifs <;> simp [awsFindingProgram, awsS3Program, offers]
    rw [keeps_protocol hoffers (by simp [others_awsSource hvpc]), hbefore]
    exact (if_neg fun h => hvpc h.1).symm

/-- Before the overlay a column holds its first offer. -/
theorem native_str_eq_firstOf (obj : Map) (c : StrCol) : (nativeDraft obj).cols.str c =
    firstOf ((nativeSources obj c).map (Source.eval (dataOf obj))) := by
  rw [nativeSources]
  split
  · next hc =>
      rw [hc, native_protocol, List.map_singleton, firstOf_cons, firstOf, List.foldr_nil,
        orElse_empty]
      rfl
  · next hc =>
      rw [nativeDraft_eq_runAll, runAll_str fun h => absurd h hc]
      rfl

theorem native_num_eq_zero_iff (obj : Map) (c : NumCol) : (nativeDraft obj).cols.num c = 0 ↔
    NumCol.find (dataOf obj) c = 0 ∧ (c = .processId →
      (parseUInt 32 (jpath (dataOf obj) "win.system.processID")).getD 0 = 0) := by
  by_cases hc : c = .processId
  · subst hc
    have hnative : (nativeDraft obj).cols.num .processId = _ := native_processId obj
    by_cases hzero : (Columns.find (dataOf obj)).processId = 0
    · rw [hnative.trans (if_pos hzero)]
      exact ⟨fun h => ⟨hzero, fun _ => h⟩, fun h => h.2 rfl⟩
    · rw [hnative.trans (if_neg hzero)]
      exact ⟨fun h => absurd h hzero, fun h => absurd h.1 hzero⟩
  · rw [nativeDraft_eq_runAll, runAll_num hc]
    simp only [hc, false_implies, and_true]
    rfl

/-- A mapping entry offers its value to its target. -/
theorem findSome?_strOffer (data : Value) (c : StrCol) (entries : List (String × String)) :
    (entries.findSome? (strOffer data c)).getD "" =
      firstOf ((mappedSources (.str c) entries).map (Source.eval data)) := by
  induction entries with
  | nil => rfl
  | cons entry rest ih =>
      rw [List.findSome?_cons, strOffer, mappedSources, List.filter_cons]
      by_cases htarget : Target.of entry.2 = .str c
      · simp only [htarget, true_and, decide_true, if_true, List.map_cons, firstOf_cons]
        rw [← mappedSources, ← ih, Source.eval, orElse]
        split_ifs <;> simp_all
      · simp only [htarget, false_and, if_false, decide_false, Bool.false_eq_true]
        exact ih

theorem findSome?_extensionOffer (data : Value) (key : String) (entries : List (String × String)) :
    entries.findSome? (extensionOffer data key) =
      stored (firstOf ((mappedSources (.extension key) entries).map (Source.eval data))) := by
  induction entries with
  | nil => rfl
  | cons entry rest ih =>
      rw [List.findSome?_cons, extensionOffer, mappedSources, List.filter_cons]
      by_cases htarget : Target.of entry.2 = .extension key
      · simp only [htarget, true_and, decide_true, if_true, List.map_cons, firstOf_cons]
        rw [← mappedSources, stored_orElse, ← ih, Source.eval, stored]
        split_ifs <;> simp_all
      · simp only [htarget, false_and, if_false, decide_false, Bool.false_eq_true]
        exact ih

theorem mappedColumns_str_eq_firstOf (c : StrCol) : (mappedColumns env custom obj).1.str c =
    firstOf ((strSources env custom obj c).map (Source.eval (dataOf obj))) := by
  rw [mappedColumns, overlay_str, findSome?_strOffer, native_str_eq_firstOf, strSources, List.map_append,
    firstOf_append, orElse]

theorem mappedColumns_extension_eq_stored (key : String) : (mappedColumns env custom obj).2[key]? =
    stored (firstOf ((extensionSources env custom obj key).map (Source.eval (dataOf obj)))) := by
  have hreverse : (mappedSources (.extension key) (env.order.arrange custom.fieldMap.entries)).reverse =
      mappedSources (.extension key) (env.order.arrange custom.fieldMap.entries).reverse := by
    rw [mappedSources, mappedSources, List.filter_reverse, List.map_reverse]
  rw [mappedColumns, overlay_extension, findSome?_extensionOffer, nativeDraft_eq_runAll,
    runAll_extension, extensionSources, hreverse, List.map_append, firstOf_append, stored_orElse]
  simp [foundDraft]

/-- The scanner's label of a vulnerability finding, which is asked last. -/
def scannerLabel (obj : Map) : String :=
  if (classOf obj).classUid = 2002 ∧ jpath (dataOf obj) "vulnerability.cve" ≠ "" then
    jpath (dataOf obj) "vulnerability.severity"
  else ""

/-- What the native blocks leave where no string of `data` is copied. -/
structure SameRest (a b : Draft) : Prop where
  num : a.cols.num = b.cols.num
  title : a.findingTitleOverride = b.findingTitleOverride
  finding : a.cveId = b.cveId ∧ a.vulnSev = b.vulnSev ∧ a.cvssScore = b.cvssScore

/-- Numbers, title and finding are in the program itself. -/
theorem sameRest_runAll {data data' : Value} (l : List Assignment) {a b : Draft}
    (h : SameRest a b) : SameRest (runAll data' l a) (runAll data l b) := by
  induction l generalizing a b with
  | nil => exact h
  | cons first rest ih =>
      rw [runAll_cons, runAll_cons]
      refine ih ?_
      cases first with
      | processId v =>
          refine ⟨?_, h.title, h.finding⟩
          simp only [Assignment.run, fillNum, Columns.fillNum, h.num]
      | title v =>
          refine ⟨h.num, ?_, h.finding⟩
          simp only [Assignment.run, fillTitle, h.title]
      | finding cve severity score => exact ⟨h.num, h.title, rfl, rfl, rfl⟩
      | _ => exact ⟨h.num, h.title, h.finding⟩

theorem runAll_vulnSev {data : Value} {l : List Assignment}
    (h : ∀ cve severity score, .finding cve severity score ∉ others l) (d : Draft) :
    (runAll data l d).vulnSev = d.vulnSev := by
  induction l generalizing d with
  | nil => rfl
  | cons a rest ih =>
      rw [runAll_cons]
      cases a with
      | finding cve severity score => exact absurd List.mem_cons_self (h cve severity score)
      | fill => exact ih h _
      | put => exact ih h _
      | rate => exact ih h _
      | _ => exact ih (fun _ _ _ hmem => h _ _ _ (List.mem_cons_of_mem _ hmem)) _

/-- Only the vulnerability block names a finding. -/
theorem native_vulnSev (obj : Map) : (nativeDraft obj).vulnSev =
    if jpath (dataOf obj) "vulnerability.cve" = "" then ""
    else jpath (dataOf obj) "vulnerability.severity" := by
  have haws (data : Value) (cve severity : String) (score : Float32) :
      .finding cve severity score ∉ others (awsSourceProgram data) := by
    by_cases hvpc : strUnder (fieldsOf data) ["aws", "source"] = "vpc"
    · simp [awsSourceProgram_of_vpc hvpc, others]
    · simp [others_awsSource hvpc]
  have hprogram : programOf obj = vulnerabilityProgram (dataOf obj) ++
      (windowsProgram (dataOf obj) ++ [.fill .appName (.at ["package"]),
        .fill .status (.at ["dpkg_status"])] ++
        sectionsProgram (getSection obj "syscheck") (getSection obj "predecoder") ++
        complianceProgram (dataOf obj) ++ contextProgram (dataOf obj) (getSection obj "syscheck") ++
        awsCommonProgram (dataOf obj) ++ awsSourceProgram (dataOf obj) ++
        office365Program (dataOf obj) ++ gcpProgram ++ dockerProgram ++
        msGraphProgram (dataOf obj)) := by
    simp only [programOf, program, modulesProgram, List.append_assoc]
  rw [nativeDraft_eq_runAll, hprogram, runAll_append, runAll_vulnSev, vulnerabilityProgram]
  · by_cases hcve : jpath (dataOf obj) "vulnerability.cve" = "" <;> simp only [hcve] <;> rfl
  · simp [windowsProgram, sectionsProgram, complianceProgram, contextProgram, awsCommonProgram,
      awsIdentityProgram, office365Program, gcpProgram, dockerProgram, msGraphProgram, haws, others]

theorem finalSeverity_eq_rated (obj : Map) : finalSeverity obj =
    (Severity.ofScanner (scannerLabel obj)).getD
      (rated (dataOf obj) (mapSeverity (ruleLevel obj)) (ratings (programOf obj))) := by
  have hrated : ((nativeDraft obj).sevId, (nativeDraft obj).sevLabel) =
      rated (dataOf obj) (mapSeverity (ruleLevel obj)) (ratings (programOf obj)) := by
    rw [nativeDraft_eq_runAll, runAll_severity]
    rfl
  rw [finalSeverity, scannerLabel, ← hrated]
  have hnone : Severity.ofScanner "" = none := rfl
  have hlabel := native_vulnSev obj
  by_cases hclass : (classOf obj).classUid = 2002
  · rw [if_pos hclass, hlabel, setSeverity]
    by_cases hcve : jpath (dataOf obj) "vulnerability.cve" = "" <;> simp [hclass, hcve, hnone]
  · have hblank : (if (classOf obj).classUid = 2002 ∧ jpath (dataOf obj) "vulnerability.cve" ≠ ""
        then jpath (dataOf obj) "vulnerability.severity" else "") = "" := if_neg fun h => hclass h.1
    rw [if_neg hclass, hblank, hnone, Option.getD_none]

end

/-! ## What the lists are made of -/

theorem mem_offers {c : StrCol} {source : Source} {l : List Assignment} :
    source ∈ offers c l ↔ .fill c source ∈ l := by
  induction l with
  | nil => simp [offers]
  | cons a rest ih =>
      cases a with
      | fill c' source' =>
          rw [offers]
          by_cases hc : c' = c
          · simp [hc, ih]
          · simp [hc, Ne.symm hc, ih]
      | _ => simp [offers, ih]

theorem mem_puts {key : String} {source : Source} {l : List Assignment} :
    source ∈ puts key l ↔ .put key source ∈ l := by
  induction l with
  | nil => simp [puts]
  | cons a rest ih =>
      cases a with
      | put key' source' =>
          rw [puts]
          by_cases hkey : key' = key
          · simp [hkey, ih]
          · simp [hkey, Ne.symm hkey, ih]
      | _ => simp [puts, ih]

theorem mem_ratings {r : Rating × List String} {l : List Assignment} :
    r ∈ ratings l ↔ .rate r.1 r.2 ∈ l := by
  induction l with
  | nil => simp [ratings]
  | cons a rest ih =>
      cases a with
      | rate rating keys => simp [ratings, ih, Prod.ext_iff]
      | _ => simp [ratings, ih]

theorem mem_copies {a : Assignment} {keys : List String} {table : List (String × String)} :
    a ∈ copies keys table ↔ ∃ entry ∈ table, .put entry.2 (.at (keys ++ [entry.1])) = a :=
  List.mem_map

section

variable (data : Value) (syscheck predecoder : Map)

/-- No native block reads a mapped field as such. -/
theorem mapped_not_mem_program (c : StrCol) (key field : String) :
    .fill c (.mapped field) ∉ program data syscheck predecoder ∧
      .put key (.mapped field) ∉ program data syscheck predecoder := by
  have haws : .fill c (.mapped field) ∉ awsSourceProgram data ∧
      .put key (.mapped field) ∉ awsSourceProgram data := by
    unfold awsSourceProgram
    dsimp only
    split_ifs <;> simp [awsFindingProgram, awsS3Program, mem_copies]
  have hvulnerability : .fill c (.mapped field) ∉ vulnerabilityProgram data ∧
      .put key (.mapped field) ∉ vulnerabilityProgram data := by
    unfold vulnerabilityProgram
    dsimp only
    split_ifs <;> simp
  simp [program, modulesProgram, hvulnerability, haws, windowsProgram, sectionsProgram,
    complianceProgram, contextProgram, awsCommonProgram, awsIdentityProgram, office365Program,
    gcpProgram, dockerProgram, msGraphProgram, mem_copies]

/-- An actor is only ever the user. -/
theorem actor_not_mem_program {c : StrCol} (hc : c ≠ .actorUser) (key : String) (i : ℕ) :
    .fill c (.actor i) ∉ program data syscheck predecoder ∧
      .put key (.actor i) ∉ program data syscheck predecoder := by
  have haws : .fill c (.actor i) ∉ awsSourceProgram data ∧
      .put key (.actor i) ∉ awsSourceProgram data := by
    unfold awsSourceProgram
    dsimp only
    split_ifs <;> simp [awsFindingProgram, awsS3Program, mem_copies]
  have hvulnerability : .fill c (.actor i) ∉ vulnerabilityProgram data ∧
      .put key (.actor i) ∉ vulnerabilityProgram data := by
    unfold vulnerabilityProgram
    dsimp only
    split_ifs <;> simp
  simp [program, modulesProgram, hvulnerability, haws, windowsProgram, sectionsProgram,
    complianceProgram, contextProgram, awsCommonProgram, awsIdentityProgram, office365Program,
    gcpProgram, dockerProgram, msGraphProgram, mem_copies, hc.symm]

end

/-- A mapped source is one of the mapping table. -/
theorem mem_mappedSources {target : Target} {entries : List (String × String)} {source : Source} :
    source ∈ mappedSources target entries ↔
      ∃ entry ∈ entries, Target.of entry.2 = target ∧ source = .mapped entry.1 := by
  simp only [mappedSources, List.mem_map, List.mem_filter, decide_eq_true_eq, and_assoc]
  exact exists_congr fun entry => and_congr_right fun _ => and_congr_right fun _ => eq_comm

section

variable {env : TransformEnv} {custom : CustomMappings} {obj : Map} {source : Source}

theorem mem_strSources {c : StrCol} (h : source ∈ strSources env custom obj c) :
    (∀ field, source = .mapped field → field ∈ custom.fieldMap.keys) ∧
      ∀ i, source = .actor i → c = .actorUser := by
  rcases List.mem_append.mp h with hnative | hmapped
  · have hprogram : (∃ v, source = .text v) ∨ .fill c source ∈ programOf obj := by
      rw [nativeSources] at hnative
      split at hnative
      · exact .inl ⟨_, List.mem_singleton.mp hnative⟩
      · rcases List.mem_cons.mp hnative with htext | hoffer
        · exact .inl ⟨_, htext⟩
        · exact .inr (mem_offers.mp hoffer)
    rcases hprogram with ⟨v, rfl⟩ | hmem
    · simp
    · refine ⟨fun field heq => ?_, fun i heq => ?_⟩ <;> subst heq
      · exact absurd hmem (mapped_not_mem_program _ _ _ c "" field).1
      · by_contra hc
        exact (actor_not_mem_program _ _ _ hc "" i).1 hmem
  · obtain ⟨entry, hentry, -, rfl⟩ := mem_mappedSources.mp hmapped
    refine ⟨fun field heq => ?_, by simp⟩
    rw [← Source.mapped.inj heq]
    exact List.mem_map_of_mem (env.order.mem_arrange.mp hentry)

theorem mem_extensionSources {key : String} (h : source ∈ extensionSources env custom obj key) :
    (∀ field, source = .mapped field → field ∈ custom.fieldMap.keys) ∧ ∀ i, source ≠ .actor i := by
  rcases List.mem_append.mp h with hmapped | hnative
  · obtain ⟨entry, hentry, -, rfl⟩ := mem_mappedSources.mp (List.mem_reverse.mp hmapped)
    refine ⟨fun field heq => ?_, by simp⟩
    rw [← Source.mapped.inj heq]
    exact List.mem_map_of_mem (env.order.mem_arrange.mp hentry)
  · have hmem := mem_puts.mp (List.mem_reverse.mp hnative)
    refine ⟨fun field heq => ?_, fun i heq => ?_⟩ <;> subst heq
    · exact absurd hmem (mapped_not_mem_program _ _ _ .status key field).2
    · exact absurd hmem (actor_not_mem_program _ _ _ (by decide : StrCol.status ≠ _) key i).2

end

end WazuhOcsf
