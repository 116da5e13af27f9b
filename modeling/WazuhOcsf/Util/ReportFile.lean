import WazuhOcsf.Input.StateStore
import WazuhOcsf.Library.Json

/-!
# The report file

`write_unmapped_report` and `archive_unmapped_report` on the files of the report's directory.
A report goes to a temporary file and from there over the old one; the report of the session
before is first moved out of the way, to a name with the time of the start in it.
-/

namespace WazuhOcsf

open Json RustString

/-! ## Names -/

/-- `file_stem`: a file name without its extension.  A dot at the start begins none. -/
def fileStem (name : String) : String :=
  let before := (name.toList.rdropWhile (· ≠ '.')).dropLast
  if before = [] then name else .ofList before

/-- `with_extension("json.tmp")`. -/
def reportTmp (name : String) : String := fileStem name ++ ".json.tmp"

/-- Where the report moves at a start; `stamp` is the time. -/
def reportArchive (name stamp : String) : String := fileStem name ++ "." ++ stamp ++ ".bak"

/-- What follows the last dot is the extension. -/
theorem fileStem_append {base extension : String} (hbase : base ≠ "")
    (hextension : '.' ∉ extension.toList) : fileStem (base ++ "." ++ extension) = base := by
  have hall : ∀ c ∈ extension.toList.reverse, decide (c ≠ '.') = true := fun c hc =>
    decide_eq_true (ne_of_mem_of_not_mem (List.mem_reverse.mp hc) hextension)
  have hchars : (base ++ "." ++ extension).toList = base.toList ++ ['.'] ++ extension.toList := by
    rw [String.toList_append, String.toList_append]
    rfl
  have hstem : (base ++ "." ++ extension).toList.rdropWhile (· ≠ '.') = base.toList ++ ['.'] := by
    rw [hchars, List.rdropWhile, List.reverse_append, List.dropWhile_append_of_pos hall,
      ← List.rdropWhile, List.rdropWhile_concat_neg _ _ _ (by simp)]
  have hne : base.toList ≠ [] := fun hnil => hbase (String.toList_inj.mp hnil)
  simp only [fileStem, hstem, List.dropLast_concat, if_neg hne, String.ofList_toList]

/-- A character more makes another name. -/
theorem append_cons_ne {s t : String} {c : Char} {rest : List Char} (ht : t.toList = c :: rest) :
    s ++ t ≠ s ∧ s ++ t ≠ "" := by
  constructor
  · intro heq
    have hchars := congrArg String.toList heq
    rw [String.toList_append, List.append_right_eq_self, ht] at hchars
    cases hchars
  · intro heq
    have hchars := congrArg String.toList heq
    rw [String.toList_append, ht] at hchars
    simp at hchars

section

variable (name stamp : String)

theorem fileStem_reportTmp : fileStem (reportTmp name) = fileStem name ++ ".json" := by
  have hsplit : reportTmp name = fileStem name ++ ".json" ++ "." ++ "tmp" := by
    rw [reportTmp, String.append_assoc, String.append_assoc]
    rfl
  rw [hsplit]
  exact fileStem_append (append_cons_ne rfl).2 (by decide)

theorem fileStem_reportArchive :
    fileStem (reportArchive name stamp) = fileStem name ++ ("." ++ stamp) := by
  have hsplit : reportArchive name stamp = fileStem name ++ ("." ++ stamp) ++ "." ++ "bak" := by
    simp only [reportArchive, String.append_assoc]
    rfl
  rw [hsplit]
  exact fileStem_append (append_cons_ne (String.toList_append ..)).2 (by decide)

/-- The temporary file is another one. -/
theorem reportTmp_ne : reportTmp name ≠ name := by
  intro heq
  have hstem := fileStem_reportTmp name
  rw [heq] at hstem
  exact (append_cons_ne rfl).1 hstem.symm

theorem reportArchive_ne : reportArchive name stamp ≠ name := by
  intro heq
  have hstem := fileStem_reportArchive name stamp
  rw [heq] at hstem
  exact (append_cons_ne (String.toList_append ..)).1 hstem.symm

theorem reportArchive_ne_tmp : reportArchive name stamp ≠ reportTmp name := by
  intro heq
  have hlast := congrArg (fun s => s.toList.reverse.head?) heq
  simp [reportArchive, reportTmp] at hlast

end

/-! ## The text -/

/-- The note at the head of a report. -/
def reportNote : String :=
  "Fields from data.* that are not yet mapped to an OCSF typed column. " ++
    "Add entries to config/field_mappings.toml to promote them."

/-- `to_string_pretty` of the report; there is no report without fields. -/
def renderReport (fields : List String) : String :=
  "\x7b\n  \"fields\": [\n" ++
    ",\n".intercalate (fields.map fun field => "    " ++ .ofList (quote field)) ++
    ("\n  ],\n  \"note\": " ++ .ofList (quote reportNote) ++ "\n\x7d")

/-! ## Writing and archiving -/

/-- How the calls of one `write_unmapped_report` end.  A process that dies in between
leaves what a call that fails leaves. -/
structure ReportCalls where
  write : StateStore.Written
  rename : Bool
  removeFile : Bool
  deriving DecidableEq

/-- `write_unmapped_report` for a tracker with these fields, and whether it got through. -/
def writeReportFile (calls : ReportCalls) (files : Files String) (name : String)
    (fields : List String) : Files String × Bool :=
  let tmp := reportTmp name
  match calls.write with
  | .failed left => (Function.update files tmp left, false)
  | .all =>
    let written := files.write tmp (Utf8.encode (renderReport fields).toList)
    match if calls.rename then written.rename tmp name else none with
    | some renamed => (renamed, true)
    | none => (if calls.removeFile then Function.update written tmp none else written, false)

/-- `archive_unmapped_report`, and whether the old report is out of the way. -/
def archiveReport (renameOk : Bool) (files : Files String) (name stamp : String) :
    Files String × Bool :=
  if (files name).isSome then
    match if renameOk then files.rename name (reportArchive name stamp) else none with
    | some renamed => (renamed, true)
    | none => (files, false)
  else (files, true)

variable {files files' : Files String} {name stamp : String} {fields : List String} {ok : Bool}

/-- The bytes of a report. -/
def reportBytes (fields : List String) : List UInt8 := Utf8.encode (renderReport fields).toList

/-- A write gets through, or the report is the old one; no file but the temporary one is
touched besides. -/
theorem writeReportFile_cases {calls : ReportCalls}
    (h : writeReportFile calls files name fields = (files', ok)) :
    files' name = (if ok then some (reportBytes fields) else files name) ∧
      ∀ other, other ≠ name → other ≠ reportTmp name → files' other = files other := by
  have htmp := reportTmp_ne name
  unfold writeReportFile at h
  dsimp only at h
  split at h
  · obtain ⟨rfl, rfl⟩ := Prod.mk.inj h
    exact ⟨Function.update_of_ne htmp.symm ..,
      fun other _ hother => Function.update_of_ne hother ..⟩
  · split at h
    · next renamed hrename =>
        obtain ⟨rfl, rfl⟩ := Prod.mk.inj h
        obtain ⟨-, hrename⟩ := Option.ite_none_right_eq_some.mp hrename
        refine ⟨?_, fun other hname hother => ?_⟩
        · rw [Files.rename_apply hrename, if_pos rfl, Files.write_self]
          rfl
        · rw [Files.rename_apply hrename, if_neg hname, if_neg hother, Files.write_of_ne _ hother]
    · obtain ⟨rfl, rfl⟩ := Prod.mk.inj h
      have hsame : ∀ other, other ≠ reportTmp name →
          (if calls.removeFile then
            Function.update (files.write (reportTmp name) (reportBytes fields)) (reportTmp name) none
          else files.write (reportTmp name) (reportBytes fields)) other = files other := by
        intro other hother
        split_ifs
        · rw [Function.update_of_ne hother, Files.write_of_ne _ hother]
        · exact Files.write_of_ne _ hother _
      exact ⟨hsame name htmp.symm, fun other _ hother => hsame other hother⟩

/-- A rename that is not refused gets an old report out of the way. -/
theorem archiveReport_of_rename (files : Files String) (name stamp : String) :
    (archiveReport true files name stamp).2 = true := by
  unfold archiveReport
  split
  · next hsome =>
      obtain ⟨bytes, hbytes⟩ := Option.isSome_iff_exists.mp hsome
      simp [Files.rename, hbytes]
  · rfl

/-- An old report moves to its archive, and the archives there are stay as they are. -/
theorem archiveReport_cases {renameOk : Bool}
    (h : archiveReport renameOk files name stamp = (files', true)) :
    files' name = none ∧
      (∀ bytes, files name = some bytes → files' (reportArchive name stamp) = some bytes) ∧
      ∀ other, other ≠ name → other ≠ reportArchive name stamp → files' other = files other := by
  have hne := reportArchive_ne name stamp
  unfold archiveReport at h
  split at h
  · split at h
    · next renamed hrename =>
        obtain ⟨rfl, -⟩ := Prod.mk.inj h
        obtain ⟨-, hrename⟩ := Option.ite_none_right_eq_some.mp hrename
        refine ⟨?_, fun bytes hbytes => ?_, fun other hname hother => ?_⟩
        · rw [Files.rename_apply hrename, if_neg hne.symm, if_pos rfl]
        · rw [Files.rename_apply hrename, if_pos rfl, hbytes]
        · rw [Files.rename_apply hrename, if_neg hother, if_neg hname]
    · cases h
  · next hnone =>
      obtain ⟨rfl, -⟩ := Prod.mk.inj h
      rw [Option.not_isSome_iff_eq_none] at hnone
      exact ⟨hnone, fun bytes hbytes => absurd hbytes (by simp [hnone]), fun _ _ _ => rfl⟩

end WazuhOcsf
