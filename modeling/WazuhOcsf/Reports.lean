import WazuhOcsf.UnmappedReport
import WazuhOcsf.Util.ReportFile

/-!
# Reports across restarts

Sessions one after the other and the files their reports are in.  A session writes its
report as often as it flushes, and any call of it may fail, or be the last one of the
process; the next session begins by archiving what is there.  While archiving works, and goes
to a name that is free, the report at its path is the one of the session that runs, and the
last report of every session before is in an archive: `reports_kept`.
-/

namespace WazuhOcsf

open Transition

variable {ext : Externals} {name : String}

/-- The sessions one after the other, and the directory their reports are in. -/
structure Reports where
  session : Session
  /-- The directory of the report. -/
  files : Files String
  /-- The last reports of the sessions before. -/
  past : List (Option (List String))

namespace Reports

/-- What happens to session and report; a restart opens the next session. -/
inductive Action
  | transform (raw : String)
  | reload (mappings : CustomMappings)
  | write (order : IterOrder (String × FieldInfo)) (calls : ReportCalls)
  /-- The process ends, in whatever way, and is started again. -/
  | restart (mappings : CustomMappings) (stamp : String) (renameOk : Bool)

/-- The first session, with no report from before. -/
def initial (mappings : CustomMappings) (files : Files String) : Reports where
  session := .initial mappings
  files := files
  past := []

/-- The files after `write_unmapped_report`; without fields it returns at once. -/
def writeFiles (s : Reports) (name : String) (order : IterOrder (String × FieldInfo))
    (calls : ReportCalls) : Files String × Bool :=
  match writeUnmappedReport order s.session.tracker with
  | some fields => writeReportFile calls s.files name fields
  | none => (s.files, true)

/-- One step of the session, or its end and the start of the next. -/
def step (ext : Externals) (name : String) (s : Reports) : Action → Option Reports
  | .transform raw => (s.session.step ext (.transform raw)).map fun session =>
      { s with session := session }
  | .reload mappings => (s.session.step ext (.reload mappings)).map fun session =>
      { s with session := session }
  | .write order calls =>
      let written := s.writeFiles name order calls
      (s.session.step ext (.writeReport order written.2)).map fun session =>
        { s with session := session, files := written.1 }
  | .restart mappings stamp renameOk => some
      { session := .initial mappings
        files := (archiveReport renameOk s.files name stamp).1
        past := s.past ++ [s.session.report] }

end Reports

/-- A start archives the report there is, under a name that is not taken. -/
def Archives (name : String) (s : Reports) : Reports.Action → Prop
  | .restart _ stamp renameOk => renameOk = true ∧ s.files (reportArchive name stamp) = none
  | _ => True

instance (s : Reports) : DecidablePred (Archives name s)
  | .restart _ stamp renameOk =>
      inferInstanceAs (Decidable (renameOk = true ∧ s.files (reportArchive name stamp) = none))
  | .transform _ | .reload _ | .write _ _ => .isTrue trivial

/-- The files hold what the sessions have reported. -/
structure ReportsInv (name : String) (s : Reports) : Prop where
  current : s.files name = s.session.report.map reportBytes
  kept : ∀ fields, some fields ∈ s.past →
    ∃ stamp, s.files (reportArchive name stamp) = some (reportBytes fields)

namespace ReportsInv

variable {s s' : Reports}

/-- A session goes on, and writes nothing. -/
theorem withSession (h : ReportsInv name s) {session : Session}
    (hreport : session.report = s.session.report) :
    ReportsInv name { s with session := session } :=
  ⟨hreport ▸ h.current, h.kept⟩

theorem write (h : ReportsInv name s) {order : IterOrder (String × FieldInfo)} {calls : ReportCalls}
    {fields : List String} (hfields : writeUnmappedReport order s.session.tracker = some fields)
    {files' : Files String} {ok : Bool}
    (hwrite : writeReportFile calls s.files name fields = (files', ok)) {session : Session}
    (hstep : s.session.step ext (.writeReport order ok) = some session) :
    ReportsInv name { s with session := session, files := files' } := by
  obtain ⟨hname, hothers⟩ := writeReportFile_cases hwrite
  constructor
  case current =>
    have hreport : session.report = if ok then some fields else s.session.report := by
      rw [Session.step, hfields] at hstep
      split_ifs at hstep with hok
      · obtain rfl := Option.some.inj hstep
        rw [if_pos hok]
        rfl
      · obtain rfl := Option.some.inj hstep
        rw [if_neg hok]
    show files' name = session.report.map reportBytes
    rw [hname, hreport, h.current]
    split <;> rfl
  case kept =>
    intro past hpast
    obtain ⟨stamp, hstamp⟩ := h.kept past hpast
    refine ⟨stamp, ?_⟩
    show files' _ = _
    rw [hothers _ (reportArchive_ne name stamp) (reportArchive_ne_tmp name stamp), hstamp]

theorem restart (h : ReportsInv name s) {stamp : String}
    (hfresh : s.files (reportArchive name stamp) = none) (mappings : CustomMappings) :
    ReportsInv name
      { session := .initial mappings
        files := (archiveReport true s.files name stamp).1
        past := s.past ++ [s.session.report] } := by
  have hmoved : archiveReport true s.files name stamp =
      ((archiveReport true s.files name stamp).1, true) :=
    Prod.ext rfl (archiveReport_of_rename s.files name stamp)
  obtain ⟨hname, harchived, hothers⟩ := archiveReport_cases hmoved
  constructor
  case current => exact hname
  case kept =>
    intro fields hfields
    rcases List.mem_append.mp hfields with hbefore | hlast
    · obtain ⟨stamp', hstamp'⟩ := h.kept fields hbefore
      have hne : reportArchive name stamp' ≠ reportArchive name stamp := by
        intro heq
        rw [heq, hfresh] at hstamp'
        cases hstamp'
      refine ⟨stamp', ?_⟩
      rw [← hstamp']
      exact hothers _ (reportArchive_ne name stamp') hne
    · refine ⟨stamp, harchived _ ?_⟩
      rw [h.current, ← List.mem_singleton.mp hlast]
      rfl

theorem step {a : Reports.Action} (h : ReportsInv name s) (harchives : Archives name s a)
    (hstep : s.step ext name a = some s') : ReportsInv name s' := by
  cases a with
  | transform raw =>
      obtain ⟨session, hsession, rfl⟩ := Option.map_eq_some_iff.mp hstep
      refine h.withSession ?_
      rw [Session.step] at hsession
      split at hsession <;> exact Option.some.inj hsession ▸ rfl
  | reload mappings =>
      obtain rfl := Option.some.inj hstep
      exact h.withSession rfl
  | write order calls =>
      obtain ⟨session, hsession, rfl⟩ := Option.map_eq_some_iff.mp hstep
      cases hfields : writeUnmappedReport order s.session.tracker with
      | some fields =>
          rw [Reports.writeFiles, hfields] at hsession ⊢
          exact h.write hfields rfl hsession
      | none =>
          rw [Reports.writeFiles, hfields] at hsession ⊢
          refine h.withSession ?_
          rw [Session.step, hfields] at hsession
          exact Option.some.inj hsession ▸ rfl
  | restart mappings stamp renameOk =>
      obtain rfl := Option.some.inj hstep
      obtain ⟨rfl, hfresh⟩ := harchives
      exact h.restart hfresh mappings

end ReportsInv

/-- Whatever calls of whatever writes fail or are cut short: the report at its path is the
one that the session has written last, whole, and the last report of every session before is
in an archive. -/
theorem reports_kept {mappings : CustomMappings} {files : Files String} (hnone : files name = none)
    {s : Reports}
    (run : RunWhere (Reports.step ext name) (Archives name) (.initial mappings files) s) :
    s.files.readToString name = s.session.report.map renderReport ∧
      ∀ fields, some fields ∈ s.past →
        ∃ stamp, s.files.readToString (reportArchive name stamp) = some (renderReport fields) := by
  have h : ReportsInv name s := by
    refine run.invariant ⟨hnone, fun fields hmem => absurd hmem List.not_mem_nil⟩
      fun _ _ _ h harchives hstep => h.step harchives hstep
  refine ⟨?_, fun fields hfields => ?_⟩
  · cases hreport : s.session.report with
    | none => simp [Files.readToString, h.current, hreport]
    | some fields =>
        rw [Option.map_some]
        exact Files.readToString_of_encode (by rw [h.current, hreport]; rfl)
  · obtain ⟨stamp, hstamp⟩ := h.kept fields hfields
    exact ⟨stamp, Files.readToString_of_encode hstamp⟩

/-- A report is written and archived; the first report of the next session is cut short. -/
def sampleReports : List Reports.Action :=
  [.transform threatLine, .write default ⟨.all, true, true⟩,
    .restart default "20240101T000000Z" true, .transform threatLine,
    .write default ⟨.failed (some [0x7b]), true, true⟩]

theorem reports_kept_threat : ∃ s,
    RunWhere (Reports.step threatExternals "unmapped_fields.json") (Archives "unmapped_fields.json")
        (.initial default fun _ => none) s ∧
      s.past = [some ["edr.threat"]] ∧ s.files.readToString "unmapped_fields.json" = none ∧
      ∃ stamp, s.files.readToString (reportArchive "unmapped_fields.json" stamp) =
        some (renderReport ["edr.threat"]) := by
  have hend : (exec (Reports.step threatExternals "unmapped_fields.json")
      (.initial default fun _ => none) sampleReports).map (fun s => (s.past, s.session.report)) =
      some ([some ["edr.threat"]], none) := by
    decide +kernel
  obtain ⟨s, hexec, hend⟩ := Option.map_eq_some_iff.mp hend
  obtain ⟨hpast, hreport⟩ := Prod.mk.inj hend
  have run : RunWhere (Reports.step threatExternals "unmapped_fields.json")
      (Archives "unmapped_fields.json") (.initial default fun _ => none) s :=
    runWhere_of_exec hexec (by decide +kernel)
  obtain ⟨hcurrent, hkept⟩ := reports_kept rfl run
  exact ⟨s, run, hpast, by rw [hcurrent, hreport]; rfl, hkept _ (by simp [hpast])⟩

end WazuhOcsf
