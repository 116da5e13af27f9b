import WazuhOcsf.Pipeline.Blocks
import WazuhOcsf.Pipeline.Transform

/-!
# Every record is OCSF-coherent

The validator keeps tables of its own, apart from the classifier, the activity
tables and the severity overrides.  This file proves that a record of `transform`
passes all of them, time apart, and that its severity label is the one of its
severity id after any combination of overrides.
-/

namespace WazuhOcsf

open Json RustString Draft

/-! ## Severity through the native blocks -/

theorem labelled_mapSeverity (level : BitVec 64) : Labelled (mapSeverity level) := by
  unfold mapSeverity
  dsimp only
  split_ifs <;> rfl

theorem keepsLabel_native (data : Value) (syscheck predecoder : Map) :
    KeepsLabel (native data syscheck predecoder) := by
  have hwrites : Writes True (fun _ => True) (native data syscheck predecoder) :=
    writes_native (fun _ => trivial) syscheck predecoder fun _ => trivial
  exact hwrites.keepsLabel

theorem labelled_nativeDraft (obj : Map) :
    Labelled ((nativeDraft obj).sevId, (nativeDraft obj).sevLabel) :=
  keepsLabel_native _ _ _ _ (labelled_mapSeverity _)

theorem labelled_finalSeverity (obj : Map) : Labelled (finalSeverity obj) := by
  unfold finalSeverity
  dsimp only
  split
  · exact keepsLabel_setSeverity (Severity.labelled_ofScanner _) _ (labelled_nativeDraft obj)
  · exact labelled_nativeDraft obj

/-! ## The validator's tables -/

theorem severityId_valid_of_labelled {severity : BitVec 8 × String} (h : Labelled severity) :
    severity.1 ∈ validSeverityIds := by
  have hsome : (severityLabel severity.1).isSome := by rw [h]; rfl
  revert hsome
  generalize severity.1 = id
  revert id
  decide

/-- Whatever the groups, the event and the columns, the activity of a class the
classifier returns is one the validator admits for it. -/
theorem activity_valid {cls : OcsfClass} (hcls : cls ∈ OcsfClass.all) (groups : List String)
    (event : String) (cols : Columns) :
    ∀ ids ∈ validActivityIdsForClass cls.classUid,
      (activity cls.classUid groups event cols).1 ∈ ids := by
  intro ids hids
  simp only [OcsfClass.all, List.mem_cons, List.not_mem_nil, or_false] at hcls
  rcases hcls with rfl | rfl | rfl | rfl | rfl | rfl | rfl | rfl | rfl | rfl | rfl <;>
    obtain rfl := Option.some.inj hids <;>
    simp only [activity, OcsfClass.fileSystemActivity, OcsfClass.processActivity,
      OcsfClass.vulnerabilityFinding, OcsfClass.complianceFinding, OcsfClass.detectionFinding,
      OcsfClass.accountChange, OcsfClass.authentication, OcsfClass.networkActivity,
      OcsfClass.httpActivity, OcsfClass.dnsActivity, OcsfClass.dhcpActivity, BitVec.reduceToNat]
  · split <;> decide -- file system: by the syscheck event
  · split_ifs <;> decide -- process
  · decide -- the three findings have one activity
  · decide
  · decide
  · split_ifs <;> decide -- account change
  · split_ifs <;> decide -- authentication
  · split_ifs <;> decide -- network: by the action
  · split <;> decide -- HTTP: by the method
  · split_ifs <;> decide -- DNS
  · split_ifs <;> decide -- DHCP

/-- The classifier's classes are in the validator's tables, with their category. -/
theorem class_valid {cls : OcsfClass} (hcls : cls ∈ OcsfClass.all) :
    cls.classUid ∈ validClassUids ∧ (validActivityIdsForClass cls.classUid).isSome ∧
      expectedCategory cls.classUid = some (cls.categoryUid, cls.categoryName) := by
  revert cls
  decide

/-- What the validator asks of a record, its time apart, is that it is assembled
from a class of the classifier, a labelled severity and an activity of the class. -/
theorem validateOcsfRecord_of_parts {rec : OcsfRecord} {cls : OcsfClass}
    (hcls : cls ∈ OcsfClass.all) (hclass : rec.classUid = cls.classUid)
    (hcategory : rec.categoryUid = cls.categoryUid ∧ rec.categoryName = cls.categoryName)
    (hseverity : Labelled (rec.severityId, rec.severity))
    (htype : rec.typeUid = rec.classUid * 100 + rec.activityId.setWidth 32)
    (hactivity : ∀ ids ∈ validActivityIdsForClass cls.classUid, rec.activityId ∈ ids) :
    validateOcsfRecord rec = if rec.time = 0 then [Violation.time] else [] := by
  obtain ⟨hknown, hlisted, hexpected⟩ := class_valid hcls
  obtain ⟨ids, hids⟩ := Option.isSome_iff_exists.mp hlisted
  have hrange : rec.severityId ∈ validSeverityIds := severityId_valid_of_labelled hseverity
  unfold validateOcsfRecord
  rw [if_pos hrange, if_pos htype, hclass, if_pos hknown, hids, hexpected]
  simp [hcategory, hactivity ids hids]

/-- A record passes every check of the validator but possibly the one on its time,
and its severity label is the one of its severity id. -/
theorem transform_coherent {ext : Externals} {env : TransformEnv} {raw db : String}
    {specialLocs : List String} {custom : CustomMappings} {table : String} {rec : OcsfRecord}
    (h : transform ext env raw db specialLocs custom = some (table, rec)) :
    (∀ violation ∈ validateOcsfRecord rec, violation = Violation.time ∧ rec.time = 0) ∧
      severityLabel rec.severityId = some rec.severity := by
  obtain ⟨obj, -, -, -, rfl⟩ := transform_eq_some_iff.mp h
  generalize hrec : buildRecord ext env custom raw obj = rec
  obtain ⟨hclass, hcategory⟩ := hrec ▸ buildRecord_class ext env custom raw obj
  have hseverity : Labelled (rec.severityId, rec.severity) := by
    rw [← hrec, buildRecord_severity]
    exact labelled_finalSeverity obj
  have hcls : classOf obj ∈ OcsfClass.all := classifyEvent_mem_all _ _ _
  have hactivity : rec.activityId = (finalActivity env custom obj).1 := by
    rw [← hrec, buildRecord_activityId]
  have htype : rec.typeUid = rec.classUid * 100 + rec.activityId.setWidth 32 := by
    rw [hclass, hactivity, ← hrec, buildRecord_typeUid]
  have hadmitted :
      ∀ ids ∈ validActivityIdsForClass (classOf obj).classUid, rec.activityId ∈ ids := by
    rw [hactivity]
    exact activity_valid hcls _ _ _
  rw [validateOcsfRecord_of_parts hcls hclass hcategory hseverity htype hadmitted]
  refine ⟨?_, hseverity⟩
  split
  · next htime => simpa using htime
  · simp

/-- A level 7 alert of the `sshd` group. -/
def sshdAlert : Map :=
  [("rule", .object [("groups", .array [.string "sshd"]), ("level", .number (.posInt 7))])]

/-- The text of an alert of sshd. -/
def sshdLine : String := "\x7b\"rule\":\x7b\"groups\":[\"sshd\"],\"level\":7\x7d\x7d"

theorem transform_coherent_sshd :
    severityLabel (buildRecord (.knowing sshdLine (.object sshdAlert)) default default sshdLine
        sshdAlert).severityId =
      some (buildRecord (.knowing sshdLine (.object sshdAlert)) default default sshdLine
        sshdAlert).severity :=
  (transform_coherent (transform_knowing (by decide) sshdAlert default "wazuh" [] default)).2

end WazuhOcsf
