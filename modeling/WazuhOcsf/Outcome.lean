import WazuhOcsf.Precedence

/-!
# Where the outcome of an event comes from

When neither the decoder nor a mapping gives a status, it is taken from the rule groups,
then from the action of a network event.

* Activity and status of a network event come from the same action through two lists of
  words.  `outcome_agrees_iff`: they agree but for the five words that only the activity
  knows.
* The success groups are tried first.  `failed_not_success_iff`: an alert of a failure
  group is no success, unless it is also of a success group.
-/

namespace WazuhOcsf

open Json RustString

/-! ## The status after the backfill -/

theorem backfillStatus_status (groups : List String) (classUid : BitVec 32) {cols : Columns}
    (h : cols.str .status = "") :
    (backfillStatus groups classUid cols).str .status =
      if groups.any (· ∈ successGroups) then "Success"
      else if groups.any (· ∈ failureGroups) then "Failure"
      else if classUid = 4001 then cols.str .action else "" := by
  unfold backfillStatus
  dsimp only
  split_ifs <;> simp [Columns.fillStr_str, h]

section

variable {env : TransformEnv} {custom : CustomMappings} {obj : Map}

/-- Of an alert with a success group. -/
theorem finalStatus_of_success (h : (mappedColumns env custom obj).1.str .status = "")
    (hgroups : ∃ g ∈ ruleGroups obj, g ∈ successGroups) :
    (finalColumns env custom obj).str .status = "Success" := by
  rw [finalColumns, backfillStatus_status _ _ h, if_pos (by simpa using hgroups)]

/-- Of an alert with a failure group and no success group. -/
theorem finalStatus_of_failure (h : (mappedColumns env custom obj).1.str .status = "")
    (hsuccess : ∀ g ∈ ruleGroups obj, g ∉ successGroups)
    (hfailure : ∃ g ∈ ruleGroups obj, g ∈ failureGroups) :
    (finalColumns env custom obj).str .status = "Failure" := by
  rw [finalColumns, backfillStatus_status _ _ h, if_neg (by simpa using hsuccess),
    if_pos (by simpa using hfailure)]

/-- Of a network event without either. -/
theorem finalStatus_of_action (h : (mappedColumns env custom obj).1.str .status = "")
    (hgroups : ∀ g ∈ ruleGroups obj, g ∉ successGroups ∧ g ∉ failureGroups)
    (hclass : (classOf obj).classUid = 4001) :
    (finalColumns env custom obj).str .status = (mappedColumns env custom obj).1.str .action := by
  have hsuccess : ∀ g ∈ ruleGroups obj, g ∉ successGroups := fun g hg => (hgroups g hg).1
  have hfailure : ∀ g ∈ ruleGroups obj, g ∉ failureGroups := fun g hg => (hgroups g hg).2
  rw [finalColumns, backfillStatus_status _ _ h, if_neg (by simpa using hsuccess),
    if_neg (by simpa using hfailure), if_pos hclass]

end

/-! ## Network events -/

/-- The actions that open a connection. -/
def openWords : List String := ["allow", "allowed", "permit", "pass", "accept", "accepted", "open"]

/-- The actions that refuse one. -/
def refuseWords : List String :=
  ["deny", "denied", "block", "blocked", "drop", "dropped", "reject", "rejected", "refuse",
   "refused"]

/-- The states of a success. -/
def successWords : List String := ["success", "allow", "allowed", "pass", "passed", "accepted"]

/-- The states of a failure. -/
def failureWords : List String :=
  ["failure", "fail", "failed", "deny", "denied", "block", "blocked", "drop", "dropped", "reject",
   "rejected"]

/-- The actions the status does not know. -/
def activityOnlyWords : List String := ["permit", "accept", "open", "refuse", "refused"]

theorem activity_network (groups : List String) (event : String) (cols : Columns) :
    activity 4001 groups event cols =
      if toAsciiLowercase (cols.str .action) ∈ openWords then (1, "Open")
      else if toAsciiLowercase (cols.str .action) ∈ refuseWords then (5, "Refuse")
      else if toAsciiLowercase (cols.str .action) ∈
          ["close", "closed", "end", "finish", "finished", "timeout", "timed_out"] then (2, "Close")
      else if toAsciiLowercase (cols.str .action) ∈ ["reset", "rst"] then (3, "Reset")
      else if toAsciiLowercase (cols.str .action) ∈ ["fail", "failed", "error"] then (4, "Fail")
      else (6, "Traffic") := rfl

theorem statusId_network (status : String) :
    statusId 4001 status =
      if toAsciiLowercase status ∈ successWords then 1
      else if toAsciiLowercase status ∈ failureWords then 2
      else if toAsciiLowercase status = "" then 0
      else 99 := rfl

/-- Open and refused by the word of the action. -/
theorem activity_network_iff (groups : List String) (event : String) (cols : Columns) :
    ((activity 4001 groups event cols).1 = 1 ↔
        toAsciiLowercase (cols.str .action) ∈ openWords) ∧
      ((activity 4001 groups event cols).1 = 5 ↔
        toAsciiLowercase (cols.str .action) ∈ refuseWords) := by
  have hdisjoint : ∀ word ∈ openWords, word ∉ refuseWords := by decide
  rw [activity_network]
  by_cases hopen : toAsciiLowercase (cols.str .action) ∈ openWords
  · simp [hopen, hdisjoint _ hopen]
  · simp only [hopen, if_false]
    split_ifs with hrefuse <;> simp [hrefuse]

/-- Success and failure by the word of the status. -/
theorem statusId_network_iff (status : String) :
    (statusId 4001 status = 1 ↔ toAsciiLowercase status ∈ successWords) ∧
      (statusId 4001 status = 2 ↔ toAsciiLowercase status ∈ failureWords) := by
  have hdisjoint : ∀ word ∈ successWords, word ∉ failureWords := by decide
  rw [statusId_network]
  by_cases hsuccess : toAsciiLowercase status ∈ successWords
  · simp [hsuccess, hdisjoint _ hsuccess]
  · simp only [hsuccess, if_false]
    split_ifs with hfailure <;> simp [hfailure]

/-- Each list is in the other but for the words only the activity knows. -/
theorem words_agree_iff (word : String) :
    ((word ∈ openWords → word ∈ successWords) ∧ (word ∈ refuseWords → word ∈ failureWords)) ↔
      word ∉ activityOnlyWords := by
  have hopen : ∀ word ∈ openWords, word ∈ successWords ∨ word ∈ activityOnlyWords := by decide
  have hrefuse : ∀ word ∈ refuseWords, word ∈ failureWords ∨ word ∈ activityOnlyWords := by decide
  have honly : ∀ word ∈ activityOnlyWords, word ∈ openWords ∧ word ∉ successWords ∨
      word ∈ refuseWords ∧ word ∉ failureWords := by decide
  constructor
  · rintro ⟨hsuccess, hfailure⟩ hword
    rcases honly word hword with ⟨hin, hout⟩ | ⟨hin, hout⟩
    · exact hout (hsuccess hin)
    · exact hout (hfailure hin)
  · exact fun hword => ⟨fun hin => (hopen word hin).resolve_right hword,
      fun hin => (hrefuse word hin).resolve_right hword⟩

variable {ext : Externals} {env : TransformEnv} {raw db : String} {specialLocs : List String}
  {custom : CustomMappings} {table : String} {rec : OcsfRecord} {obj : Map}

/-- If the status of a network event is its action, activity and status agree exactly if
the action is none of the words only the activity knows. -/
theorem outcome_agrees_iff (h : transform ext env raw db specialLocs custom = some (table, rec))
    (hparse : ext.fromStr raw = some (.object obj)) (hclass : rec.classUid = 4001)
    (hstatus : (mappedColumns env custom obj).1.str .status = "")
    (hgroups : ∀ g ∈ ruleGroups obj, g ∉ successGroups ∧ g ∉ failureGroups) :
    ((rec.activityId = 1 → rec.statusId = 1) ∧ (rec.activityId = 5 → rec.statusId = 2)) ↔
      toAsciiLowercase ((mappedColumns env custom obj).1.str .action) ∉ activityOnlyWords := by
  obtain ⟨-, rfl⟩ := row_of_transform hparse h
  rw [(buildRecord_class ..).1] at hclass
  -- the backfill changes the status and nothing else
  have haction : (finalColumns env custom obj).str .action =
      (mappedColumns env custom obj).1.str .action := finalColumns_str _ _ _ (by decide)
  have hactivity := activity_network_iff (ruleGroups obj) (getStr (getSection obj "syscheck") "event")
    (finalColumns env custom obj)
  have hid := statusId_network_iff ((finalColumns env custom obj).str .status)
  rw [haction] at hactivity
  rw [finalStatus_of_action hstatus hgroups hclass] at hid
  rw [buildRecord_activityId, buildRecord_statusId, finalActivity, hclass,
    finalStatus_of_action hstatus hgroups hclass, hactivity.1, hactivity.2, hid.1, hid.2,
    words_agree_iff]

/-- A firewall alert with the given action. -/
def actionAlert (action : String) : Map :=
  [("rule", .object [("groups", .array [.string "firewall"])]),
   ("data", .object [("action", .string action)])]

/-- The text of an alert with a denied connection. -/
def denyLine : String :=
  "\x7b\"rule\":\x7b\"groups\":[\"firewall\"]\x7d,\"data\":\x7b\"action\":\"deny\"\x7d\x7d"

/-- The text of an alert with an accepted connection. -/
def acceptLine : String :=
  "\x7b\"rule\":\x7b\"groups\":[\"firewall\"]\x7d,\"data\":\x7b\"action\":\"accept\"\x7d\x7d"

theorem classOf_actionAlert (action : String) : classOf (actionAlert action) = .networkActivity :=
  show classifyEvent ["firewall"] "" "" = _ by decide

theorem outcome_agrees_deny :
    (buildRecord (.knowing denyLine (.object (actionAlert "deny"))) default default denyLine
        (actionAlert "deny")).activityId = 5 ∧
      (buildRecord (.knowing denyLine (.object (actionAlert "deny"))) default default denyLine
        (actionAlert "deny")).statusId = 2 := by
  have hnetwork : (classOf (actionAlert "deny")).classUid = 4001 := by
    rw [classOf_actionAlert]
    rfl
  have haction : (mappedColumns default default (actionAlert "deny")).1.str .action = "deny" := by
    decide
  have hblank : trim denyLine ≠ "" := by decide
  have hrow := transform_knowing hblank (actionAlert "deny") default "wazuh" [] default
  have hagrees := (outcome_agrees_iff hrow (fromStr_knowing _ _)
    ((buildRecord_class ..).1.trans hnetwork) (by decide +kernel) (by decide)).mpr
    (by rw [haction]; decide)
  have hrefused : (buildRecord (.knowing denyLine (.object (actionAlert "deny"))) default default
      denyLine (actionAlert "deny")).activityId = 5 := by
    rw [buildRecord_activityId, finalActivity, hnetwork, (activity_network_iff ..).2,
      finalColumns_str _ _ _ (by decide), haction]
    decide
  exact ⟨hrefused, hagrees.2 hrefused⟩

/-- An accepted connection is opened, and its outcome is not success but other. -/
theorem outcome_disagrees : ∃ (ext : Externals) (rec : OcsfRecord) (table : String),
    transform ext default acceptLine "wazuh" [] default = some (table, rec) ∧
      ext.fromStr acceptLine = some (.object (actionAlert "accept")) ∧ rec.classUid = 4001 ∧
      (mappedColumns default default (actionAlert "accept")).1.str .status = "" ∧
      (∀ g ∈ ruleGroups (actionAlert "accept"), g ∉ successGroups ∧ g ∉ failureGroups) ∧
      rec.activityId = 1 ∧ rec.statusId = 99 := by
  have hclass := classOf_actionAlert "accept"
  have hstatus : (mappedColumns default default (actionAlert "accept")).1.str .status = "" := by
    decide +kernel
  have haction : (mappedColumns default default (actionAlert "accept")).1.str .action = "accept" := by
    decide
  have hgroups : ∀ g ∈ ruleGroups (actionAlert "accept"), g ∉ successGroups ∧ g ∉ failureGroups := by
    decide
  have hnetwork : (classOf (actionAlert "accept")).classUid = 4001 := by rw [hclass]; rfl
  refine ⟨.knowing acceptLine (.object (actionAlert "accept")), _, _,
    transform_knowing (by decide) _ _ _ _ _, fromStr_knowing _ _, ?_, hstatus, hgroups, ?_, ?_⟩
  · rw [(buildRecord_class ..).1, hnetwork]
  · rw [buildRecord_activityId, finalActivity, hnetwork, (activity_network_iff ..).1,
      finalColumns_str _ _ _ (by decide), haction]
    decide
  · rw [buildRecord_statusId, finalStatus_of_action hstatus hgroups hnetwork, hnetwork, haction]
    decide

/-! ## Failed authentications -/

/-- An alert of a failure group is filed as a success exactly if it also has a success
group. -/
theorem failed_not_success_iff
    (h : transform ext env raw db specialLocs custom = some (table, rec))
    (hparse : ext.fromStr raw = some (.object obj))
    (hstatus : (mappedColumns env custom obj).1.str .status = "")
    (hfailure : ∃ g ∈ ruleGroups obj, g ∈ failureGroups) :
    (rec.columns.str .status ≠ "Success" ∧ (rec.classUid = 3002 → rec.statusId ≠ 1)) ↔
      ∀ g ∈ ruleGroups obj, g ∉ successGroups := by
  obtain ⟨-, rfl⟩ := row_of_transform hparse h
  rw [buildRecord_columns, (buildRecord_class ..).1, buildRecord_statusId]
  constructor
  · rintro ⟨hne, -⟩ g hg hsuccess
    exact hne (finalStatus_of_success hstatus ⟨g, hg, hsuccess⟩)
  · intro hsuccess
    rw [finalStatus_of_failure hstatus hsuccess hfailure]
    refine ⟨by decide, fun hclass => ?_⟩
    rw [hclass]
    decide

/-- An alert of the given rule groups. -/
def groupsAlert (groups : List String) : Map :=
  [("rule", .object [("groups", .array (groups.map .string))])]

/-- The text of a failed login. -/
def failedLine : String :=
  "\x7b\"rule\":\x7b\"groups\":[\"pam\",\"authentication_failed\"]\x7d\x7d"

/-- The text of a failed login in the group of `sudo`. -/
def failedSudoLine : String :=
  "\x7b\"rule\":\x7b\"groups\":[\"sudo\",\"authentication_failed\"]\x7d\x7d"

/-- Nothing but its groups gives such an alert a status. -/
theorem status_groupsAlert (groups : List String) :
    (mappedColumns default default (groupsAlert groups)).1.str .status = "" :=
  show (mappedColumns default default []).1.str .status = "" by decide +kernel

theorem failed_not_success_pam :
    (buildRecord (.knowing failedLine (.object (groupsAlert ["pam", "authentication_failed"])))
      default default failedLine (groupsAlert ["pam", "authentication_failed"])).columns.str .status ≠
      "Success" :=
  ((failed_not_success_iff
    (transform_knowing (by decide) (groupsAlert ["pam", "authentication_failed"]) default "wazuh" []
      default) (fromStr_knowing _ _) (status_groupsAlert _) (by decide)).mpr (by decide)).1

/-- A failed `sudo` is an authentication with status success. -/
theorem failed_sudo_success : ∃ (ext : Externals) (rec : OcsfRecord) (table : String),
    transform ext default failedSudoLine "wazuh" [] default = some (table, rec) ∧
      ext.fromStr failedSudoLine =
        some (.object (groupsAlert ["sudo", "authentication_failed"])) ∧
      (mappedColumns default default (groupsAlert ["sudo", "authentication_failed"])).1.str
        .status = "" ∧
      (∃ g ∈ ruleGroups (groupsAlert ["sudo", "authentication_failed"]), g ∈ failureGroups) ∧
      rec.columns.str .status = "Success" ∧ rec.classUid = 3002 ∧ rec.statusId = 1 := by
  have hclass : classOf (groupsAlert ["sudo", "authentication_failed"]) = .authentication := by
    decide
  have hstatus : (finalColumns default default
      (groupsAlert ["sudo", "authentication_failed"])).str .status = "Success" :=
    finalStatus_of_success (status_groupsAlert _) (by decide)
  refine ⟨.knowing failedSudoLine (.object (groupsAlert ["sudo", "authentication_failed"])), _, _,
    transform_knowing (by decide) _ _ _ _ _, fromStr_knowing _ _, status_groupsAlert _, by decide,
    ?_, ?_, ?_⟩
  · rw [buildRecord_columns, hstatus]
  · rw [(buildRecord_class ..).1, hclass]
    rfl
  · rw [buildRecord_statusId, hstatus, hclass]
    decide

end WazuhOcsf
