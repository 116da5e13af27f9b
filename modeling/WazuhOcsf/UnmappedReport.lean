import WazuhOcsf.Library.Runs
import WazuhOcsf.Pipeline.Transform
import WazuhOcsf.Util.Unmapped

/-!
# What the unmapped-field report lists

Alerts are transformed, the mapping table is replaced and reports are written, in any
order.  The tracker holds the leaves that were reportable under the table of their
time and forgets nothing (`SessionInv`), so a report is free of the source fields in
force exactly if no such leaf has become one (`report_reflects_mappings`).
-/

namespace WazuhOcsf

open Json RustString Transition

/-- The alert on a line, if `transform` gets that far. -/
def alertOf (ext : Externals) (raw : String) : Option Map :=
  if trim raw = "" then none else (ext.fromStr raw).bind Value.asObject

theorem transform_eq_map_alertOf (ext : Externals) (env : TransformEnv) (raw db : String)
    (specialLocs : List String) (custom : CustomMappings) :
    transform ext env raw db specialLocs custom =
      (alertOf ext raw).map fun obj =>
        (tableOf db specialLocs obj, buildRecord ext env custom raw obj) := by
  unfold transform alertOf
  split
  · rfl
  · cases ext.fromStr raw with
    | none => rfl
    | some v => cases v <;> rfl

/-- Externals that know two lines. -/
def Externals.knowingBoth (line line' : String) (obj obj' : Map) : Externals where
  fromStr raw :=
    if raw = line then some (.object obj) else if raw = line' then some (.object obj') else none
  parseDateTime _ := none

theorem alertOf_knowingBoth (line line' : String) (obj obj' : Map) (hline : trim line ≠ "")
    (hline' : trim line' ≠ "") (hne : line' ≠ line) :
    alertOf (.knowingBoth line line' obj obj') line = some obj ∧
      alertOf (.knowingBoth line line' obj obj') line' = some obj' := by
  simp [alertOf, Externals.knowingBoth, hline, hline', hne, Value.asObject]

theorem alertOf_toJson (obj : Map) : alertOf .reading (Value.object obj).toJson = some obj := by
  rw [alertOf, if_neg (trim_toJson_ne_empty obj), fromStr_reading]
  rfl

/-- The paths of the leaves. -/
def leafPaths (data : Value) : List String := (flattenToPaths "" data).map Prod.fst

theorem mem_keys_trackLeaf {custom : CustomMappings} {tracker : Tracker} {leaf : String × String}
    {path : String} :
    path ∈ (trackLeaf custom tracker leaf).keys ↔
      path ∈ tracker.keys ∨ path = leaf.1 ∧ Reportable custom path := by
  unfold trackLeaf
  split
  · next hreportable =>
      rw [HashMap.mem_keys_upsert, or_comm]
      exact or_congr_right ⟨fun h => ⟨h, h ▸ hreportable⟩, And.left⟩
  · next hskipped =>
      exact ⟨.inl, fun h => h.resolve_right fun ⟨hpath, hreportable⟩ =>
        hskipped (hpath ▸ hreportable)⟩

theorem mem_keys_trackUnmappedFields {custom : CustomMappings} {tracker : Tracker} {data : Value}
    {path : String} :
    path ∈ (trackUnmappedFields data custom tracker).keys ↔
      path ∈ tracker.keys ∨ path ∈ leafPaths data ∧ Reportable custom path := by
  rw [trackUnmappedFields, leafPaths]
  induction flattenToPaths "" data generalizing tracker with
  | nil => simp
  | cons leaf rest ih =>
      rw [List.foldl_cons, ih, mem_keys_trackLeaf, List.map_cons, List.mem_cons, or_assoc,
        or_and_right]

theorem mem_writeUnmappedReport (order : IterOrder (String × FieldInfo)) {tracker : Tracker}
    {path : String} :
    path ∈ (writeUnmappedReport order tracker).getD [] ↔ path ∈ tracker.keys := by
  unfold writeUnmappedReport
  split
  · next hempty => simp [HashMap.keys, hempty]
  · simp [HashMap.keys, List.mem_mergeSort]

/-! ## A session -/

/-- The tracker of one session and the report it writes. -/
structure Session where
  mappings : CustomMappings
  tracker : Tracker
  report : Option (List String)
  /-- The data transformed so far, each under its mapping table. -/
  seen : List (CustomMappings × Value)

namespace Session

/-- An alert is tracked, a table installed, or the report written. -/
inductive Action
  | transform (raw : String)
  | reload (mappings : CustomMappings)
  | writeReport (order : IterOrder (String × FieldInfo)) (ok : Bool)

/-- The report of the session before is archived. -/
def initial (mappings : CustomMappings) : Session := ⟨mappings, .empty, none, []⟩

/-- One step of the session; a report that is not written leaves the old one. -/
def step (ext : Externals) (s : Session) : Action → Option Session
  | .transform raw =>
      match alertOf ext raw with
      | some obj =>
          some { s with tracker := trackUnmappedFields (dataOf obj) s.mappings s.tracker
                        seen := s.seen ++ [(s.mappings, dataOf obj)] }
      | none => some s
  | .reload mappings => some { s with mappings := mappings }
  | .writeReport order ok =>
      if ok then some { s with report := (writeUnmappedReport order s.tracker).or s.report }
      else some s

/-- What the report file lists. -/
def listed (s : Session) : List String := s.report.getD []

end Session

/-- The leaf was seen when nothing kept it from the report. -/
def SeenUnmapped (s : Session) (path : String) : Prop :=
  ∃ alert ∈ s.seen, path ∈ leafPaths alert.2 ∧ Reportable alert.1 path

/-- The tracker holds the leaves that were reportable when they were seen. -/
structure SessionInv (s : Session) : Prop where
  tracked : ∀ path, path ∈ s.tracker.keys ↔ SeenUnmapped s path
  unwritten : s.tracker.keys = [] → s.report = none

theorem SessionInv.initial (mappings : CustomMappings) : SessionInv (.initial mappings) where
  tracked path := by simp [Session.initial, SeenUnmapped, HashMap.keys]
  unwritten _ := rfl

theorem SessionInv.step {ext : Externals} {s s' : Session} {a : Session.Action}
    (h : SessionInv s) (hstep : s.step ext a = some s') : SessionInv s' := by
  cases a with
  | transform raw =>
      cases halert : alertOf ext raw with
      | none =>
          simp only [Session.step, halert, Option.some.injEq] at hstep
          exact hstep ▸ h
      | some obj =>
          simp only [Session.step, halert, Option.some.injEq] at hstep
          subst hstep
          refine ⟨fun path => ?_, fun hnil => h.unwritten ?_⟩
          · rw [mem_keys_trackUnmappedFields, h.tracked]
            simp only [SeenUnmapped, List.mem_append, List.mem_singleton, or_and_right, exists_or,
              exists_eq_left]
          · refine List.eq_nil_iff_forall_not_mem.mpr fun path hpath => ?_
            have hkept : path ∈ (trackUnmappedFields (dataOf obj) s.mappings s.tracker).keys :=
              mem_keys_trackUnmappedFields.mpr (.inl hpath)
            rw [hnil] at hkept
            exact List.not_mem_nil hkept
  | reload mappings =>
      obtain rfl := Option.some.inj hstep
      exact ⟨h.tracked, h.unwritten⟩
  | writeReport order ok =>
      simp only [Session.step] at hstep
      split_ifs at hstep
      · obtain rfl := Option.some.inj hstep
        refine ⟨h.tracked, fun hnil => ?_⟩
        have hnone : writeUnmappedReport order s.tracker = none :=
          if_pos (List.map_eq_nil_iff.mp hnil)
        rw [hnone, Option.none_or]
        exact h.unwritten hnil
      · exact Option.some.inj hstep ▸ h

/-- What a report lists. -/
theorem SessionInv.mem_listed {ext : Externals} {s s' : Session}
    {order : IterOrder (String × FieldInfo)} (h : SessionInv s)
    (hwrite : s.step ext (.writeReport order true) = some s') (path : String) :
    path ∈ s'.listed ↔ SeenUnmapped s path := by
  obtain rfl := Option.some.inj hwrite
  rw [← h.tracked, ← mem_writeUnmappedReport order, Session.listed]
  by_cases hnil : s.tracker.keys = []
  · rw [h.unwritten hnil, Option.or_none]
  · have hsome : writeUnmappedReport order s.tracker = some _ :=
      if_neg fun hentries => hnil (List.map_eq_nil_iff.mpr hentries)
    rw [hsome, Option.some_or]

/-- In any run of a session, a report lists the leaves seen when nothing kept them from
it; it is free of the source fields in force exactly if no such leaf is one. -/
theorem report_reflects_mappings {ext : Externals} {mappings : CustomMappings} {s s' : Session}
    {order : IterOrder (String × FieldInfo)}
    (run : Reachable (Session.step ext) (.initial mappings) s)
    (hwrite : s.step ext (.writeReport order true) = some s') :
    (∀ path ∈ s'.listed, SeenUnmapped s path) ∧
      ((∀ path ∈ s'.listed, path ∉ s.mappings.fieldMap.keys) ↔
        ∀ path, SeenUnmapped s path → path ∉ s.mappings.fieldMap.keys) := by
  have h : SessionInv s :=
    run.invariant (.initial mappings) fun _ _ _ h _ hstep => h.step hstep
  have hlisted := h.mem_listed hwrite
  exact ⟨fun path => (hlisted path).mp, forall_congr' fun path => imp_congr_left (hlisted path)⟩

/-! ## A promoted field -/

/-- The text of `threatAlert`. -/
def threatLine : String :=
  "\x7b\"data\":\x7b\"edr\":\x7b\"threat\":\"worm\"\x7d\x7d\x7d"

/-- An alert with a field that no path knows. -/
def threatAlert : Map := [("data", .object [("edr", .object [("threat", .string "worm")])])]

/-- The parser knows `threatAlert`. -/
def threatExternals : Externals := .knowing threatLine (.object threatAlert)

/-- The field of `threatAlert` is mapped. -/
def threatMappings : CustomMappings where
  ocsfVersion := "1.7.0"
  fieldMap := ⟨[("edr.threat", "rule_name")], by decide⟩

theorem report_reflects_mappings_threat : ∃ s s',
    Reachable (Session.step threatExternals) (.initial default) s ∧
      s.step threatExternals (.writeReport default true) = some s' ∧
      s'.listed = ["edr.threat"] ∧ ∀ path ∈ s'.listed, SeenUnmapped s path := by
  have hend : (exec (Session.step threatExternals) (.initial default)
      [.transform threatLine, .writeReport default true]).map Session.listed =
      some ["edr.threat"] := by
    decide +kernel
  obtain ⟨s', hexec, hlisted⟩ := Option.map_eq_some_iff.mp hend
  obtain ⟨s, hseen, hwrite⟩ := Option.bind_eq_some_iff.mp hexec
  have run : Reachable (Session.step threatExternals) (.initial default) s :=
    .snoc .start trivial hseen
  have hwrite : s.step threatExternals (.writeReport default true) = some s' := by
    simpa [exec] using hwrite
  exact ⟨s, s', run, hwrite, hlisted, (report_reflects_mappings run hwrite).1⟩

/-- The field is promoted after it was seen, and the next report still lists it. -/
theorem report_lists_promoted : ∃ s s',
    Reachable (Session.step threatExternals) (.initial default) s ∧
      s.step threatExternals (.writeReport default true) = some s' ∧
      "edr.threat" ∈ s'.listed ∧ "edr.threat" ∈ s.mappings.fieldMap.keys := by
  have hend : ((exec (Session.step threatExternals) (.initial default)
      [.transform threatLine, .reload threatMappings]).bind fun s =>
        (s.step threatExternals (.writeReport default true)).map fun s' =>
          (s'.listed, s.mappings.fieldMap.keys)) = some (["edr.threat"], ["edr.threat"]) := by
    decide +kernel
  obtain ⟨s, hexec, hend⟩ := Option.bind_eq_some_iff.mp hend
  obtain ⟨s', hwrite, hend⟩ := Option.map_eq_some_iff.mp hend
  simp only [Prod.mk.injEq] at hend
  exact ⟨s, s', reachable_of_exec hexec, hwrite, by simp [hend.1], by simp [hend.2]⟩

end WazuhOcsf
