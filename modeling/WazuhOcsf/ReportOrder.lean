import WazuhOcsf.Leaves
import WazuhOcsf.UnmappedReport

/-!
# The order of the unmapped-field report

A session that processes alerts under one mapping table and then writes a report.  The
tracker counts every reportable leaf that has a path (`Counted`), so the counts do not
depend on the order of the alerts; the report sorts by count and name, which leaves one
list only (`IsReport.unique`).  A leaf under the empty key has no path, and discovery
leaves it out (`report_omits_empty_key`).
-/

namespace WazuhOcsf

open Json RustString Transition

/-! ## Counts -/

/-- How often a path was counted. -/
def countOf (tracker : Tracker) (path : String) : ℕ :=
  ((tracker.get path).map FieldInfo.count).getD 0

theorem countOf_of_mem {tracker : Tracker} {entry : String × FieldInfo}
    (h : entry ∈ tracker.entries) : countOf tracker entry.1 = entry.2.count := by
  rw [countOf, tracker.get_eq_some_iff.mpr h]
  rfl

theorem countOf_trackLeaf (custom : CustomMappings) (tracker : Tracker) (leaf : String × String)
    {path : String} (hpath : Reportable custom path) :
    countOf (trackLeaf custom tracker leaf) path =
      countOf tracker path + if leaf.1 = path then 1 else 0 := by
  unfold trackLeaf
  split
  · rw [countOf, countOf, HashMap.get_upsert]
    by_cases heq : path = leaf.1
    · rw [if_pos heq, if_pos heq.symm, heq]
      cases tracker.get leaf.1 <;> simp
    · rw [if_neg heq, if_neg fun h => heq h.symm, Nat.add_zero]
  · next hskipped =>
      have hne : leaf.1 ≠ path := fun heq => hskipped (heq ▸ hpath)
      rw [if_neg hne, Nat.add_zero]

/-- The path of every leaf of a document, one entry a leaf. -/
def occurrences (data : Value) : List String := (leaves data).map fun l => pathOf l.1

/-- Discovery leaves out what has no path. -/
theorem leafPaths_eq (data : Value) : leafPaths data = (occurrences data).filter (· ≠ "") :=
  map_fst_flattenToPaths data ""

theorem count_leafPaths (data : Value) {path : String} (hpath : path ≠ "") :
    (leafPaths data).count path = (occurrences data).count path := by
  rw [leafPaths_eq]
  exact List.count_filter (decide_eq_true hpath)

theorem countOf_trackUnmappedFields (custom : CustomMappings) (tracker : Tracker) (data : Value)
    {path : String} (hpath : Reportable custom path) :
    countOf (trackUnmappedFields data custom tracker) path =
      countOf tracker path + (leafPaths data).count path := by
  rw [trackUnmappedFields, leafPaths]
  induction flattenToPaths "" data generalizing tracker with
  | nil => rfl
  | cons leaf rest ih =>
      rw [List.foldl_cons, ih, countOf_trackLeaf custom tracker leaf hpath, List.map_cons,
        List.count_cons]
      simp only [beq_iff_eq]
      omega

/-- Of the leaves that occurred the tracker has counted those that are reportable and have
a path, and no others. -/
structure Counted (custom : CustomMappings) (occurred : List String) (tracker : Tracker) :
    Prop where
  keys : ∀ path, path ∈ tracker.keys ↔ path ≠ "" ∧ path ∈ occurred ∧ Reportable custom path
  count : ∀ path, path ≠ "" → Reportable custom path → countOf tracker path = occurred.count path

theorem Counted.empty (custom : CustomMappings) : Counted custom [] .empty where
  keys path := by simp [HashMap.keys]
  count _ _ _ := rfl

theorem Counted.track {custom : CustomMappings} {occurred : List String} {tracker : Tracker}
    (h : Counted custom occurred tracker) (data : Value) :
    Counted custom (occurred ++ occurrences data) (trackUnmappedFields data custom tracker) where
  keys path := by
    rw [mem_keys_trackUnmappedFields, h.keys, leafPaths_eq, List.mem_filter, List.mem_append,
      decide_eq_true_iff]
    tauto
  count path hne hpath := by
    rw [countOf_trackUnmappedFields custom tracker data hpath, h.count path hne hpath,
      count_leafPaths data hne, List.count_append]

/-! ## The report of some leaves -/

/-- The paths of the report for the leaves that occurred: each reportable path once, the
frequent ones first, then by name. -/
structure IsReport (custom : CustomMappings) (occurred fields : List String) : Prop where
  nodup : fields.Nodup
  mem_iff : ∀ path, path ∈ fields ↔ path ≠ "" ∧ path ∈ occurred ∧ Reportable custom path
  sorted : fields.Pairwise fun a b =>
    occurred.count b < occurred.count a ∨ occurred.count b = occurred.count a ∧ a ≤ b

variable {custom : CustomMappings} {occurred occurred' fields fields' : List String}

/-- The leaves matter up to their order. -/
theorem IsReport.of_perm (h : IsReport custom occurred fields) (hperm : occurred.Perm occurred') :
    IsReport custom occurred' fields where
  nodup := h.nodup
  mem_iff path := by rw [h.mem_iff, hperm.mem_iff]
  sorted := by simpa only [hperm.count_eq] using h.sorted

/-- Some leaves have one report. -/
theorem IsReport.unique (h : IsReport custom occurred fields)
    (h' : IsReport custom occurred fields') : fields = fields' := by
  have hperm : fields.Perm fields' :=
    (List.perm_ext_iff_of_nodup h.nodup h'.nodup).mpr fun path => by rw [h.mem_iff, h'.mem_iff]
  refine hperm.eq_of_pairwise (fun a b _ _ hab hba => ?_) h.sorted h'.sorted
  -- neither path comes strictly first, so they tie and the names decide
  have hcount : occurred.count a = occurred.count b := by omega
  exact String.le_antisymm (hab.resolve_left (by omega)).2 (hba.resolve_left (by omega)).2

theorem byFrequency_trans (a b c : String × FieldInfo) (hab : byFrequency a b)
    (hbc : byFrequency b c) : byFrequency a c := by
  simp only [byFrequency, decide_eq_true_eq] at *
  rcases hab with hab | ⟨hab, hname⟩ <;> rcases hbc with hbc | ⟨hbc, hname'⟩
  · exact .inl (by omega)
  · exact .inl (by omega)
  · exact .inl (by omega)
  · exact .inr ⟨by omega, String.le_trans hname hname'⟩

theorem byFrequency_total (a b : String × FieldInfo) :
    (byFrequency a b || byFrequency b a) = true := by
  simp only [byFrequency, Bool.or_eq_true, decide_eq_true_eq]
  rcases Nat.lt_trichotomy a.2.count b.2.count with hlt | heq | hgt
  · exact .inr (.inl hlt)
  · rcases String.le_total a.1 b.1 with hle | hle
    · exact .inl (.inr ⟨heq.symm, hle⟩)
    · exact .inr (.inr ⟨heq, hle⟩)
  · exact .inl (.inl hgt)

/-- What is written is the report of the leaves counted. -/
theorem Counted.isReport {tracker : Tracker} (h : Counted custom occurred tracker)
    (order : IterOrder (String × FieldInfo)) :
    IsReport custom occurred ((writeUnmappedReport order tracker).getD []) := by
  have hmem (path : String) : path ∈ (writeUnmappedReport order tracker).getD [] ↔
      path ≠ "" ∧ path ∈ occurred ∧ Reportable custom path := by
    rw [mem_writeUnmappedReport, h.keys]
  by_cases hempty : tracker.entries = []
  · have hnone : writeUnmappedReport order tracker = none := if_pos hempty
    rw [hnone] at hmem ⊢
    exact ⟨List.nodup_nil, hmem, .nil⟩
  · have hsome : writeUnmappedReport order tracker =
        some (((order.arrange tracker.entries).mergeSort byFrequency).map Prod.fst) := if_neg hempty
    rw [hsome, Option.getD_some] at hmem ⊢
    have hperm : ((order.arrange tracker.entries).mergeSort byFrequency).Perm tracker.entries :=
      (List.mergeSort_perm _ _).trans (order.perm _)
    -- the counts that are sorted by are those of the leaves
    have hcount {entry : String × FieldInfo}
        (hentry : entry ∈ (order.arrange tracker.entries).mergeSort byFrequency) :
        occurred.count entry.1 = entry.2.count := by
      obtain ⟨hne, -, hreportable⟩ := (hmem entry.1).mp (List.mem_map_of_mem hentry)
      rw [← h.count _ hne hreportable, countOf_of_mem (hperm.mem_iff.mp hentry)]
    refine ⟨(hperm.map _).nodup_iff.mpr tracker.nodup, hmem, List.pairwise_map.mpr ?_⟩
    have hsorted := List.pairwise_mergeSort byFrequency_trans byFrequency_total
      (order.arrange tracker.entries)
    refine hsorted.imp_of_mem fun ha hb hab => ?_
    rw [hcount ha, hcount hb]
    exact of_decide_eq_true hab

/-- There is no report without fields. -/
theorem writeUnmappedReport_ne_nil (order : IterOrder (String × FieldInfo)) (tracker : Tracker) :
    writeUnmappedReport order tracker ≠ some [] := by
  unfold writeUnmappedReport
  split
  · exact Option.some_ne_none _ ∘ Eq.symm
  · next hne =>
      intro h
      have hlength := congrArg List.length (Option.some.inj h)
      rw [List.length_map, List.length_mergeSort, (order.perm _).length_eq] at hlength
      exact hne (List.length_eq_zero_iff.mp hlength)

/-! ## A session -/

/-- The paths of the leaves of the alert on a line. -/
def lineLeaves (ext : Externals) (line : String) : List String :=
  ((alertOf ext line).map fun obj => occurrences (dataOf obj)).getD []

/-- The report of a session that processes the lines. -/
def reportOf (ext : Externals) (mappings : CustomMappings) (order : IterOrder (String × FieldInfo))
    (lines : List String) : Option (List String) :=
  (exec (Session.step ext) (.initial mappings)
    (lines.map .transform ++ [.writeReport order true])).bind Session.report

/-- One line. -/
theorem Counted.step {s : Session} (h : Counted s.mappings occurred s.tracker) (ext : Externals)
    (line : String) :
    ∃ s', s.step ext (.transform line) = some s' ∧ s'.mappings = s.mappings ∧
      s'.report = s.report ∧ Counted s'.mappings (occurred ++ lineLeaves ext line) s'.tracker := by
  cases halert : alertOf ext line with
  | none =>
      exact ⟨s, by simp [Session.step, halert], rfl, rfl, by simpa [lineLeaves, halert] using h⟩
  | some obj =>
      refine ⟨{ s with tracker := trackUnmappedFields (dataOf obj) s.mappings s.tracker
                       seen := s.seen ++ [(s.mappings, dataOf obj)] },
        by simp only [Session.step, halert], rfl, rfl, ?_⟩
      simpa [lineLeaves, halert] using h.track (dataOf obj)

/-- All lines. -/
theorem Counted.run {s : Session} (h : Counted s.mappings occurred s.tracker) (ext : Externals)
    (lines : List String) :
    ∃ s', exec (Session.step ext) s (lines.map .transform) = some s' ∧ s'.mappings = s.mappings ∧
      s'.report = s.report ∧
      Counted s'.mappings (occurred ++ lines.flatMap (lineLeaves ext)) s'.tracker := by
  induction lines generalizing s occurred with
  | nil => exact ⟨s, rfl, rfl, rfl, by simpa using h⟩
  | cons line rest ih =>
      obtain ⟨next, hstep, hmappings, hreport, hnext⟩ := h.step ext line
      obtain ⟨s', hexec, hmappings', hreport', hend⟩ := ih hnext
      refine ⟨s', ?_, hmappings'.trans hmappings, hreport'.trans hreport, ?_⟩
      · rw [List.map_cons, exec, hstep, Option.bind_some, hexec]
      · rwa [List.flatMap_cons, ← List.append_assoc]

/-- The report of a session is the report of the leaves of its lines. -/
theorem isReport_reportOf (ext : Externals) (mappings : CustomMappings)
    (order : IterOrder (String × FieldInfo)) (lines : List String) :
    IsReport mappings (lines.flatMap (lineLeaves ext))
        ((reportOf ext mappings order lines).getD []) ∧
      reportOf ext mappings order lines ≠ some [] := by
  obtain ⟨s, hexec, hmappings, hreport, hcounted⟩ :=
    Counted.run (s := .initial mappings) (.empty mappings) ext lines
  have hwritten : reportOf ext mappings order lines = writeUnmappedReport order s.tracker := by
    rw [reportOf, exec_append, hexec]
    show ((writeUnmappedReport order s.tracker).or s.report) = _
    rw [hreport]
    exact Option.or_none
  rw [hwritten]
  have hinitial : s.mappings = mappings := hmappings
  rw [hinitial] at hcounted
  exact ⟨hcounted.isReport order, writeUnmappedReport_ne_nil order s.tracker⟩

/-- Reports that are never empty are told apart by their fields. -/
theorem eq_of_fields_eq {report report' : Option (List String)} (hne : report ≠ some [])
    (hne' : report' ≠ some []) (hfields : report.getD [] = report'.getD []) :
    report = report' := by
  cases report with
  | none =>
      cases report' with
      | none => rfl
      | some fields' => exact absurd (congrArg some hfields.symm) hne'
  | some fields =>
      cases report' with
      | none => exact absurd (congrArg some hfields) hne
      | some fields' => exact congrArg some hfields

/-- Neither the order of the alerts nor the order of the hash map shows in the report. -/
theorem report_order_independent (ext : Externals) (mappings : CustomMappings)
    {lines lines' : List String} (hperm : lines.Perm lines')
    (order order' : IterOrder (String × FieldInfo)) :
    reportOf ext mappings order' lines' = reportOf ext mappings order lines ∧
      IsReport mappings (lines.flatMap (lineLeaves ext))
        ((reportOf ext mappings order lines).getD []) := by
  obtain ⟨h, hne⟩ := isReport_reportOf ext mappings order lines
  obtain ⟨h', hne'⟩ := isReport_reportOf ext mappings order' lines'
  have hleaves : (lines'.flatMap (lineLeaves ext)).Perm (lines.flatMap (lineLeaves ext)) :=
    (hperm.flatMap_right _).symm
  exact ⟨eq_of_fields_eq hne' hne ((h'.of_perm hleaves).unique h), h⟩

/-- The text of `engineAlert`. -/
def engineLine : String :=
  "\x7b\"data\":\x7b\"edr\":\x7b\"engine\":\"ml\",\"threat\":\"worm\"\x7d\x7d\x7d"

/-- An alert with the field of `threatAlert` and one more. -/
def engineAlert : Map :=
  [("data", .object [("edr", .object [("engine", .string "ml"), ("threat", .string "worm")])])]

/-- The parser knows both alerts. -/
def twoExternals : Externals := .knowingBoth threatLine engineLine threatAlert engineAlert

/-- Counting the leaves of the two alerts by hand: the name seen twice comes first. -/
theorem isReport_two :
    IsReport default ["edr.threat", "edr.engine", "edr.threat"] ["edr.threat", "edr.engine"] where
  nodup := by decide
  mem_iff path := by
    have hthreat : Reportable default "edr.threat" := by decide +kernel
    have hengine : Reportable default "edr.engine" := by decide +kernel
    constructor
    · intro hpath
      rcases List.mem_pair.mp hpath with rfl | rfl
      · exact ⟨by decide, by decide, hthreat⟩
      · exact ⟨by decide, by decide, hengine⟩
    · rintro ⟨-, hpath, -⟩
      simpa [or_comm, or_left_comm] using hpath
  sorted := by decide

/-- The report is the same for both orders of the alerts and of the map. -/
theorem report_order_independent_two :
    reportOf twoExternals default default [threatLine, engineLine] =
        some ["edr.threat", "edr.engine"] ∧
      reportOf twoExternals default ⟨List.reverse, List.reverse_perm⟩ [engineLine, threatLine] =
        some ["edr.threat", "edr.engine"] := by
  obtain ⟨hequal, hreport⟩ := report_order_independent twoExternals default
    (.swap engineLine threatLine []) default ⟨List.reverse, List.reverse_perm⟩
  have hoccurred : [threatLine, engineLine].flatMap (lineLeaves twoExternals) =
      ["edr.threat", "edr.engine", "edr.threat"] := by
    decide +kernel
  rw [hoccurred] at hreport
  have hsome : reportOf twoExternals default default [threatLine, engineLine] =
      some ["edr.threat", "edr.engine"] :=
    eq_of_fields_eq (isReport_reportOf _ _ _ _).2 (by decide) (hreport.unique isReport_two)
  exact ⟨hsome, hequal.trans hsome⟩

/-! ## A leaf without a path -/

/-- A leaf under the empty key. -/
def emptyKeyLine : String := "\x7b\"data\":\x7b\"\":\"x\"\x7d\x7d"

/-- The parser knows an alert whose field has an empty name. -/
def emptyKeyExternals : Externals :=
  .knowing emptyKeyLine (.object [("data", .object [("", .string "x")])])

/-- The leaf occurs under the empty path, which is neither known nor mapped nor suppressed,
and there is no report at all. -/
theorem report_omits_empty_key :
    "" ∈ lineLeaves emptyKeyExternals emptyKeyLine ∧ Reportable default "" ∧
      reportOf emptyKeyExternals default default [emptyKeyLine] = none := by
  decide +kernel

end WazuhOcsf
