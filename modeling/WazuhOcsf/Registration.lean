import Mathlib.Algebra.BigOperators.Group.Finset.Basic
import Mathlib.Algebra.Order.BigOperators.Group.Finset
import WazuhOcsf.CustomColumns

/-!
# How often a column is added

`do_flush` remembers the targets it has registered, so that the `ADD COLUMN` for a target
goes to each table once across all hot-reloads.  Two things bring it back: a table that
refuses it, since then no table is taken to have it, and a mapping table that names the
target in several entries, since `custom_column_targets` lists it for each of them.  And a
column can be sent for several targets, as their names are made safe only then.
`columns_added_once` counts the entries and the targets.
-/

namespace WazuhOcsf

open Transition

variable {ext : Externals} {cfg : AppConfig} {k : ℕ}

namespace DbState

variable {env : FlushEnv} {customCols : List String} {db : DbState}

/-- How often a column was sent to a table. -/
def sentCount (log : List Event) (table col : String) : ℕ := (sentColumns log).count (table, col)

theorem sentCount_append (log new : List Event) (table col : String) :
    sentCount (log ++ new) table col = sentCount log table col + sentCount new table col := by
  rw [sentCount, sentColumns, List.filterMap_append, List.count_append]
  rfl

theorem mem_sentColumns {table col : String} {log : List Event} :
    (table, col) ∈ sentColumns log ↔ ∃ ok, .columnSent table col ok ∈ log := by
  constructor
  · intro h
    obtain ⟨e, he, hcol⟩ := List.mem_filterMap.mp h
    cases e with
    | columnSent table' col' ok =>
        obtain ⟨rfl, rfl⟩ := Prod.mk.inj (Option.some.inj hcol)
        exact ⟨ok, he⟩
    | _ => cases hcol
  · rintro ⟨ok, hsent⟩
    exact List.mem_filterMap.mpr ⟨_, hsent, rfl⟩

theorem sentCount_eq_zero {log : List Event} {table col : String} :
    sentCount log table col = 0 ↔ ∀ ok, .columnSent table col ok ∉ log := by
  rw [sentCount, List.count_eq_zero, mem_sentColumns, not_exists]

/-- The targets sent are among the ones given. -/
theorem sentColumns_ensureColumns (env : FlushEnv) (table : String) (columns : List String) :
    ∃ sent : List String, sentColumns (ensureColumns env table columns) = sent.map (Prod.mk table) ∧
      sent.Sublist columns := by
  unfold ensureColumns
  split
  · have hkept : (columns.zipIdx.filter fun column => safeName column.1 ≠ "").Sublist
        columns.zipIdx := List.filter_sublist
    have hnames := hkept.map Prod.fst
    rw [List.zipIdx_map_fst] at hnames
    refine ⟨_, ?_, hnames⟩
    simp [sentColumns, List.filterMap_map, Function.comp_def, Event.sentColumn]
  · exact ⟨[], rfl, List.nil_sublist _⟩

variable (env) in
/-- A call on a table sends a column as often as it is listed, and to this table alone. -/
theorem sentCount_ensureColumns_le (table : String) (columns : List String) (other col : String) :
    sentCount (ensureColumns env table columns) other col ≤
      if other = table then columns.count col else 0 := by
  obtain ⟨sent, hcalls, hsub⟩ := sentColumns_ensureColumns env table columns
  rw [sentCount, hcalls]
  split_ifs with htable
  · subst htable
    rw [List.count_map_of_injective _ _ (Prod.mk_right_injective other)]
    exact hsub.count_le col
  · refine (List.count_eq_zero.mpr fun hmem => htable ?_).le
    obtain ⟨_, -, heq⟩ := List.mem_map.mp hmem
    exact (Prod.mk.inj heq).1.symm

/-- What is sent is one of the columns given, and has a name. -/
theorem mem_columns_of_sent {table other col : String} {columns : List String} {ok : Bool}
    (h : .columnSent other col ok ∈ ensureColumns env table columns) :
    other = table ∧ col ∈ columns ∧ col ≠ "" := by
  unfold ensureColumns at h
  split at h
  · obtain ⟨column, hcolumn, heq⟩ := List.mem_map.mp h
    obtain ⟨rfl, rfl, -⟩ := Event.columnSent.inj heq
    obtain ⟨hindexed, hsafe⟩ := List.mem_filter.mp hcolumn
    refine ⟨rfl, List.fst_mem_of_mem_zipIdx hindexed, fun hempty => ?_⟩
    rw [hempty] at hsafe
    exact absurd hsafe (by simp [safeName])
  · exact absurd h List.not_mem_nil

variable (env) in
theorem sentCount_flatMap_ensureColumns_le (tables columns : List String) (table col : String) :
    sentCount (tables.flatMap fun t => ensureColumns env t columns) table col ≤
      tables.count table * columns.count col := by
  induction tables with
  | nil => exact le_of_eq (Nat.zero_mul _).symm
  | cons t rest ih =>
      have hfirst := sentCount_ensureColumns_le env t columns table col
      rw [List.flatMap_cons, sentCount_append]
      by_cases htable : table = t
      · subst htable
        rw [if_pos rfl] at hfirst
        rw [List.count_cons_self, Nat.add_mul, Nat.one_mul]
        omega
      · rw [if_neg htable] at hfirst
        rw [List.count_cons_of_ne (Ne.symm htable)]
        omega

/-- What was sent is registered, and was sent at most `k` times. -/
structure AddedOnce (k : ℕ) (db : DbState) : Prop where
  dotted : ∀ table ∈ db.knownTables, '.' ∈ table.toList
  tables : db.knownTables.Nodup
  columns : db.knownCustomCols.Nodup
  registered : ∀ table col ok, .columnSent table col ok ∈ db.log →
    table ∈ db.knownTables ∧ col ∈ db.knownCustomCols
  count_le : ∀ table col, sentCount db.log table col ≤ k

namespace AddedOnce

theorem record (h : AddedOnce k db) {new : List Event} (hnew : sentColumns new = []) :
    AddedOnce k (db.record new) where
  dotted := h.dotted
  tables := h.tables
  columns := h.columns
  registered table col ok hmem := by
    refine h.registered table col ok ((List.mem_append.mp hmem).resolve_right fun hsent => ?_)
    exact absurd (mem_sentColumns.mpr ⟨ok, hsent⟩) (hnew ▸ List.not_mem_nil)
  count_le table col := by
    rw [log_record, sentCount_append, sentCount, sentCount, hnew, List.count_nil]
    exact h.count_le table col

theorem insertBatch (h : AddedOnce k db) (table : String) (rows : List OcsfRecord) :
    AddedOnce k (db.insertBatch env table rows) := by
  unfold DbState.insertBatch
  split
  · exact h
  · exact h.record rfl

/-- Where every `ADD COLUMN` is accepted, a target that is sent is registered. -/
theorem registerColumns (h : AddedOnce k db) (hok : ∀ table i, env.addColumnOk table i)
    {mappings : CustomMappings}
    (hnamed : ∀ col, (mappings.customColumnTargets env.mappingOrder).count col ≤ k) :
    AddedOnce k (registerColumns env mappings db) where
  dotted := h.dotted
  tables := h.tables
  columns := h.columns.union _
  registered table col ok hmem := by
    rcases List.mem_append.mp hmem with hbefore | hsent
    · obtain ⟨htable, hcol⟩ := h.registered table col ok hbefore
      exact ⟨htable, List.mem_union_iff.mpr (.inr hcol)⟩
    · obtain ⟨other, hother, hevent⟩ := List.mem_flatMap.mp hsent
      obtain ⟨rfl, hnew, hnonempty⟩ := mem_columns_of_sent hevent
      refine ⟨(IterOrder.mem_arrange _).mp hother, List.mem_union_iff.mpr (.inl ?_)⟩
      refine List.mem_filter.mpr ⟨hnew, List.all_eq_true.mpr fun table htable => ?_⟩
      have hdot := h.dotted table ((IterOrder.mem_arrange _).mp htable)
      exact decide_eq_true (mem_ensureCustomColumns hdot hnew hnonempty fun i _ => hok table i)
  count_le table col := by
    have htables : (env.tableOrder.arrange db.knownTables).count table ≤ 1 :=
      List.nodup_iff_count_le_one.mp ((env.tableOrder.perm _).nodup_iff.mpr h.tables) table
    have hsent := (sentCount_flatMap_ensureColumns_le env
      (env.tableOrder.arrange db.knownTables) (db.newColumns env mappings) table col).trans
      (Nat.mul_le_mul_right _ htables)
    rw [Nat.one_mul] at hsent
    show sentCount (db.log ++ _) table col ≤ k
    rw [sentCount_append]
    by_cases hcol : col ∈ db.knownCustomCols
    · -- a registered target is not sent again
      have hnone : (db.newColumns env mappings).count col = 0 :=
        List.count_eq_zero.mpr fun hmem =>
          absurd hcol (of_decide_eq_true (List.mem_filter.mp hmem).2)
      have hbefore := h.count_le table col
      omega
    · -- it was never sent before, and now once for each entry that names it
      have hnone : sentCount db.log table col = 0 :=
        sentCount_eq_zero.mpr fun ok hsent => hcol (h.registered table col ok hsent).2
      have hnew : (db.newColumns env mappings).count col ≤ k :=
        (List.filter_sublist.count_le col).trans (hnamed col)
      omega

/-- A table that is created gets the registered columns, once each. -/
theorem create (h : AddedOnce k db) (hk : 1 ≤ k) (hcustom : customCols.Nodup)
    (hcols : ∀ col ∈ customCols, col ∈ db.knownCustomCols) {table : String}
    (hdot : '.' ∈ table.toList) (hknown : table ∉ db.knownTables) :
    AddedOnce k { db.record (.ensured table true :: ensureColumns env table customCols) with
      knownTables := db.knownTables.insert table } where
  dotted other hother := by
    rcases List.mem_insert_iff.mp hother with rfl | hbefore
    · exact hdot
    · exact h.dotted other hbefore
  tables := h.tables.insert
  columns := h.columns
  registered other col ok hmem := by
    rcases List.mem_append.mp hmem with hbefore | hsent
    · obtain ⟨hother, hcol⟩ := h.registered other col ok hbefore
      exact ⟨List.mem_insert_of_mem hother, hcol⟩
    · rw [List.mem_cons, or_iff_right (by simp)] at hsent
      obtain ⟨rfl, hcol, -⟩ := mem_columns_of_sent hsent
      exact ⟨List.mem_insert_self, hcols _ hcol⟩
  count_le other col := by
    have hcreated := sentCount_ensureColumns_le env table customCols other col
    have hone : customCols.count col ≤ 1 := List.nodup_iff_count_le_one.mp hcustom col
    show sentCount (db.log ++ ([.ensured table true] ++ ensureColumns env table customCols))
      other col ≤ k
    rw [sentCount_append, sentCount_append,
      show sentCount [.ensured table true] other col = 0 from rfl]
    by_cases hother : other = table
    · -- nothing was sent to a table before it was created
      have hnone : sentCount db.log other col = 0 := sentCount_eq_zero.mpr fun ok hsent =>
        hknown (hother ▸ (h.registered other col ok hsent).1)
      rw [if_pos hother] at hcreated
      omega
    · have hbefore := h.count_le other col
      rw [if_neg hother] at hcreated
      omega

theorem flushTable (h : AddedOnce k db) (hk : 1 ≤ k) (hcustom : customCols.Nodup)
    (hcols : ∀ col ∈ customCols, col ∈ db.knownCustomCols) {work : String × List OcsfRecord}
    (hdot : '.' ∈ work.1.toList) : AddedOnce k (flushTable env customCols db work) := by
  unfold DbState.flushTable
  split_ifs with hknown hensured
  · exact h.insertBatch _ _
  · exact (h.create hk hcustom hcols hdot hknown).insertBatch _ _
  · exact h.record rfl

theorem flushAll (h : AddedOnce k db) (hk : 1 ≤ k) (hcustom : customCols.Nodup)
    (hcols : ∀ col ∈ customCols, col ∈ db.knownCustomCols) {batches : BatchMap}
    (hdots : ∀ table, batches.rows table ≠ [] → '.' ∈ table.toList) :
    AddedOnce k (flushAll env customCols batches db).2 := by
  have htaken : sentColumns ((work env batches).map fun w => Event.taken w.1 w.2) = [] := by
    simp [sentColumns, List.filterMap_map, Event.sentColumn]
  have hrounds : AddedOnce k ((work env batches).foldl (DbState.flushTable env customCols)
      (db.record ((work env batches).map fun w => .taken w.1 w.2))) ∧
      ((work env batches).foldl (DbState.flushTable env customCols)
        (db.record ((work env batches).map fun w => .taken w.1 w.2))).knownCustomCols =
        db.knownCustomCols := by
    refine List.foldlRecOn (motive := fun db' => AddedOnce k db' ∧
      db'.knownCustomCols = db.knownCustomCols) _ _ ⟨h.record htaken, rfl⟩ fun db' hdb w hw => ?_
    obtain ⟨hrows, hne⟩ := rows_of_mem_work hw
    refine ⟨hdb.1.flushTable hk hcustom (hdb.2 ▸ hcols) (hdots w.1 (hrows ▸ hne)), ?_⟩
    rw [knownCustomCols_flushTable, hdb.2]
  exact hrounds.1

end AddedOnce

/-- A list in which no entry is there more than `k` times. -/
theorem length_le_of_count_le {α : Type*} [DecidableEq α] {l values : List α}
    (hmem : ∀ x ∈ l, x ∈ values) (hcount : ∀ x, l.count x ≤ k) :
    l.length ≤ k * values.length := by
  have hvalues : l.toFinset.card ≤ values.length :=
    (Finset.card_le_card fun x hx => List.mem_toFinset.mpr (hmem x (List.mem_toFinset.mp hx))).trans
      (List.toFinset_card_le values)
  calc l.length = ∑ x ∈ l.toFinset, l.count x := (List.sum_toFinset_count_eq_length l).symm
    _ ≤ l.toFinset.card * k := Finset.sum_le_card_nsmul _ _ _ fun x _ => hcount x
    _ ≤ values.length * k := Nat.mul_le_mul_right k hvalues
    _ = k * values.length := Nat.mul_comm ..

/-- A column is sent for each target that has its name. -/
theorem AddedOnce.length_le (h : AddedOnce k db) (table col : String) :
    ((sentColumns db.log).filter fun sent => sent.1 = table ∧ safeName sent.2 = col).length ≤
      k * (db.knownCustomCols.filter (safeName · = col)).length := by
  set sent := (sentColumns db.log).filter fun sent => sent.1 = table ∧ safeName sent.2 = col
    with hsent
  have hmem : ∀ pair ∈ sent,
      pair ∈ (db.knownCustomCols.filter (safeName · = col)).map (Prod.mk table) := by
    intro pair hpair
    obtain ⟨hlog, hnamed⟩ := List.mem_filter.mp hpair
    obtain ⟨rfl, hcol⟩ := of_decide_eq_true hnamed
    obtain ⟨ok, hevent⟩ := mem_sentColumns.mp hlog
    refine List.mem_map_of_mem (List.mem_filter.mpr ⟨?_, decide_eq_true hcol⟩)
    exact (h.registered _ _ ok hevent).2
  have hcount (pair : String × String) : sent.count pair ≤ k :=
    (List.filter_sublist.count_le pair).trans (h.count_le pair.1 pair.2)
  have hlength := length_le_of_count_le hmem fun pair => by convert hcount pair
  rwa [List.length_map] at hlength

end DbState

/-! ## Runs -/

/-- ClickHouse accepts every `ADD COLUMN`, and no mapping table names a target more than
`k` times. -/
def Registers (k : ℕ) (s : LoopState) : Action → Prop
  | .flush env => (∀ table i, env.addColumnOk table i) ∧
      ∀ col, (s.mappings.customColumnTargets env.mappingOrder).count col ≤ k
  | _ => True

/-- What the buffers and the database hold in such a run. -/
structure RegisterInv (k : ℕ) (s : LoopState) : Prop where
  dotted : Dotted s.batches
  added : s.db.AddedOnce k

theorem RegisterInv.step {s s' : LoopState} {a : Action} (h : RegisterInv k s) (hk : 1 ≤ k)
    (hregisters : Registers k s a) (hstep : WazuhOcsf.step ext cfg s a = some s') :
    RegisterInv k s' := by
  cases moves_of_step ext cfg hstep with
  | send m hopen hroom => exact ⟨h.dotted, h.added.record rfl⟩
  | recv env m rest hpc hchannel =>
      refine ⟨h.dotted.recv env m rest, ?_⟩
      rw [bufferRow_db]
      exact h.added.record rfl
  | flush env final hpc =>
      refine ⟨fun table hrows => ?_, ?_⟩
      · dsimp only at hrows
        rw [DbState.rows_flushAll] at hrows
        exact absurd rfl hrows
      · have hadded := h.added.registerColumns hregisters.1 hregisters.2
        exact hadded.flushAll hk ((env.columnOrder.perm _).nodup_iff.mpr hadded.columns)
          (fun col hcol => (IterOrder.mem_arrange _).mp hcol) h.dotted
  | save inode ok final hpc => exact ⟨h.dotted, h.added.record rfl⟩
  | _ => exact ⟨h.dotted, h.added⟩

/-- In every run in which ClickHouse accepts each `ADD COLUMN`, across all hot-reloads and
however the tables appear: a target is sent to a table at most as often as one mapping table
names it, and a column at most so often for each registered target that has its name. -/
theorem columns_added_once {mappings : CustomMappings} {startOffset : ℕ} {s : LoopState}
    (hk : 1 ≤ k) (run : RunWhere (step ext cfg) (Registers k) (.initial mappings startOffset) s)
    (table : String) :
    (∀ target, (sentColumns s.log).count (table, target) ≤ k) ∧
      ∀ col, ((sentColumns s.log).filter fun sent =>
        sent.1 = table ∧ safeName sent.2 = col).length ≤
          k * (s.db.knownCustomCols.filter (safeName · = col)).length := by
  have hinv : RegisterInv k s := by
    refine run.invariant ⟨fun table hrows => absurd rfl hrows, ?_⟩
      fun s a s' h hregisters hstep => h.step hk hregisters hstep
    exact ⟨by simp [LoopState.initial], List.nodup_nil, List.nodup_nil,
      by simp [LoopState.initial], fun _ _ => Nat.zero_le _⟩
  exact ⟨hinv.added.count_le table, hinv.added.length_le table⟩

/-- Two flushes, of one line each. -/
def sampleFlushes : List Action :=
  sampleTick ++ [.flush default, .save 1 true] ++ sampleTick ++ [.flush default]

/-- Two targets for one column. -/
def riskMappings : CustomMappings where
  ocsfVersion := "1.7.0"
  fieldMap := ⟨[("data.risk", "risk-score"), ("data.score", "risk.score")], by decide⟩

/-- The column is sent for both of its targets, and not again. -/
theorem columns_added_once_risk : ∃ s,
    RunWhere (step sampleExternals sampleConfig) (Registers 1) (.initial riskMappings 0) s ∧
      sentColumns s.log = [(sampleTable, "risk-score"), (sampleTable, "risk.score")] ∧
      s.db.knownCustomCols = ["risk-score", "risk.score"] ∧
      (sentColumns s.log).count (sampleTable, "risk-score") ≤ 1 ∧
      ((sentColumns s.log).filter fun sent =>
        sent.1 = sampleTable ∧ safeName sent.2 = "risk_score").length ≤
          1 * (s.db.knownCustomCols.filter (safeName · = "risk_score")).length := by
  have hend : (exec (step sampleExternals sampleConfig) (.initial riskMappings 0)
      sampleFlushes).map (fun s => (sentColumns s.log, s.db.knownCustomCols)) =
      some ([(sampleTable, "risk-score"), (sampleTable, "risk.score")],
        ["risk-score", "risk.score"]) := by
    decide +kernel
  obtain ⟨s, hexec, hend⟩ := Option.map_eq_some_iff.mp hend
  obtain ⟨hsent, hcols⟩ := Prod.mk.inj hend
  -- no step of the scenario reloads the mapping table
  have hevery : ∀ actions : List Action, (∀ a ∈ actions, ∀ m, a ≠ .reload m) →
      (∀ env, .flush env ∈ actions → env = default) → ∀ s : LoopState, s.mappings = riskMappings →
      EveryStep (step sampleExternals sampleConfig) (Registers 1) s actions := by
    intro actions
    induction actions with
    | nil => exact fun _ _ _ _ => trivial
    | cons a rest ih =>
        intro hreload hflush s hs
        rw [List.forall_mem_cons] at hreload
        refine ⟨?_, fun next hnext => ?_⟩
        · cases a with
          | flush env =>
              obtain rfl := hflush env List.mem_cons_self
              refine ⟨fun _ _ => rfl, ?_⟩
              rw [hs]
              exact List.nodup_iff_count_le_one.mp (by decide)
          | _ => trivial
        · refine ih hreload.2 (fun env henv => hflush env (.tail _ henv)) next ?_
          rw [mappings_of_step hnext hreload.1, hs]
  have run := runWhere_of_exec hexec (hevery _ (by simp [sampleFlushes, sampleTick])
    (by simp [sampleFlushes, sampleTick]) _ rfl)
  obtain ⟨htargets, hcolumns⟩ := columns_added_once le_rfl run sampleTable
  exact ⟨s, run, hsent, hcols, htargets _, hcolumns _⟩

end WazuhOcsf
