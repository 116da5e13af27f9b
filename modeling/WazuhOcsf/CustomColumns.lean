import WazuhOcsf.Delivery

/-!
# Registered columns

A mapping target is registered in two places.  `do_flush` adds its column to the
known tables and registers it when all of them accepted; `flush_all` adds the
registered columns to a table it creates, and nobody looks at the outcome.  So the
registered columns exist on the known tables exactly as long as no `ADD COLUMN`
fails on a table that was just created: `registered_columns_exist`, and
`registered_column_missing` for a run in which one fails.
-/

namespace WazuhOcsf

open Transition

variable {ext : Externals} {cfg : AppConfig}

namespace DbState

variable {env : FlushEnv} {customCols : List String} {db : DbState}

/-- Every registered column was added to every known table. -/
def ColumnsExist (db : DbState) : Prop :=
  ∀ table ∈ db.knownTables, ∀ col ∈ db.knownCustomCols, (table, col) ∈ addedColumns db.log

theorem mem_addedColumns_of_isPrefix {before after : List Event} (h : before <+: after)
    {column : String × String} (hadded : column ∈ addedColumns before) :
    column ∈ addedColumns after :=
  (h.sublist.filterMap _).subset hadded

theorem mem_addedColumns {table col : String} {log : List Event} :
    (table, col) ∈ addedColumns log ↔ .columnSent table col true ∈ log := by
  constructor
  · intro h
    obtain ⟨e, he, hcol⟩ := List.mem_filterMap.mp h
    cases e with
    | columnSent table' col' ok =>
        cases ok with
        | true =>
            obtain ⟨rfl, rfl⟩ := Prod.mk.inj (Option.some.inj hcol)
            exact he
        | false => cases hcol
    | _ => cases hcol
  · exact fun h => List.mem_filterMap.mpr ⟨_, h, rfl⟩

/-- A target that is reported as applied was sent and accepted. -/
theorem mem_ensureColumns_of_applied {table col : String} {columns : List String}
    (h : col ∈ ensureCustomColumns table columns (env.addColumnOk table)) :
    .columnSent table col true ∈ ensureColumns env table columns := by
  unfold ensureCustomColumns at h
  unfold ensureColumns
  split at h
  · next hdot =>
      obtain ⟨column, hcolumn, rfl⟩ := List.mem_map.mp h
      obtain ⟨hindexed, hsent⟩ := List.mem_filter.mp hcolumn
      rw [Bool.and_eq_true, decide_eq_true_eq] at hsent
      rw [if_pos hdot]
      refine List.mem_map.mpr ⟨column, List.mem_filter.mpr ⟨hindexed, ?_⟩, ?_⟩
      · exact decide_eq_true hsent.1
      · rw [hsent.2]
  · exact absurd h List.not_mem_nil

/-- A longer log takes no column away. -/
theorem ColumnsExist.record (h : ColumnsExist db) (events : List Event) :
    ColumnsExist (db.record events) :=
  fun table htable col hcol =>
    mem_addedColumns_of_isPrefix (List.prefix_append _ _) (h table htable col hcol)

/-- A column is registered once every known table has it. -/
theorem ColumnsExist.registerColumns (h : ColumnsExist db) (mappings : CustomMappings) :
    ColumnsExist (db.registerColumns env mappings) := by
  intro table htable col hcol
  rcases List.mem_union_iff.mp hcol with hnew | hold
  · have hvisited : table ∈ env.tableOrder.arrange db.knownTables :=
      (IterOrder.mem_arrange _).mpr htable
    have happlied := List.all_eq_true.mp (List.mem_filter.mp hnew).2 table hvisited
    refine mem_addedColumns.mpr (List.mem_append_right _ ?_)
    exact List.mem_flatMap.mpr
      ⟨table, hvisited, mem_ensureColumns_of_applied (of_decide_eq_true happlied)⟩
  · exact mem_addedColumns_of_isPrefix (log_prefix_registerColumns mappings)
      (h table htable col hold)

/-- A target without a name is registered only while there is no table to refuse it. -/
theorem empty_mem_registerColumns {mappings : CustomMappings}
    (h : "" ∈ (db.registerColumns env mappings).knownCustomCols) :
    "" ∈ db.knownCustomCols ∨
      db.knownTables = [] ∧ "" ∈ mappings.customColumnTargets env.mappingOrder := by
  rcases List.mem_union_iff.mp h with hnew | hold
  · obtain ⟨hnew, hall⟩ := List.mem_filter.mp hnew
    refine .inr ⟨?_, (List.mem_filter.mp hnew).1⟩
    by_contra hne
    obtain ⟨table, htable⟩ := List.exists_mem_of_ne_nil _ hne
    have happlied := List.all_eq_true.mp hall table ((IterOrder.mem_arrange _).mpr htable)
    exact ne_empty_of_mem_ensureCustomColumns (of_decide_eq_true happlied) rfl
  · exact .inl hold

/-- A created table gets every registered column. -/
theorem ColumnsExist.flushTable (h : ColumnsExist db) {work : String × List OcsfRecord}
    (hcols : ∀ col ∈ db.knownCustomCols, col ∈ customCols)
    (hcreated : work.1 ∉ db.knownTables → env.ensureOk work.1 →
      ∀ col ∈ customCols, col ∈ ensureCustomColumns work.1 customCols (env.addColumnOk work.1)) :
    ColumnsExist (flushTable env customCols db work) := by
  intro table htable col hcol
  rw [knownCustomCols_flushTable] at hcol
  rw [log_flushTable]
  by_cases hknown : table ∈ db.knownTables
  · exact mem_addedColumns_of_isPrefix (List.prefix_append _ _) (h table hknown col hcol)
  · obtain ⟨rfl, hok⟩ := ((mem_knownTables_flushTable work table).mp htable).resolve_left hknown
    have happlied := hcreated hknown hok col (hcols col hcol)
    refine mem_addedColumns.mpr (List.mem_append_right _ ?_)
    rw [roundEvents, if_neg hknown, if_pos hok]
    exact List.mem_cons_of_mem _ (List.mem_append_left _ (mem_ensureColumns_of_applied happlied))

theorem ColumnsExist.flushAll (h : ColumnsExist db) {batches : BatchMap}
    (hcols : ∀ col ∈ db.knownCustomCols, col ∈ customCols)
    (hcreated : ∀ table, batches.rows table ≠ [] → table ∉ db.knownTables → env.ensureOk table →
      ∀ col ∈ customCols, col ∈ ensureCustomColumns table customCols (env.addColumnOk table)) :
    ColumnsExist (flushAll env customCols batches db).2 := by
  -- the tables still to visit: one created meanwhile is only better off
  have hrounds : ∀ works : List (String × List OcsfRecord), ∀ db' : DbState,
      ColumnsExist db' → db'.knownCustomCols = db.knownCustomCols →
      (∀ table ∈ db.knownTables, table ∈ db'.knownTables) →
      (∀ work ∈ works, batches.rows work.1 ≠ []) →
      ColumnsExist (works.foldl (DbState.flushTable env customCols) db') := by
    intro works
    induction works with
    | nil => exact fun db' hexist _ _ _ => hexist
    | cons work rest ih =>
        intro db' hexist hsame hgrown hworks
        rw [List.forall_mem_cons] at hworks
        refine ih _ (hexist.flushTable (hsame ▸ hcols) fun hknown => ?_) ?_ ?_ hworks.2
        · exact hcreated work.1 hworks.1 fun hbefore => hknown (hgrown _ hbefore)
        · rw [knownCustomCols_flushTable, hsame]
        · exact fun table htable =>
            (mem_knownTables_flushTable work table).mpr (.inl (hgrown table htable))
  refine hrounds _ _ (h.record _) rfl (fun _ => id) fun work hwork => ?_
  obtain ⟨hrows, hne⟩ := rows_of_mem_work hwork
  exact hrows ▸ hne

end DbState

/-! ## Table names -/

theorem dot_mem_routingTable (db agentName location : String) (specialLocs : List String) :
    '.' ∈ (routingTable db agentName location specialLocs).toList := by
  unfold routingTable
  simp

/-- `transform` names a table with its database. -/
theorem dot_mem_of_rowOf {env : TransformEnv} {mappings : CustomMappings} {line table : String}
    {rec : OcsfRecord} (h : rowOf ext cfg env mappings line = some (table, rec)) :
    '.' ∈ table.toList := by
  obtain ⟨⟨t, r⟩, hrow, hsame⟩ := Option.map_eq_some_iff.mp h
  obtain ⟨obj, -, -, rfl, -⟩ := transform_eq_some_iff.mp hrow
  obtain ⟨rfl, -⟩ := Prod.mk.inj hsame
  exact dot_mem_routingTable _ _ _ _

/-! ## Runs -/

/-- A buffer with rows is a table with a database. -/
def Dotted (batches : BatchMap) : Prop := ∀ table, batches.rows table ≠ [] → '.' ∈ table.toList

theorem Dotted.recv {s : LoopState} (h : Dotted s.batches) (env : TransformEnv) (m : Message)
    (rest : List Message) : Dotted (bufferRow cfg
      { s with
        channel := rest
        currentOffset := m.offset
        db := s.db.record [.received (receive ext cfg env s m)] }
      (receive ext cfg env s m).row).batches := by
  intro table hrows
  rw [rows_bufferRow] at hrows
  by_cases hbefore : s.batches.rows table = []
  · rw [hbefore, List.nil_append] at hrows
    obtain ⟨rec, hrec⟩ := List.exists_mem_of_ne_nil _ hrows
    obtain ⟨e, he, hrouted⟩ := List.mem_filterMap.mp hrec
    rw [List.mem_singleton] at he
    subst he
    obtain ⟨row, hrow, hfor⟩ := Option.bind_eq_some_iff.mp hrouted
    obtain ⟨rfl, -⟩ := Option.ite_none_right_eq_some.mp hfor
    exact dot_mem_of_rowOf hrow
  · exact h table hbefore

/-- What the buffers and the database hold in such a run. -/
structure ColumnInv (s : LoopState) : Prop where
  dotted : Dotted s.batches
  exist : s.db.ColumnsExist

/-- A table the flush creates gets every column: no target without a name is
registered, and ClickHouse accepts each `ADD COLUMN` on it. -/
def ColumnsAccepted (s : LoopState) : Action → Prop
  | .flush env => ∀ table, s.batches.rows table ≠ [] → table ∉ s.db.knownTables →
      env.ensureOk table →
        "" ∉ s.db.knownCustomCols ∧
        (s.db.knownTables = [] → "" ∉ s.mappings.customColumnTargets env.mappingOrder) ∧
        ∀ i, env.addColumnOk table i
  | _ => True

theorem ColumnInv.step {s s' : LoopState} {a : Action} (h : ColumnInv s)
    (haccepted : ColumnsAccepted s a) (hstep : WazuhOcsf.step ext cfg s a = some s') :
    ColumnInv s' := by
  cases moves_of_step ext cfg hstep with
  | send m hopen hroom => exact ⟨h.dotted, h.exist.record _⟩
  | recv env m rest hpc hchannel =>
      refine ⟨h.dotted.recv env m rest, ?_⟩
      rw [bufferRow_db]
      exact h.exist.record _
  | flush env final hpc =>
      refine ⟨fun table hrows => ?_, ?_⟩
      · dsimp only at hrows
        rw [DbState.rows_flushAll] at hrows
        exact absurd rfl hrows
      · refine (h.exist.registerColumns s.mappings).flushAll
          (fun col hcol => (IterOrder.mem_arrange _).mpr hcol) ?_
        intro table hrows hcreated hok col hcol
        obtain ⟨hregistered, htargets, hcolumns⟩ := haccepted table hrows hcreated hok
        refine mem_ensureCustomColumns (h.dotted table hrows) hcol (fun hempty => ?_)
          fun i _ => hcolumns i
        rw [hempty, IterOrder.mem_arrange] at hcol
        rcases DbState.empty_mem_registerColumns hcol with hbefore | ⟨hnone, htarget⟩
        · exact hregistered hbefore
        · exact htargets hnone htarget
  | save inode ok final hpc => exact ⟨h.dotted, h.exist.record _⟩
  | _ => exact ⟨h.dotted, h.exist⟩

/-- In every run in which the tables that get created get their columns, every
registered column was added to every known table. -/
theorem registered_columns_exist {mappings : CustomMappings} {startOffset : ℕ} {s : LoopState}
    (run : RunWhere (step ext cfg) ColumnsAccepted (.initial mappings startOffset) s) :
    s.db.ColumnsExist := by
  have hinv : ColumnInv s := by
    refine run.invariant ⟨fun table hrows => absurd rfl hrows, ?_⟩ fun s a s' h haccepted hstep =>
      h.step haccepted hstep
    exact fun table htable => absurd htable List.not_mem_nil
  exact hinv.exist

/-- One custom column. -/
def ticketMappings : CustomMappings where
  ocsfVersion := "1.7.0"
  fieldMap := ⟨[("data.ticket_id", "ticket_id")], by decide⟩

/-- One line arrives, and the timer fires. -/
def sampleTick : List Action := [.send ⟨3, sampleLine, 0⟩, .recv default, .tick]

theorem registered_columns_exist_ticket :
    ∃ s, RunWhere (step sampleExternals sampleConfig) ColumnsAccepted
        (.initial ticketMappings 0) s ∧
      s.db.knownTables = [sampleTable] ∧ s.db.knownCustomCols = ["ticket_id"] ∧
      s.db.ColumnsExist := by
  obtain ⟨ticked, hticked⟩ := Option.isSome_iff_exists.mp
    (show (exec (step sampleExternals sampleConfig) (.initial ticketMappings 0) sampleTick).isSome by
      decide +kernel)
  have hbefore : (exec (step sampleExternals sampleConfig) (.initial ticketMappings 0)
      sampleTick).map (fun s => (s.db.knownCustomCols, s.mappings.customColumnTargets default)) =
      some ([], ["ticket_id"]) := by
    decide +kernel
  have hafter : (exec (step sampleExternals sampleConfig) (.initial ticketMappings 0)
      (sampleTick ++ [.flush default])).map (fun s => (s.db.knownTables, s.db.knownCustomCols)) =
      some ([sampleTable], ["ticket_id"]) := by
    decide +kernel
  rw [hticked, Option.map_some, Option.some.injEq, Prod.mk.injEq] at hbefore
  rw [exec_append, hticked] at hafter
  obtain ⟨s, hflush, hend⟩ := Option.map_eq_some_iff.mp hafter
  have hstep : step sampleExternals sampleConfig ticked (.flush default) = some s := by
    simpa [exec] using hflush
  have hfill : RunWhere (step sampleExternals sampleConfig) ColumnsAccepted
      (.initial ticketMappings 0) ticked := by
    refine runWhere_of_exec hticked (everyStep_of_forall (fun a ha s => ?_) _)
    simp only [sampleTick, List.mem_cons, List.not_mem_nil, or_false] at ha
    rcases ha with rfl | rfl | rfl <;> trivial
  have haccepted : ColumnsAccepted ticked (.flush default) :=
    fun table _ _ _ => ⟨by simp [hbefore.1], fun _ => hbefore.2 ▸ by decide, fun _ => rfl⟩
  have run := hfill.snoc haccepted hstep
  exact ⟨s, run, (Prod.mk.inj hend).1, (Prod.mk.inj hend).2, registered_columns_exist run⟩

/-- The `ADD COLUMN` on a created table fails, the column stays registered, and the
next flush does not try again. -/
theorem registered_column_missing :
    ∃ s, Reachable (step sampleExternals sampleConfig) (.initial ticketMappings 0) s ∧
      ¬ s.db.ColumnsExist ∧ s.db.newColumns default s.mappings = [] := by
  set env : FlushEnv := { (default : FlushEnv) with addColumnOk := fun _ _ => false } with henv
  have hend : (exec (step sampleExternals sampleConfig) (.initial ticketMappings 0)
      (sampleTick ++ [.flush env])).map (fun s => (s.db.knownTables, s.db.knownCustomCols,
        addedColumns s.log, s.db.newColumns default s.mappings)) =
      some ([sampleTable], ["ticket_id"], [], []) := by
    decide +kernel
  obtain ⟨s, hexec, hend⟩ := Option.map_eq_some_iff.mp hend
  simp only [Prod.mk.injEq] at hend
  obtain ⟨htables, hcols, hadded, hnew⟩ := hend
  refine ⟨s, reachable_of_exec hexec, fun hexist => ?_, hnew⟩
  have hticket := hexist sampleTable (by simp [htables]) "ticket_id" (by simp [hcols])
  rw [hadded] at hticket
  exact List.not_mem_nil hticket

end WazuhOcsf
