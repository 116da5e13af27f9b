import WazuhOcsf.CustomColumns
import WazuhOcsf.Output.Server

/-!
# Rows and the tables they go to

The known tables of a process are what it believes about the server.  `ddl_discipline`: in
every run a table is created until that succeeds, and never again; columns are added to it
and rows inserted into it only from then on.  So whatever the server made of the statements,
and wherever the creation of a table was broken off before, the rows of an insert find their
columns: `inserts_fit_schema`.
-/

namespace WazuhOcsf

open Transition Trace RustString

variable {ext : Externals} {cfg : AppConfig}

/-! ## The order of the DDL -/

/-- A table is created once, and before anything else is done to it. -/
def DdlGuard (before : List Event) : Event → Prop
  | .ensured table _ => .ensured table true ∉ before
  | .columnSent table _ _ => .ensured table true ∈ before
  | .inserted table _ _ => .ensured table true ∈ before
  | _ => True

/-- The event is about no table of the server. -/
def Event.isQuiet : Event → Bool
  | .ensured _ _ | .columnSent _ _ _ | .inserted _ _ _ => false
  | _ => true

namespace DbState

/-- The known tables are the ones that were created. -/
structure DdlFirst (db : DbState) : Prop where
  known : ∀ table, table ∈ db.knownTables ↔ .ensured table true ∈ db.log
  guarded : Guarded DdlGuard db.log

variable {env : FlushEnv} {customCols : List String} {db : DbState}

namespace DdlFirst

theorem record (h : DdlFirst db) {new : List Event} (hnew : ∀ e ∈ new, e.isQuiet) :
    DdlFirst (db.record new) where
  known table := by
    rw [log_record, List.mem_append, ← h.known table]
    refine ⟨.inl, fun hmem => hmem.resolve_right fun hensured => ?_⟩
    exact absurd (hnew _ hensured) (by simp [Event.isQuiet])
  guarded := h.guarded.append fun e he before => by
    have hquiet := hnew e he
    cases e <;> trivial

/-- An event that makes no table known. -/
theorem recordAllowed (h : DdlFirst db) {e : Event} (hne : ∀ table, e ≠ .ensured table true)
    (hguard : DdlGuard db.log e) : DdlFirst (db.record [e]) where
  known table := by
    rw [log_record, List.mem_append, ← h.known table, List.mem_singleton]
    exact ⟨.inl, fun hmem => hmem.resolve_right fun heq => hne table heq.symm⟩
  guarded := guarded_concat.mpr ⟨h.guarded, hguard⟩

theorem addColumns (h : DdlFirst db) {table : String} (htable : table ∈ db.knownTables)
    {new : List Event} (hnew : ∀ e ∈ new, ∃ target ok, e = .columnSent table target ok) :
    DdlFirst (db.record new) := by
  induction new generalizing db with
  | nil => simpa [DbState.record] using h
  | cons e rest ih =>
      rw [List.forall_mem_cons] at hnew
      obtain ⟨⟨target, ok, rfl⟩, hrest⟩ := hnew
      have hfirst : DdlFirst (db.record [.columnSent table target ok]) :=
        h.recordAllowed (by simp) ((h.known table).mp htable)
      simpa [DbState.record] using ih hfirst htable hrest

theorem insertBatch (h : DdlFirst db) {table : String} (rows : List OcsfRecord)
    (htable : table ∈ db.knownTables) : DdlFirst (db.insertBatch env table rows) := by
  unfold DbState.insertBatch
  split
  · exact h
  · exact h.recordAllowed (by simp) ((h.known table).mp htable)

/-- A table that was created is known. -/
theorem create (h : DdlFirst db) {table : String} (htable : table ∉ db.knownTables) :
    DdlFirst { db.record [.ensured table true] with
      knownTables := db.knownTables.insert table } where
  known other := by
    rw [List.mem_insert_iff, h.known other, log_record, List.mem_append, List.mem_singleton,
      Event.ensured.injEq, and_iff_left rfl, or_comm]
  guarded := guarded_concat.mpr ⟨h.guarded, fun hensured => htable ((h.known table).mpr hensured)⟩

theorem flushTable (h : DdlFirst db) (work : String × List OcsfRecord) :
    DdlFirst (flushTable env customCols db work) := by
  unfold DbState.flushTable
  split_ifs with hknown hok
  · exact h.insertBatch _ hknown
  · have hadded := (h.create hknown).addColumns List.mem_insert_self
      fun e (he : e ∈ ensureColumns env work.1 customCols) => mem_ensureColumns he
    refine insertBatch ?_ _ List.mem_insert_self
    simpa [DbState.record] using hadded
  · exact h.recordAllowed (by simp) fun hensured => hknown ((h.known work.1).mpr hensured)

theorem registerColumns (h : DdlFirst db) (mappings : CustomMappings) :
    DdlFirst (registerColumns env mappings db) := by
  -- one table after the other, all of them known
  have htables : ∀ tables : List String, ∀ db' : DbState, DdlFirst db' →
      (∀ table ∈ tables, table ∈ db'.knownTables) →
      DdlFirst (db'.record (tables.flatMap fun table =>
        ensureColumns env table (db.newColumns env mappings))) := by
    intro tables
    induction tables with
    | nil => exact fun db' h' _ => by simpa [DbState.record] using h'
    | cons table rest ih =>
        intro db' h' hknown
        rw [List.forall_mem_cons] at hknown
        have hfirst := h'.addColumns hknown.1
          fun e (he : e ∈ ensureColumns env table (db.newColumns env mappings)) =>
            mem_ensureColumns he
        simpa [DbState.record] using ih _ hfirst hknown.2
  have hadded := htables (env.tableOrder.arrange db.knownTables) db h fun table htable =>
    (IterOrder.mem_arrange _).mp htable
  exact ⟨hadded.known, hadded.guarded⟩

theorem flushAll (h : DdlFirst db) (batches : BatchMap) :
    DdlFirst (flushAll env customCols batches db).2 := by
  have hstart : DdlFirst (db.record ((work env batches).map fun w => .taken w.1 w.2)) :=
    h.record (List.forall_mem_map.mpr fun _ _ => rfl)
  exact List.foldlRecOn _ _ hstart fun db hdb w _ => hdb.flushTable w

end DdlFirst

end DbState

theorem DbState.DdlFirst.step {s s' : LoopState} {a : Action} (h : s.db.DdlFirst)
    (hstep : WazuhOcsf.step ext cfg s a = some s') : s'.db.DdlFirst := by
  cases moves_of_step ext cfg hstep with
  | send m hopen hroom => exact h.record (by simp [Event.isQuiet])
  | recv env m rest hpc hchannel =>
      rw [bufferRow_db]
      exact h.record (by simp [Event.isQuiet])
  | flush env final hpc => exact (h.registerColumns s.mappings).flushAll s.batches
  | save inode ok final hpc => exact h.record (by simp [Event.isQuiet])
  | _ => exact h

theorem ddlFirst_of_reachable {mappings : CustomMappings} {startOffset : ℕ} {s : LoopState}
    (run : Reachable (step ext cfg) (.initial mappings startOffset) s) : s.db.DdlFirst := by
  refine run.invariant (I := fun s : LoopState => s.db.DdlFirst) ?_
    fun _ _ _ h _ hstep => h.step hstep
  exact ⟨fun table => by simp [LoopState.initial], guarded_nil⟩

/-- In every run: no table is created again once it was, and no column is added to a table
and no row inserted before. -/
theorem ddl_discipline {mappings : CustomMappings} {startOffset : ℕ} {s : LoopState}
    (run : Reachable (step ext cfg) (.initial mappings startOffset) s) : Guarded DdlGuard s.log :=
  (ddlFirst_of_reachable run).guarded

theorem ddl_discipline_shutdown : ∃ s, Reachable (step sampleExternals sampleConfig)
    (.initial default 0) s ∧ (insertCalls sampleTable s.log).length = 1 ∧
      Guarded DdlGuard s.log := by
  have hend : (exec (step sampleExternals sampleConfig) (.initial default 0) sampleShutdown).map
      (fun s => (insertCalls sampleTable s.log).length) = some 1 := by
    decide +kernel
  obtain ⟨s, hexec, hend⟩ := Option.map_eq_some_iff.mp hend
  exact ⟨s, reachable_of_exec hexec, hend, ddl_discipline (reachable_of_exec hexec)⟩

/-! ## What becomes of the rows that are taken -/

/-- The table could not be created, and the rows taken for it are lost. -/
def Event.failedEnsure (table : String) : Event → Option String
  | ensured t false => if t = table then some t else none
  | _ => none

/-- The tables that could not be created, one entry for each attempt. -/
def failedEnsures (table : String) (log : List Event) : List String :=
  log.filterMap (Event.failedEnsure table)

/-- For every vector that was taken there is an insert, or a table that could not be
created. -/
def TakenAccounted (log : List Event) : Prop :=
  ∀ table, (takenVectors table log).length =
    (insertCalls table log).length + (failedEnsures table log).length

namespace DbState

variable {env : FlushEnv} {customCols : List String} {db : DbState}

/-- A round inserts its vector, or its table could not be created. -/
theorem accounted_roundEvents {work : String × List OcsfRecord} (hrows : work.2 ≠ [])
    (table : String) :
    (insertCalls table (roundEvents env customCols db work)).length +
      (failedEnsures table (roundEvents env customCols db work)).length =
        (vectorsOf table [work]).length := by
  have hcolumns : (ensureColumns env work.1 customCols).filterMap (Event.failedEnsure table) = [] :=
    filterMap_ensureColumns (fun _ _ _ => rfl) work.1 customCols
  rw [insertCalls, filterMap_roundEvents (fun _ _ _ => rfl) fun _ _ => rfl]
  -- the table is known, or it is created, or it is not
  unfold failedEnsures roundEvents insertEvents vectorsOf
  by_cases htable : work.1 = table <;> split_ifs <;>
    simp_all [Event.insertedRows, Event.failedEnsure, List.filterMap_cons]

theorem accounted_foldl_flushTable (works : List (String × List OcsfRecord))
    (hrows : ∀ work ∈ works, work.2 ≠ []) (table : String) :
    (insertCalls table (works.foldl (flushTable env customCols) db).log).length +
      (failedEnsures table (works.foldl (flushTable env customCols) db).log).length =
        (insertCalls table db.log).length + (failedEnsures table db.log).length +
          (vectorsOf table works).length := by
  induction works generalizing db with
  | nil => rfl
  | cons work rest ih =>
      rw [List.forall_mem_cons] at hrows
      have hround := @accounted_roundEvents env customCols db work hrows.1 table
      have hsplit : vectorsOf table (work :: rest) =
          vectorsOf table [work] ++ vectorsOf table rest := by
        simp [vectorsOf, ← List.map_append, ← List.filter_append]
      rw [List.foldl_cons, ih hrows.2, log_flushTable, hsplit, List.length_append, ← hround]
      simp only [insertCalls, failedEnsures, List.filterMap_append, List.length_append]
      omega

theorem accounted_registerColumns (mappings : CustomMappings) (h : TakenAccounted db.log) :
    TakenAccounted (registerColumns env mappings db).log := by
  intro table
  have htaken : takenVectors table (registerColumns env mappings db).log =
      takenVectors table db.log := (quiet_takenRows table).registerColumns mappings
  have hcalls : insertCalls table (registerColumns env mappings db).log =
      insertCalls table db.log := filterMap_registerColumns (fun _ _ _ => rfl) mappings
  have hfailed : failedEnsures table (registerColumns env mappings db).log =
      failedEnsures table db.log := filterMap_registerColumns (fun _ _ _ => rfl) mappings
  rw [htaken, hcalls, hfailed]
  exact h table

theorem accounted_flushAll (batches : BatchMap) (h : TakenAccounted db.log) :
    TakenAccounted (flushAll env customCols batches db).2.log := by
  intro table
  have htaken : insertCalls table ((work env batches).map fun w => Event.taken w.1 w.2) = [] := by
    simp [insertCalls, List.filterMap_map, Event.insertedRows]
  have hnone : failedEnsures table ((work env batches).map fun w => Event.taken w.1 w.2) = [] := by
    simp [failedEnsures, List.filterMap_map, Event.failedEnsure]
  have hrounds := @accounted_foldl_flushTable env customCols
    (db.record ((work env batches).map fun w => .taken w.1 w.2)) (work env batches)
    (fun w hw => (rows_of_mem_work hw).2) table
  have hvectors : vectorsOf table (work env batches) =
      if batches.rows table = [] then [] else [batches.rows table] := vectorsOf_work batches table
  rw [takenVectors_flushAll, List.length_append, ← hvectors, h table, flushAll, hrounds]
  rw [insertCalls] at htaken
  rw [failedEnsures] at hnone
  simp only [insertCalls, failedEnsures, log_record, List.filterMap_append, htaken, hnone,
    List.append_nil]

end DbState

theorem TakenAccounted.step {s s' : LoopState} {a : Action} (h : TakenAccounted s.log)
    (hstep : WazuhOcsf.step ext cfg s a = some s') : TakenAccounted s'.log := by
  have hquiet {log : List Event} (h : TakenAccounted log) {e : Event} (he : e.isQuiet)
      (htaken : ∀ table, e.takenRows table = none) : TakenAccounted (log ++ [e]) := by
    intro table
    have hfailed : e.failedEnsure table = none := by
      cases e <;> trivial
    have hcalls : e.insertedRows table = none := by
      cases e <;> trivial
    simpa [takenVectors, insertCalls, failedEnsures, List.filterMap_cons, hfailed, hcalls,
      htaken table] using h table
  cases moves_of_step ext cfg hstep with
  | send m hopen hroom => exact hquiet h rfl fun _ => rfl
  | recv env m rest hpc hchannel =>
      have hnext : TakenAccounted (s.log ++ [.received (receive ext cfg env s m)]) :=
        hquiet h rfl fun _ => rfl
      exact (log_bufferRow_received s (receive ext cfg env s m) rest).symm ▸ hnext
  | flush env final hpc =>
      exact DbState.accounted_flushAll _ (DbState.accounted_registerColumns s.mappings h)
  | save inode ok final hpc => exact hquiet h rfl fun _ => rfl
  | _ => exact h

/-- In every run and for every table: each vector of rows that `flush_all` took was handed to
`insert_batch`, or is lost with an `ensure_table` that failed. -/
theorem taken_accounted {mappings : CustomMappings} {startOffset : ℕ} {s : LoopState}
    (run : Reachable (step ext cfg) (.initial mappings startOffset) s) : TakenAccounted s.log :=
  run.invariant (I := fun s : LoopState => TakenAccounted s.log) (fun _ => rfl)
    fun _ _ _ h _ hstep => h.step hstep

theorem taken_accounted_refused : ∃ s, Reachable (step sampleExternals sampleConfig)
    (.initial default 0) s ∧ (failedEnsures sampleTable s.log).length = 1 ∧
      (takenVectors sampleTable s.log).length =
        (insertCalls sampleTable s.log).length + (failedEnsures sampleTable s.log).length := by
  have hend : (exec (step sampleExternals sampleConfig) (.initial default 0)
      (sampleTick ++ [.flush { (default : FlushEnv) with ensureOk := fun _ => false }])).map
      (fun s => (failedEnsures sampleTable s.log).length) = some 1 := by
    decide +kernel
  obtain ⟨s, hexec, hend⟩ := Option.map_eq_some_iff.mp hend
  exact ⟨s, reachable_of_exec hexec, hend, taken_accounted (reachable_of_exec hexec) sampleTable⟩

/-! ## The server behind a run -/

/-- The statement of an `ADD COLUMN`. -/
def columnStatement (db table target : String) : Statement :=
  .addTarget (tableKey db table).1 (tableKey db table).2 target

/-- The tables the server may have after the events of a log, from the ones at the start.
It applied what it confirmed; of what it did not confirm, anything may have been applied. -/
inductive ServerRun (server : Server) (db : String) (ttlDays : Option ℕ) (start : Tables) :
    List Event → Tables → Prop
  | start : ServerRun server db ttlDays start [] start
  | ensured {log : List Event} {tables after : Tables} {table : String} {ok : Bool}
      (before : ServerRun server db ttlDays start log tables)
      (h : SentAll server (ensureStatements db table ttlDays) tables ok after) :
      ServerRun server db ttlDays start (log ++ [.ensured table ok]) after
  | columnSent {log : List Event} {tables after : Tables} {table target : String} {ok : Bool}
      (before : ServerRun server db ttlDays start log tables)
      (h : Sent server (columnStatement db table target) tables ok after) :
      ServerRun server db ttlDays start (log ++ [.columnSent table target ok]) after
  | inserted {log : List Event} {tables : Tables} {table : String} {rows : List OcsfRecord}
      {ok : Bool} (before : ServerRun server db ttlDays start log tables) :
      ServerRun server db ttlDays start (log ++ [.inserted table rows ok]) tables
  | quiet {log : List Event} {tables : Tables} {e : Event} (hquiet : e.isQuiet)
      (before : ServerRun server db ttlDays start log tables) :
      ServerRun server db ttlDays start (log ++ [e]) tables

/-- What the server has, given the events so far. -/
structure ServerInv (db : String) (start : Tables) (log : List Event) (tables : Tables) : Prop where
  extends_start : Extends start tables
  upgradable : Upgradable tables
  takes : ∀ table, .ensured table true ∈ log →
    ∃ schema, tables (tableKey db table) = some schema ∧ schema.Takes
  added : ∀ table target, .columnSent table target true ∈ log →
    ∃ schema, tables (tableKey db table) = some schema ∧ safeName target ∈ schema.map Prod.fst

namespace ServerInv

variable {server : Server} {db : String} {start tables after : Tables} {log : List Event}

/-- What the server has it keeps. -/
theorem mono (h : ServerInv db start log tables) (hext : Extends tables after)
    (hup : Upgradable after) : ServerInv db start log after where
  extends_start := h.extends_start.trans hext
  upgradable := hup
  takes table htable := by
    obtain ⟨schema, hschema, htakes⟩ := h.takes table htable
    obtain ⟨schema', hschema', hpre⟩ := hext _ _ hschema
    exact ⟨schema', hschema', htakes.mono hpre⟩
  added table target hadded := by
    obtain ⟨schema, hschema, hmem⟩ := h.added table target hadded
    obtain ⟨schema', hschema', hpre⟩ := hext _ _ hschema
    exact ⟨schema', hschema', (hpre.map Prod.fst).subset hmem⟩

theorem concat (h : ServerInv db start log tables) {e : Event}
    (htakes : ∀ table, e = .ensured table true →
      ∃ schema, tables (tableKey db table) = some schema ∧ schema.Takes)
    (hadded : ∀ table target, e = .columnSent table target true →
      ∃ schema, tables (tableKey db table) = some schema ∧ safeName target ∈ schema.map Prod.fst) :
    ServerInv db start (log ++ [e]) tables where
  extends_start := h.extends_start
  upgradable := h.upgradable
  takes table htable := by
    rcases List.mem_append.mp htable with hbefore | hnow
    · exact h.takes table hbefore
    · exact htakes table (List.mem_singleton.mp hnow).symm
  added table target hmem := by
    rcases List.mem_append.mp hmem with hbefore | hnow
    · exact h.added table target hbefore
    · exact hadded table target (List.mem_singleton.mp hnow).symm

/-- A custom column comes behind the columns of the record. -/
theorem addTarget (h : ServerInv db start log tables) {table target : String} {ok : Bool}
    (hknown : .ensured table true ∈ log)
    (hsent : Sent server (columnStatement db table target) tables ok after) :
    ServerInv db start log after := by
  refine h.mono hsent.extends ?_
  rcases hsent.effect_or_same with heffect | ⟨-, rfl⟩
  · obtain ⟨schema, hschema, htakes⟩ := h.takes table hknown
    obtain ⟨old, hold, rfl⟩ := Option.map_eq_some_iff.mp heffect
    obtain rfl := Option.some.inj (hschema.symm.trans hold)
    exact h.upgradable.update ((htakes.mono (schema.prefix_addColumn _)).lacksOnly _)
  · exact h.upgradable

end ServerInv

theorem serverInv_of_serverRun {server : Server} {db : String} {ttlDays : Option ℕ}
    {start tables : Tables} {log : List Event} (hstart : Upgradable start)
    (hguard : Guarded DdlGuard log) (h : ServerRun server db ttlDays start log tables) :
    ServerInv db start log tables := by
  induction h with
  | start => exact ⟨.refl start, hstart, by simp, by simp⟩
  | @ensured log tables after table ok before h ih =>
      obtain ⟨hguard, -⟩ := guarded_concat.mp hguard
      have hinv := ih hguard
      -- wherever the statements were broken off, the table can be upgraded later
      have hup := h.upgradable (ensures_ensureStatements db table ttlDays) hinv.upgradable
      refine (hinv.mono h.extends hup).concat (fun other heq => ?_) (by simp)
      obtain ⟨rfl, rfl⟩ := Event.ensured.inj heq
      exact h.takes hinv.upgradable
  | @columnSent log tables after table target ok before h ih =>
      obtain ⟨hguard, hknown⟩ := guarded_concat.mp hguard
      refine ((ih hguard).addTarget hknown h).concat (by simp) fun other target' heq => ?_
      obtain ⟨rfl, rfl, rfl⟩ := Event.columnSent.inj heq
      obtain ⟨schema, -, rfl⟩ := Option.map_eq_some_iff.mp h.effect_of_true
      exact ⟨_, Function.update_self .., schema.mem_addColumn _⟩
  | inserted before ih => exact (ih (guarded_concat.mp hguard).1).concat (by simp) (by simp)
  | quiet hquiet before ih =>
      refine (ih (guarded_concat.mp hguard).1).concat ?_ ?_
      · rintro table rfl
        simp [Event.isQuiet] at hquiet
      · rintro table target rfl
        simp [Event.isQuiet] at hquiet

/-- Confirmed one after the other. -/
theorem exists_sentAll {db : String} {ttlDays : Option ℕ} (tables : Tables) (table : String) :
    ∃ after, SentAll .willing (ensureStatements db table ttlDays) tables true after := by
  have hmigrations (columns : List (String × String)) (db table : String) (tables : Tables)
      (schema : Schema) (hschema : tables (db, table) = some schema) :
      ∃ after, SentAll .willing
        (columns.map fun column => Statement.migrate db table column.1 column.2) tables true after := by
    induction columns generalizing tables schema with
    | nil => exact ⟨tables, .done tables⟩
    | cons column rest ih =>
        have heffect : (Statement.migrate db table column.1 column.2).effect tables =
            some (Function.update tables (db, table) (some (schema.addBase column.1))) := by
          rw [Statement.effect, hschema, Option.map_some]
        obtain ⟨after, hafter⟩ := ih _ _ (Function.update_self ..)
        exact ⟨after, .next (.confirmed heffect) hafter⟩
  obtain ⟨after, hafter⟩ := hmigrations (migratedNames.zip migratedColumns)
    (tableKey db table).1 (tableKey db table).2 _ _ (Function.update_self ..)
  exact ⟨after, .next (.confirmed rfl) (.next (.confirmed rfl) hafter)⟩

/-- For every log that keeps the order of the DDL there is a run of the server. -/
theorem exists_serverRun {db : String} {ttlDays : Option ℕ} {start : Tables}
    (hstart : Upgradable start) {log : List Event} (hguard : Guarded DdlGuard log) :
    ∃ tables, ServerRun .willing db ttlDays start log tables := by
  induction log using List.reverseRecOn with
  | nil => exact ⟨start, .start⟩
  | append_singleton log e ih =>
      obtain ⟨hlog, he⟩ := guarded_concat.mp hguard
      obtain ⟨tables, hbefore⟩ := ih hlog
      cases e with
      | ensured table ok =>
          cases ok with
          | true =>
              obtain ⟨after, hafter⟩ := exists_sentAll tables table
              exact ⟨after, .ensured hbefore hafter⟩
          | false => exact ⟨tables, .ensured hbefore (.stop .refused)⟩
      | columnSent table target ok =>
          have hinv := serverInv_of_serverRun hstart hlog hbefore
          have hknown : Event.ensured table true ∈ log := he
          obtain ⟨schema, hschema, -⟩ := hinv.takes table hknown
          have heffect : (columnStatement db table target).effect tables = some (Function.update
              tables (tableKey db table) (some (schema.addColumn (safeName target)))) := by
            rw [columnStatement, Statement.effect, hschema, Option.map_some]
          cases ok with
          | true => exact ⟨_, .columnSent hbefore (.confirmed heffect)⟩
          | false => exact ⟨_, .columnSent hbefore .refused⟩
      | inserted table rows ok => exact ⟨tables, .inserted hbefore⟩
      | _ => exact ⟨tables, .quiet rfl hbefore⟩

/-- In every run, and whatever the server made of the statements: if its tables were of this
or an earlier release at the start, then an insert goes to a table that has every column of
the record, the columns added for mapping targets are there, and no table has lost a column. -/
theorem inserts_fit_schema {mappings : CustomMappings} {startOffset : ℕ} {s : LoopState}
    (run : Reachable (step ext cfg) (.initial mappings startOffset) s) {server : Server}
    {start : Tables} (hstart : Upgradable start) :
    (∀ before table rows ok after, s.log = before ++ .inserted table rows ok :: after →
      ∀ tables,
        ServerRun server cfg.clickhouseDb (cfg.dataTtlDays.map BitVec.toNat) start before tables →
        ∃ schema, tables (tableKey cfg.clickhouseDb table) = some schema ∧ schema.Takes) ∧
    ∀ tables,
      ServerRun server cfg.clickhouseDb (cfg.dataTtlDays.map BitVec.toNat) start s.log tables →
      (∀ column ∈ addedColumns s.log, ∃ schema,
        tables (tableKey cfg.clickhouseDb column.1) = some schema ∧
          safeName column.2 ∈ schema.map Prod.fst) ∧
      Extends start tables := by
  have hddl := ddlFirst_of_reachable run
  constructor
  · intro before table rows ok after hlog tables hserver
    have hbefore : Guarded DdlGuard before :=
      hddl.guarded.of_prefix ⟨_, hlog.symm⟩
    have hknown : .ensured table true ∈ before := hddl.guarded before _ after hlog
    exact (serverInv_of_serverRun hstart hbefore hserver).takes table hknown
  · intro tables hserver
    have hinv := serverInv_of_serverRun hstart hddl.guarded hserver
    exact ⟨fun column hcolumn => hinv.added _ _ (DbState.mem_addedColumns.mp hcolumn),
      hinv.extends_start⟩

theorem inserts_fit_schema_ticket : ∃ s tables schema,
    Reachable (step sampleExternals sampleConfig) (.initial ticketMappings 0) s ∧
      ServerRun .willing "wazuh" none (fun _ => none) s.log tables ∧
      tables ("wazuh", "ocsf_unknown_agent") = some schema ∧
      "ticket_id" ∈ schema.map Prod.fst := by
  have hend : (exec (step sampleExternals sampleConfig) (.initial ticketMappings 0)
      (sampleTick ++ [.flush default])).map (fun s => addedColumns s.log) =
      some [(sampleTable, "ticket_id")] := by
    decide +kernel
  obtain ⟨s, hexec, hend⟩ := Option.map_eq_some_iff.mp hend
  have run := reachable_of_exec hexec
  have hstart : Upgradable fun _ => none := fun _ _ hnone => nomatch hnone
  obtain ⟨tables, hserver⟩ := @exists_serverRun "wazuh" none _ hstart _
    (ddlFirst_of_reachable run).guarded
  obtain ⟨schema, hschema, hmem⟩ := ((inserts_fit_schema run hstart).2 tables hserver).1
    (sampleTable, "ticket_id") (by simp [hend])
  exact ⟨s, tables, schema, run, hserver, hschema, hmem⟩

end WazuhOcsf
