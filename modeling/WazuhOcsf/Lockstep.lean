import WazuhOcsf.CustomColumns

/-!
# What the order of a pass decides

The buffers, the known tables and the registered columns are hashed collections, and each
flush visits them in an order of its own.  Nothing but the custom columns depends on it: two
runs that take the same steps and get the same answers to `ensure_table` and `insert_batch`
agree, whatever the orders and whatever became of each `ADD COLUMN`, on the state of the loop
and, table by table, on everything that happened to the table and on when it happened among
the receptions and the saves.

The relation is `InStep`, and `inStep_step` is the simulation.
-/

namespace WazuhOcsf

open Transition

variable {ext : Externals} {cfg : AppConfig}

/-- What a table can notice: the creation, the rows, and what is about no table. -/
def Event.concerns (table : String) : Event → Bool
  | ensured t _ | taken t _ | inserted t _ _ => t = table
  | columnSent _ _ _ => false
  | sent _ | received _ | saved _ _ => true

namespace DbState

variable {env : FlushEnv} {customCols : List String} {db : DbState}

/-- The log as a table sees it. -/
def history (db : DbState) (table : String) : List Event := db.log.filter (·.concerns table)

theorem history_record (new : List Event) (table : String) :
    (db.record new).history table = db.history table ++ new.filter (·.concerns table) :=
  List.filter_append ..

/-- A projection that reads only what concerns the table. -/
theorem filterMap_history {β : Type*} {f : Event → Option β} {table : String}
    (hf : ∀ e : Event, e.concerns table = false → f e = none) (db : DbState) :
    (db.history table).filterMap f = db.log.filterMap f := by
  rw [history, List.filterMap_filter]
  refine List.filterMap_congr fun e _ => ?_
  cases hconcerns : e.concerns table with
  | true => rfl
  | false => exact (hf e hconcerns).symm

theorem filter_ensureColumns (table t : String) (columns : List String) :
    (ensureColumns env t columns).filter (·.concerns table) = [] := by
  refine List.filter_eq_nil_iff.mpr fun e he => ?_
  obtain ⟨target, ok, rfl⟩ := mem_ensureColumns he
  exact Bool.false_ne_true

theorem history_registerColumns (mappings : CustomMappings) (table : String) :
    (registerColumns env mappings db).history table = db.history table := by
  have hnone : ((env.tableOrder.arrange db.knownTables).flatMap fun t =>
      ensureColumns env t (db.newColumns env mappings)).filter (·.concerns table) = [] := by
    rw [List.filter_flatMap]
    simp [filter_ensureColumns]
  show (db.log ++ _).filter _ = _
  rw [List.filter_append, hnone, List.append_nil]
  rfl

/-- The process has created the table. -/
def knows (db : DbState) (table : String) : Bool := table ∈ db.knownTables

theorem knows_congr {db' : DbState} {table : String}
    (h : table ∈ db.knownTables ↔ table ∈ db'.knownTables) : db.knows table = db'.knows table :=
  decide_eq_decide.mpr h

theorem knows_record (new : List Event) (table : String) :
    (db.record new).knows table = db.knows table := rfl

/-- What a table sees of its round. -/
def visit (env : FlushEnv) (known : Bool) (work : String × List OcsfRecord) : List Event :=
  if known then insertEvents env work
  else if env.ensureOk work.1 then .ensured work.1 true :: insertEvents env work
  else [.ensured work.1 false]

theorem filter_insertEvents (work : String × List OcsfRecord) (table : String) :
    (insertEvents env work).filter (·.concerns table) =
      if work.1 = table then insertEvents env work else [] := by
  unfold insertEvents
  by_cases htable : work.1 = table <;> split_ifs <;> simp [Event.concerns, htable]

theorem filter_roundEvents (work : String × List OcsfRecord) (table : String) :
    (roundEvents env customCols db work).filter (·.concerns table) =
      if work.1 = table then visit env (db.knows work.1) work else [] := by
  have hensured (ok : Bool) : (Event.ensured work.1 ok).concerns table = decide (work.1 = table) :=
    rfl
  unfold roundEvents visit knows
  by_cases htable : work.1 = table
  · rw [if_pos htable]
    split_ifs <;> simp_all [filter_ensureColumns, filter_insertEvents]
  · rw [if_neg htable]
    split_ifs <;> simp_all [filter_ensureColumns, filter_insertEvents]

/-- A table is visited once, and nothing else it sees happens in the loop. -/
theorem history_foldl_flushTable {works : List (String × List OcsfRecord)}
    (hnodup : (works.map Prod.fst).Nodup) (table : String) :
    (works.foldl (flushTable env customCols) db).history table =
      db.history table ++
        (works.filter (·.1 = table)).flatMap (visit env (db.knows table)) := by
  induction works generalizing db with
  | nil => simp
  | cons work rest ih =>
      rw [List.map_cons, List.nodup_cons] at hnodup
      have hround : (flushTable env customCols db work).history table = db.history table ++
          if work.1 = table then visit env (db.knows work.1) work else [] := by
        rw [history, log_flushTable, List.filter_append, filter_roundEvents]
        rfl
      rw [List.foldl_cons, ih hnodup.2, hround, List.filter_cons]
      by_cases htable : work.1 = table
      · -- its only round, since the keys of the buffers are distinct
        have hrest : rest.filter (·.1 = table) = [] := List.filter_eq_nil_iff.mpr fun w hw heq =>
          hnodup.1 (List.mem_map.mpr ⟨w, hw, (of_decide_eq_true heq).trans htable.symm⟩)
        subst htable
        simp [hrest]
      · have hknown : table ∈ (flushTable env customCols db work).knownTables ↔
            table ∈ db.knownTables := by
          rw [mem_knownTables_flushTable, or_iff_left fun h => htable h.1.symm]
        rw [knows_congr hknown]
        simp [htable]

theorem mem_knownTables_foldl_flushTable (works : List (String × List OcsfRecord))
    (table : String) :
    table ∈ (works.foldl (flushTable env customCols) db).knownTables ↔
      table ∈ db.knownTables ∨ table ∈ works.map Prod.fst ∧ env.ensureOk table := by
  induction works generalizing db with
  | nil => simp
  | cons work rest ih =>
      rw [List.foldl_cons, ih, mem_knownTables_flushTable, List.map_cons, List.mem_cons]
      by_cases htable : table = work.1
      · subst htable
        tauto
      · simp [htable]

theorem nodup_work (batches : BatchMap) : ((work env batches).map Prod.fst).Nodup := by
  have hperm := (env.batchOrder.perm (batches.entries.filter (·.2 ≠ []))).map Prod.fst
  exact hperm.nodup_iff.mpr (batches.nodup.sublist (List.filter_sublist.map _))

variable (env) in
/-- A table with rows is visited with all its rows. -/
theorem filter_work (batches : BatchMap) (table : String) :
    (work env batches).filter (·.1 = table) =
      if batches.rows table = [] then [] else [(table, batches.rows table)] := by
  have hvectors : vectorsOf table (work env batches) =
      if batches.rows table = [] then [] else [batches.rows table] := vectorsOf_work batches table
  have hnamed : ((work env batches).filter (·.1 = table)).map (Prod.mk table ∘ Prod.snd) =
      (work env batches).filter (·.1 = table) := by
    conv_rhs => rw [← List.map_id ((work env batches).filter (·.1 = table))]
    refine List.map_congr_left fun w hw => ?_
    exact Prod.ext (of_decide_eq_true (List.mem_filter.mp hw).2).symm rfl
  rw [← hnamed, ← List.map_map, ← vectorsOf, hvectors]
  split_ifs <;> rfl

theorem history_flushAll (batches : BatchMap) (table : String) :
    (flushAll env customCols batches db).2.history table = db.history table ++
      if batches.rows table = [] then []
      else .taken table (batches.rows table) ::
        visit env (db.knows table) (table, batches.rows table) := by
  have htaken : ((work env batches).map fun w => Event.taken w.1 w.2).filter (·.concerns table) =
      ((work env batches).filter (·.1 = table)).map fun w => Event.taken w.1 w.2 := by
    rw [List.filter_map]
    rfl
  rw [flushAll, history_foldl_flushTable (nodup_work batches), history_record, htaken, filter_work,
    knows_record]
  split_ifs <;> simp

theorem mem_knownTables_flushAll (batches : BatchMap) (table : String) :
    table ∈ (flushAll env customCols batches db).2.knownTables ↔
      table ∈ db.knownTables ∨ batches.rows table ≠ [] ∧ env.ensureOk table := by
  have hmem : table ∈ (work env batches).map Prod.fst ↔ batches.rows table ≠ [] := by
    constructor
    · intro h
      obtain ⟨w, hw, rfl⟩ := List.mem_map.mp h
      obtain ⟨hrows, hne⟩ := rows_of_mem_work hw
      exact hrows ▸ hne
    · intro hrows
      have hfilter := filter_work env batches table
      rw [if_neg hrows] at hfilter
      have hvisited : (table, batches.rows table) ∈ (work env batches).filter (·.1 = table) :=
        hfilter ▸ List.mem_singleton_self _
      exact List.mem_map.mpr ⟨_, (List.mem_filter.mp hvisited).1, rfl⟩
  rw [flushAll, mem_knownTables_foldl_flushTable, hmem]
  rfl

/-- The same tables are known, and each has the same history. -/
structure InStep (db db' : DbState) : Prop where
  known : ∀ table, table ∈ db.knownTables ↔ table ∈ db'.knownTables
  history : ∀ table, db.history table = db'.history table

namespace InStep

variable {env' : FlushEnv} {customCols' : List String} {db' : DbState}

theorem record (h : InStep db db') (new : List Event) :
    InStep (db.record new) (db'.record new) where
  known := h.known
  history table := by
    rw [history_record, history_record, h.history table]

theorem registerColumns (h : InStep db db') (mappings : CustomMappings) :
    InStep (registerColumns env mappings db) (DbState.registerColumns env' mappings db') where
  known := h.known
  history table := by
    rw [history_registerColumns, history_registerColumns, h.history table]

theorem flushAll (h : InStep db db') (hensure : env.ensureOk = env'.ensureOk)
    (hinsert : env.insertOk = env'.insertOk) (batches : BatchMap) :
    InStep (flushAll env customCols batches db).2
      (DbState.flushAll env' customCols' batches db').2 where
  known table := by
    rw [mem_knownTables_flushAll, mem_knownTables_flushAll, h.known table, hensure]
  history table := by
    rw [history_flushAll, history_flushAll, h.history table, knows_congr (h.known table)]
    simp only [visit, insertEvents, hensure, hinsert]

end InStep

end DbState

/-! ## The simulation -/

/-- The same step, up to the orders and the answers a flush gets for its columns. -/
inductive Alike : Action → Action → Prop
  | same (a : Action) : Alike a a
  | flush {env env' : FlushEnv} (hensure : env.ensureOk = env'.ensureOk)
      (hinsert : env.insertOk = env'.insertOk) : Alike (.flush env) (.flush env')

/-- The same state, up to the database. -/
structure InStep (s t : LoopState) : Prop where
  loop : { s with db := t.db } = t
  db : s.db.InStep t.db

namespace InStep

variable {s t : LoopState}

theorem filterMap (h : InStep s t) {β : Type*} {f : Event → Option β} (table : String)
    (hf : ∀ e : Event, e.concerns table = false → f e = none) :
    s.log.filterMap f = t.log.filterMap f := by
  rw [LoopState.log, LoopState.log, ← DbState.filterMap_history hf, h.db.history table,
    DbState.filterMap_history hf]

theorem accepted_eq (h : InStep s t) (table : String) :
    accepted table s.log = accepted table t.log := by
  refine congrArg List.flatten (h.filterMap table fun e he => ?_)
  cases e with
  | inserted other rows ok =>
      have hne : other ≠ table := of_decide_eq_false he
      cases ok with
      | true => exact if_neg hne
      | false => rfl
  | _ => rfl

theorem savedStates_eq (h : InStep s t) : savedStates s.log = savedStates t.log := by
  refine h.filterMap "" fun e he => ?_
  cases e with
  | saved state ok => exact absurd he (by simp [Event.concerns])
  | _ => rfl

theorem bufferRow {db : DbState} (h : s.db.InStep db) (row : Option (String × OcsfRecord)) :
    InStep (bufferRow cfg s row) (bufferRow cfg { s with db := db } row) := by
  cases row with
  | none => exact ⟨rfl, h⟩
  | some routedTo => exact ⟨rfl, h⟩

end InStep

theorem inStep_flush {s : LoopState} {db : DbState} (h : s.db.InStep db) {env env' : FlushEnv}
    (hensure : env.ensureOk = env'.ensureOk) (hinsert : env.insertOk = env'.insertOk) :
    Option.Rel InStep (step ext cfg s (.flush env))
      (step ext cfg { s with db := db } (.flush env')) := by
  cases hpc : s.pc with
  | flushing final =>
      simp only [step, hpc]
      refine .some ⟨?_, (h.registerColumns s.mappings).flushAll hensure hinsert s.batches⟩
      simp [DbState.flushAll]
  | _ => simp only [step, hpc]; exact .none

/-- Like steps lead from agreeing states to agreeing states. -/
theorem inStep_step {s t : LoopState} {a b : Action} (h : InStep s t) (halike : Alike a b) :
    Option.Rel InStep (step ext cfg s a) (step ext cfg t b) := by
  obtain ⟨hloop, hdb⟩ := h
  -- the second state is the first one with another database
  obtain ⟨db, rfl⟩ : ∃ db, t = { s with db := db } := ⟨t.db, hloop.symm⟩
  cases halike with
  | flush hensure hinsert => exact inStep_flush hdb hensure hinsert
  | same a =>
      cases a with
      | send m =>
          simp only [step]
          split_ifs
          · exact .some ⟨rfl, hdb.record _⟩
          · exact .none
      | readerDone => exact .some ⟨rfl, hdb⟩
      | reload mappings => exact .some ⟨rfl, hdb⟩
      | recv env =>
          by_cases hpc : s.pc = .selecting
          · cases hchannel : s.channel with
            | cons m rest =>
                simp only [step, hpc, hchannel, if_true]
                exact .some (.bufferRow (hdb.record _) _)
            | nil =>
                simp only [step, hpc, hchannel, if_true]
                split_ifs
                · exact .some ⟨rfl, hdb⟩
                · exact .none
          · simp only [step, hpc, if_false]
            exact .none
      | tick =>
          have hpending : LoopState.pending { s with db := db } = s.pending := rfl
          simp only [step, hpending]
          split_ifs
          · exact .some ⟨rfl, hdb⟩
          · exact .some ⟨rfl, hdb⟩
          · exact .none
      | shutdown =>
          simp only [step]
          split_ifs
          · exact .some ⟨rfl, hdb⟩
          · exact .none
      | flush env => exact inStep_flush hdb rfl rfl
      | save inode ok =>
          cases hpc : s.pc with
          | saving final =>
              simp only [step, hpc]
              exact .some ⟨rfl, hdb.record _⟩
          | _ => simp only [step, hpc]; exact .none

/-- Two runs that take the same steps, up to the orders in which a flush visits what it
visits and the answers to its `ADD COLUMN`s, are both possible or both not, and end with the
same rows accepted and buffered for every table, in the same order, at the same position,
with the same states saved. -/
theorem flush_order_irrelevant {mappings : CustomMappings} {startOffset : ℕ}
    {actions actions' : List Action} (halike : List.Forall₂ Alike actions actions') :
    Option.Rel (fun s t => InStep s t ∧ (∀ table, accepted table s.log = accepted table t.log) ∧
        savedStates s.log = savedStates t.log)
      (exec (step ext cfg) (.initial mappings startOffset) actions)
      (exec (step ext cfg) (.initial mappings startOffset) actions') := by
  have hstart : InStep (.initial mappings startOffset) (.initial mappings startOffset) :=
    ⟨rfl, fun _ => .rfl, fun _ => rfl⟩
  have hstep (s t : LoopState) (a b : Action) (h : InStep s t) (hab : Alike a b) :
      Option.Rel InStep (step ext cfg s a) (step ext cfg t b) := inStep_step h hab
  have hrel := rel_exec hstep hstart halike
  generalize exec (step ext cfg) (.initial mappings startOffset) actions = first at hrel ⊢
  generalize exec (step ext cfg) (.initial mappings startOffset) actions' = second at hrel ⊢
  cases hrel with
  | some h => exact .some ⟨h, h.accepted_eq, h.savedStates_eq⟩
  | none => exact .none

/-- The last table first, and no column accepted. -/
def contraryFlush : FlushEnv :=
  { (default : FlushEnv) with
    batchOrder := ⟨List.reverse, List.reverse_perm⟩
    addColumnOk := fun _ _ => false }

theorem flush_order_irrelevant_ticket : ∃ s t,
    exec (step sampleExternals sampleConfig) (.initial ticketMappings 0)
        (sampleTick ++ [.flush default]) = some s ∧
      exec (step sampleExternals sampleConfig) (.initial ticketMappings 0)
        (sampleTick ++ [.flush contraryFlush]) = some t ∧
      addedColumns s.log ≠ addedColumns t.log ∧
      accepted sampleTable s.log = accepted sampleTable t.log := by
  have hstart : (exec (step sampleExternals sampleConfig) (.initial ticketMappings 0)
      (sampleTick ++ [.flush default])).map (fun s => addedColumns s.log) =
      some [(sampleTable, "ticket_id")] := by
    decide +kernel
  have hcontrary : (exec (step sampleExternals sampleConfig) (.initial ticketMappings 0)
      (sampleTick ++ [.flush contraryFlush])).map (fun s => addedColumns s.log) = some [] := by
    decide +kernel
  obtain ⟨s, hs, hadded⟩ := Option.map_eq_some_iff.mp hstart
  obtain ⟨t, ht, hnone⟩ := Option.map_eq_some_iff.mp hcontrary
  have halike : List.Forall₂ Alike (sampleTick ++ [.flush default])
      (sampleTick ++ [.flush contraryFlush]) :=
    .cons (.same _) (.cons (.same _) (.cons (.same _) (.cons (.flush rfl rfl) .nil)))
  have hrel : Option.Rel (fun s t => InStep s t ∧
      (∀ table, accepted table s.log = accepted table t.log) ∧
        savedStates s.log = savedStates t.log)
      (some s) (some t) := hs ▸ ht ▸ flush_order_irrelevant halike
  cases hrel with
  | some h => exact ⟨s, t, hs, ht, by simp [hadded, hnone], h.2.1 sampleTable⟩

end WazuhOcsf
