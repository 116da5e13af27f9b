import WazuhOcsf.Library.Traces
import WazuhOcsf.Output.Flush

/-!
# What a flush does

A flush only appends to the log.  `roundEvents` is what one round of the loop in
`flush_all` appends; what a whole flush does to a table follows by induction over
the tables with rows, each of which is visited once:

* `rows_flushAll`: no row stays buffered;
* `takenVectors_flushAll`: the rows of every table with rows are taken, together;
* `insertCalls_flushAll`: the vectors inserted are among the vectors taken;
* `accepted_flushAll`: if the database accepts everything, they are the same.
-/

namespace WazuhOcsf

open Trace

namespace DbState

variable {env : FlushEnv} {customCols : List String} {db : DbState}

/-! ## Events of a round -/

/-- The events of an `insert_batch` call. -/
def insertEvents (env : FlushEnv) (work : String × List OcsfRecord) : List Event :=
  if work.2 = [] then [] else [.inserted work.1 work.2 (env.insertOk work.1)]

/-- The events of one round of `flush_all`. -/
def roundEvents (env : FlushEnv) (customCols : List String) (db : DbState)
    (work : String × List OcsfRecord) : List Event :=
  if work.1 ∈ db.knownTables then insertEvents env work
  else if env.ensureOk work.1 then
    .ensured work.1 true :: (ensureColumns env work.1 customCols ++ insertEvents env work)
  else [.ensured work.1 false]

theorem log_flushTable (work : String × List OcsfRecord) :
    (flushTable env customCols db work).log = db.log ++ roundEvents env customCols db work := by
  unfold flushTable roundEvents insertBatch insertEvents record
  split_ifs <;> simp

theorem mem_knownTables_flushTable (work : String × List OcsfRecord) (table : String) :
    table ∈ (flushTable env customCols db work).knownTables ↔
      table ∈ db.knownTables ∨ (table = work.1 ∧ env.ensureOk work.1) := by
  unfold flushTable insertBatch record
  split_ifs with hknown hok <;> simp_all [or_comm]

@[simp] theorem knownCustomCols_flushTable (work : String × List OcsfRecord) :
    (flushTable env customCols db work).knownCustomCols = db.knownCustomCols := by
  unfold flushTable insertBatch record
  split_ifs <;> rfl

/-! ## Growth of the log -/

theorem log_prefix_registerColumns (mappings : CustomMappings) :
    db.log <+: (registerColumns env mappings db).log :=
  List.prefix_append _ _

theorem log_prefix_foldl_flushTable (works : List (String × List OcsfRecord)) :
    db.log <+: (works.foldl (flushTable env customCols) db).log := by
  induction works generalizing db with
  | nil => exact List.prefix_rfl
  | cons work rest ih =>
      have hround : db.log <+: (flushTable env customCols db work).log := by
        rw [log_flushTable]
        exact List.prefix_append _ _
      exact hround.trans ih

theorem log_prefix_flushAll (batches : BatchMap) :
    db.log <+: (flushAll env customCols batches db).2.log := by
  have hstart : db.log <+: (db.record ((work env batches).map fun w => .taken w.1 w.2)).log :=
    List.prefix_append _ _
  exact hstart.trans (log_prefix_foldl_flushTable _)

/-! ## Projections -/

section

variable {β : Type*} {f : Event → Option β}

/-- The events of a call are about its table and its columns. -/
theorem mem_ensureColumns {table : String} {columns : List String} {e : Event}
    (h : e ∈ ensureColumns env table columns) :
    ∃ target ok, e = .columnSent table target ok := by
  unfold ensureColumns at h
  split at h
  · obtain ⟨column, -, rfl⟩ := List.mem_map.mp h
    exact ⟨_, _, rfl⟩
  · exact absurd h List.not_mem_nil

theorem filterMap_ensureColumns
    (hcolumns : ∀ table target ok, f (.columnSent table target ok) = none)
    (table : String) (columns : List String) :
    (ensureColumns env table columns).filterMap f = [] := by
  refine List.filterMap_eq_nil_iff.mpr fun e he => ?_
  obtain ⟨target, ok, rfl⟩ := mem_ensureColumns he
  exact hcolumns table target ok

/-- A projection that sees no DDL sees the insert of a round, if there is one. -/
theorem filterMap_roundEvents
    (hcolumns : ∀ table target ok, f (.columnSent table target ok) = none)
    (hensured : ∀ table ok, f (.ensured table ok) = none) (work : String × List OcsfRecord) :
    (roundEvents env customCols db work).filterMap f =
      if work.1 ∈ db.knownTables ∨ env.ensureOk work.1 then (insertEvents env work).filterMap f
      else [] := by
  unfold roundEvents
  split_ifs <;> simp_all [filterMap_ensureColumns]

theorem filterMap_registerColumns
    (hcolumns : ∀ table target ok, f (.columnSent table target ok) = none) (mappings : CustomMappings) :
    (registerColumns env mappings db).log.filterMap f = db.log.filterMap f := by
  unfold registerColumns
  rw [List.filterMap_append, List.filterMap_flatMap]
  simp [filterMap_ensureColumns hcolumns]

/-- A projection that sees neither DDL nor inserts. -/
structure Quiet (f : Event → Option β) : Prop where
  columnSent : ∀ table target ok, f (.columnSent table target ok) = none
  ensured : ∀ table ok, f (.ensured table ok) = none
  inserted : ∀ table rows ok, f (.inserted table rows ok) = none

theorem Quiet.flushTable (h : Quiet f) (work : String × List OcsfRecord) :
    (flushTable env customCols db work).log.filterMap f = db.log.filterMap f := by
  have hinsert : (insertEvents env work).filterMap f = [] := by
    unfold insertEvents
    split_ifs <;> simp [h.inserted]
  simp [log_flushTable, filterMap_roundEvents h.columnSent h.ensured, hinsert]

theorem Quiet.foldl_flushTable (h : Quiet f) (works : List (String × List OcsfRecord)) :
    (works.foldl (DbState.flushTable env customCols) db).log.filterMap f = db.log.filterMap f := by
  induction works generalizing db with
  | nil => rfl
  | cons work rest ih => rw [List.foldl_cons, ih, h.flushTable]

theorem Quiet.registerColumns (h : Quiet f) (mappings : CustomMappings) :
    (registerColumns env mappings db).log.filterMap f = db.log.filterMap f :=
  filterMap_registerColumns h.columnSent mappings

end

theorem quiet_routedRow (table : String) : Quiet (Event.routedRow table) :=
  ⟨fun _ _ _ => rfl, fun _ _ => rfl, fun _ _ _ => rfl⟩

theorem quiet_takenRows (table : String) : Quiet (Event.takenRows table) :=
  ⟨fun _ _ _ => rfl, fun _ _ => rfl, fun _ _ _ => rfl⟩

theorem quiet_sentMessage : Quiet Event.sentMessage :=
  ⟨fun _ _ _ => rfl, fun _ _ => rfl, fun _ _ _ => rfl⟩

theorem quiet_receivedMessage : Quiet Event.receivedMessage :=
  ⟨fun _ _ _ => rfl, fun _ _ => rfl, fun _ _ _ => rfl⟩

theorem quiet_reception : Quiet Event.reception :=
  ⟨fun _ _ _ => rfl, fun _ _ => rfl, fun _ _ _ => rfl⟩

theorem quiet_savedState : Quiet Event.savedState :=
  ⟨fun _ _ _ => rfl, fun _ _ => rfl, fun _ _ _ => rfl⟩

theorem quiet_persistedState : Quiet Event.persistedState :=
  ⟨fun _ _ _ => rfl, fun _ _ => rfl, fun _ _ _ => rfl⟩

/-! ## The tables of a flush -/

/-- The vectors of `works` that belong to a table. -/
def vectorsOf (table : String) (works : List (String × List OcsfRecord)) :
    List (List OcsfRecord) :=
  (works.filter (·.1 = table)).map Prod.snd

/-- Each table with rows is visited once, with all its rows. -/
theorem vectorsOf_work (batches : BatchMap) (table : String) :
    vectorsOf table (work env batches) =
      if batches.rows table = [] then [] else [batches.rows table] := by
  have hperm : ((work env batches).filter (·.1 = table)).Perm
      ((batches.entries.filter (·.1 = table)).filter (·.2 ≠ [])) := by
    rw [List.filter_comm]
    exact (env.batchOrder.perm _).filter _
  rw [HashMap.filter_key] at hperm
  unfold vectorsOf BatchMap.rows
  cases hget : batches.get table with
  | none =>
      rw [hget] at hperm
      rw [List.perm_nil.mp hperm]
      rfl
  | some rows =>
      rw [hget] at hperm
      by_cases hrows : rows = []
      · have hnil : (work env batches).filter (·.1 = table) = [] := by simpa [hrows] using hperm
        rw [hnil]
        simp [hrows]
      · have hone : (work env batches).filter (·.1 = table) = [(table, rows)] := by
          simpa [hrows] using hperm
        rw [hone]
        simp [hrows]

/-- The vectors a flush inserts for a table are among the ones it was given. -/
theorem insertCalls_foldl_flushTable (works : List (String × List OcsfRecord)) (table : String) :
    ∃ calls, insertCalls table (works.foldl (flushTable env customCols) db).log =
      insertCalls table db.log ++ calls ∧ calls.Sublist (vectorsOf table works) := by
  induction works generalizing db with
  | nil => exact ⟨[], by simp, by simp [vectorsOf]⟩
  | cons work rest ih =>
      obtain ⟨calls, hcalls, hsub⟩ := @ih (flushTable env customCols db work)
      have hround : (roundEvents env customCols db work).filterMap (Event.insertedRows table)
          |>.Sublist (vectorsOf table [work]) := by
        rw [filterMap_roundEvents (fun _ _ _ => rfl) (fun _ _ => rfl)]
        unfold insertEvents vectorsOf
        split_ifs <;> by_cases h : work.1 = table <;> simp [Event.insertedRows, h]
      refine ⟨(roundEvents env customCols db work).filterMap (Event.insertedRows table) ++ calls,
        ?_, ?_⟩
      · rw [List.foldl_cons, hcalls, insertCalls, log_flushTable, List.filterMap_append,
          List.append_assoc]
        rfl
      · have hsplit : vectorsOf table (work :: rest) =
            vectorsOf table [work] ++ vectorsOf table rest := by
          simp [vectorsOf, ← List.map_append, ← List.filter_append]
        rw [hsplit]
        exact hround.append hsub

/-- Every `insert_batch` and `ensure_table` call this flush makes succeeds. -/
def AllAccepted (env : FlushEnv) (db : DbState) (batches : BatchMap) : Prop :=
  ∀ table, batches.rows table ≠ [] →
    (table ∈ db.knownTables ∨ env.ensureOk table) ∧ env.insertOk table

theorem rows_of_mem_work {batches : BatchMap} {work : String × List OcsfRecord}
    (h : work ∈ DbState.work env batches) : batches.rows work.1 = work.2 ∧ work.2 ≠ [] := by
  obtain ⟨hentry, hrows⟩ := List.mem_filter.mp ((IterOrder.mem_arrange _).mp h)
  rw [BatchMap.rows, (HashMap.get_eq_some_iff batches).mpr hentry]
  exact ⟨rfl, by simpa using hrows⟩

/-- Where the database accepts everything, all vectors are inserted. -/
theorem accepted_foldl_flushTable {works : List (String × List OcsfRecord)}
    (hok : ∀ work ∈ works, work.2 ≠ [] ∧ (work.1 ∈ db.knownTables ∨ env.ensureOk work.1) ∧
      env.insertOk work.1) (table : String) :
    accepted table (works.foldl (flushTable env customCols) db).log =
      accepted table db.log ++ (vectorsOf table works).flatten := by
  induction works generalizing db with
  | nil => simp [vectorsOf]
  | cons work rest ih =>
      rw [List.forall_mem_cons] at hok
      obtain ⟨⟨hrows, hready, hinsert⟩, hrest⟩ := hok
      have hround : accepted table (flushTable env customCols db work).log =
          accepted table db.log ++ (vectorsOf table [work]).flatten := by
        rw [accepted, log_flushTable, List.filterMap_append, List.flatten_append,
          filterMap_roundEvents (fun _ _ _ => rfl) (fun _ _ => rfl), if_pos hready]
        obtain rfl | h := eq_or_ne work.1 table
        · simp [accepted, insertEvents, vectorsOf, hrows, hinsert, Event.acceptedRows]
        · simp [accepted, insertEvents, vectorsOf, hrows, hinsert, Event.acceptedRows, h]
      rw [List.foldl_cons, ih, hround, List.append_assoc, ← List.flatten_append]
      · simp [vectorsOf, ← List.map_append, ← List.filter_append]
      · intro work' hwork'
        obtain ⟨hrows', hready', hinsert'⟩ := hrest work' hwork'
        refine ⟨hrows', hready'.imp_left fun h => ?_, hinsert'⟩
        exact (mem_knownTables_flushTable work _).mpr (.inl h)

/-! ## A whole flush -/

variable (env customCols db) (batches : BatchMap)

theorem entries_flushAll : (flushAll env customCols batches db).1.entries = [] := by
  simp [flushAll, HashMap.retain, HashMap.mapValues]

theorem rows_flushAll (table : String) :
    (flushAll env customCols batches db).1.rows table = [] := by
  rw [BatchMap.rows, HashMap.get, entries_flushAll]
  rfl

theorem Quiet.flushAll {β : Type*} {f : Event → Option β} (h : Quiet f)
    (htaken : ∀ table rows, f (.taken table rows) = none) :
    (flushAll env customCols batches db).2.log.filterMap f = db.log.filterMap f := by
  rw [DbState.flushAll, h.foldl_flushTable, record, List.filterMap_append]
  simp [List.filterMap_map, htaken]

theorem takenVectors_flushAll (table : String) :
    takenVectors table (flushAll env customCols batches db).2.log =
      takenVectors table db.log ++
        if batches.rows table = [] then [] else [batches.rows table] := by
  have hwork : (((work env batches).map fun w => Event.taken w.1 w.2).filterMap
      (Event.takenRows table)) = vectorsOf table (work env batches) := by
    induction work env batches with
    | nil => rfl
    | cons w rest ih =>
        by_cases h : w.1 = table <;> simp_all [vectorsOf, Event.takenRows]
  rw [takenVectors, flushAll, (quiet_takenRows table).foldl_flushTable, record,
    List.filterMap_append, hwork, vectorsOf_work]
  rfl

theorem insertCalls_flushAll {table : String}
    (h : (insertCalls table db.log).Sublist (takenVectors table db.log)) :
    (insertCalls table (flushAll env customCols batches db).2.log).Sublist
      (takenVectors table (flushAll env customCols batches db).2.log) := by
  set start := db.record ((work env batches).map fun w => Event.taken w.1 w.2) with hstart
  obtain ⟨calls, hcalls, hsub⟩ :=
    @insertCalls_foldl_flushTable env customCols start (work env batches) table
  have htaken : insertCalls table start.log = insertCalls table db.log := by
    rw [hstart, insertCalls, record, List.filterMap_append]
    simp [insertCalls, List.filterMap_map, Event.insertedRows]
  rw [vectorsOf_work] at hsub
  rw [takenVectors_flushAll, flushAll, hcalls, htaken]
  exact h.append hsub

theorem accepted_flushAll (hok : AllAccepted env db batches) (table : String) :
    accepted table (flushAll env customCols batches db).2.log =
      accepted table db.log ++ batches.rows table := by
  set start := db.record ((work env batches).map fun w => Event.taken w.1 w.2) with hstart
  have htaken : accepted table start.log = accepted table db.log := by
    rw [hstart, accepted, record, List.filterMap_append]
    simp [accepted, List.filterMap_map, Event.acceptedRows]
  have hworks : ∀ w ∈ work env batches, w.2 ≠ [] ∧
      (w.1 ∈ start.knownTables ∨ env.ensureOk w.1) ∧ env.insertOk w.1 := by
    intro w hw
    obtain ⟨hrows, hne⟩ := rows_of_mem_work hw
    exact ⟨hne, hok w.1 (hrows ▸ hne)⟩
  rw [flushAll, accepted_foldl_flushTable hworks, htaken, vectorsOf_work]
  split
  · next hempty => simp [hempty]
  · simp

/-! ## Inserts follow the creation of their table -/

/-- An insert comes after a successful `ensure_table` for its table. -/
def InsertGuard (before : List Event) : Event → Prop
  | .inserted table _ _ => .ensured table true ∈ before
  | _ => True

/-- The known tables are the ensured ones, and inserts go to those alone. -/
structure EnsuredFirst (db : DbState) : Prop where
  known : ∀ table ∈ db.knownTables, .ensured table true ∈ db.log
  inserts : Guarded InsertGuard db.log

variable {env customCols db}

theorem EnsuredFirst.record (h : EnsuredFirst db) {new : List Event}
    (hnew : ∀ e ∈ new, ∀ before, InsertGuard before e) : EnsuredFirst (db.record new) where
  known table htable := List.mem_append_left _ (h.known table htable)
  inserts := h.inserts.append hnew

theorem EnsuredFirst.insertBatch (h : EnsuredFirst db) {table : String} (rows : List OcsfRecord)
    (htable : table ∈ db.knownTables) : EnsuredFirst (db.insertBatch env table rows) := by
  unfold DbState.insertBatch
  split
  · exact h
  · exact ⟨fun t ht => List.mem_append_left _ (h.known t ht),
      guarded_concat.mpr ⟨h.inserts, h.known table htable⟩⟩

theorem insertGuard_ensureColumns (table : String) (columns : List String) :
    ∀ e ∈ ensureColumns env table columns, ∀ before, InsertGuard before e := by
  intro e he before
  obtain ⟨target, ok, rfl⟩ := mem_ensureColumns he
  trivial

theorem EnsuredFirst.flushTable (h : EnsuredFirst db) (work : String × List OcsfRecord) :
    EnsuredFirst (flushTable env customCols db work) := by
  unfold DbState.flushTable
  split_ifs with hknown hok
  · exact h.insertBatch _ hknown
  · have hnew : EnsuredFirst { db.record (.ensured work.1 true ::
        ensureColumns env work.1 customCols) with
        knownTables := db.knownTables.insert work.1 } := by
      constructor
      · intro table htable
        obtain rfl | htable := List.mem_insert_iff.mp htable
        · exact List.mem_append_right _ List.mem_cons_self
        · exact List.mem_append_left _ (h.known table htable)
      · exact h.inserts.append (List.forall_mem_cons.mpr
          ⟨fun _ => trivial, insertGuard_ensureColumns _ _⟩)
    exact hnew.insertBatch _ (List.mem_insert_self)
  · exact h.record (by simp [InsertGuard])

theorem EnsuredFirst.registerColumns (h : EnsuredFirst db) (mappings : CustomMappings) :
    EnsuredFirst (registerColumns env mappings db) where
  known table htable := List.mem_append_left _ (h.known table htable)
  inserts := h.inserts.append fun e he before => by
    obtain ⟨table, -, he⟩ := List.mem_flatMap.mp he
    exact insertGuard_ensureColumns _ _ e he before

theorem EnsuredFirst.flushAll (h : EnsuredFirst db) :
    EnsuredFirst (flushAll env customCols batches db).2 := by
  have hstart : EnsuredFirst (db.record ((work env batches).map fun w => .taken w.1 w.2)) :=
    h.record (List.forall_mem_map.mpr fun _ _ _ => trivial)
  exact List.foldlRecOn _ _ hstart fun db hdb w _ => hdb.flushTable w

end DbState

end WazuhOcsf
