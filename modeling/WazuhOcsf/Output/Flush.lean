import WazuhOcsf.Input.State
import WazuhOcsf.Output.Db

/-!
# Flushing

`flush_all` and the column registration of `do_flush`.  What ClickHouse answers and
in which order the hashed collections are visited is chosen per flush, by a
`FlushEnv`.  Everything the process does to the outside, or takes from it, is
recorded as an `Event`, in the order it happens.
-/

namespace WazuhOcsf

/-- The rows that wait, table by table. -/
abbrev BatchMap := HashMap String (List OcsfRecord)

namespace BatchMap

/-- The rows buffered for a table. -/
def rows (batches : BatchMap) (table : String) : List OcsfRecord := (batches.get table).getD []

/-- `entry(table).or_default().push(record)`. -/
def push (batches : BatchMap) (table : String) (record : OcsfRecord) : BatchMap :=
  batches.upsert table fun bucket => bucket.getD [] ++ [record]

theorem rows_push (batches : BatchMap) (table other : String) (record : OcsfRecord) :
    (batches.push table record).rows other =
      batches.rows other ++ if table = other then [record] else [] := by
  rw [rows, push, HashMap.get_upsert]
  by_cases h : table = other
  · subst h; simp [rows]
  · have hne : ¬ other = table := fun heq => h heq.symm
    simp [rows, h, hne]

end BatchMap

/-- A line that was taken from the channel: the configuration and the mapping table in force
then, the clock and the order `transform` met, and the row it routed. -/
structure Reception where
  message : Message
  cfg : AppConfig
  env : TransformEnv
  mappings : CustomMappings
  row : Option (String × OcsfRecord)

/-- What the process does to the outside, or takes from it. -/
inductive Event
  /-- The reader put a line into the channel. -/
  | sent (message : Message)
  /-- The main loop took a line. -/
  | received (reception : Reception)
  /-- `ADD COLUMN` was sent for a mapping target. -/
  | columnSent (table target : String) (ok : Bool)
  /-- `ensure_table` was called. -/
  | ensured (table : String) (ok : Bool)
  /-- `flush_all` took the rows buffered for a table. -/
  | taken (table : String) (rows : List OcsfRecord)
  /-- `insert_batch` was called with rows. -/
  | inserted (table : String) (rows : List OcsfRecord) (ok : Bool)
  /-- `StateStore::save` was called. -/
  | saved (state : TailState) (ok : Bool)

/-! ## Reading the log -/

/-- The row of the line, if it goes to this table. -/
def Reception.rowFor (r : Reception) (table : String) : Option OcsfRecord :=
  r.row.bind fun row => if row.1 = table then some row.2 else none

namespace Event

/-- The row routed to a table. -/
def routedRow (table : String) : Event → Option OcsfRecord
  | received r => r.rowFor table
  | _ => none

/-- The rows taken for a table. -/
def takenRows (table : String) : Event → Option (List OcsfRecord)
  | taken t rows => if t = table then some rows else none
  | _ => none

/-- The rows of an `insert_batch` call for a table. -/
def insertedRows (table : String) : Event → Option (List OcsfRecord)
  | inserted t rows _ => if t = table then some rows else none
  | _ => none

/-- The rows of a successful `insert_batch` call for a table. -/
def acceptedRows (table : String) : Event → Option (List OcsfRecord)
  | inserted t rows true => if t = table then some rows else none
  | _ => none

/-- The line that was sent. -/
def sentMessage : Event → Option Message
  | sent m => some m
  | _ => none

/-- The line that was taken from the channel. -/
def receivedMessage : Event → Option Message
  | received r => some r.message
  | _ => none

/-- A line taken from the channel. -/
def reception : Event → Option Reception
  | received r => some r
  | _ => none

/-- The table and the target of an `ADD COLUMN`. -/
def sentColumn : Event → Option (String × String)
  | columnSent table target _ => some (table, target)
  | _ => none

/-- The table and the target of an `ADD COLUMN` that was accepted. -/
def addedColumn : Event → Option (String × String)
  | columnSent table target true => some (table, target)
  | _ => none

/-- The state handed to `StateStore::save`. -/
def savedState : Event → Option TailState
  | saved state _ => some state
  | _ => none

/-- The state `StateStore::save` wrote. -/
def persistedState : Event → Option TailState
  | saved state true => some state
  | _ => none

end Event

/-- The rows `transform` routed to a table, in receive order. -/
def routed (table : String) (log : List Event) : List OcsfRecord :=
  log.filterMap (Event.routedRow table)

@[simp] theorem routed_append (table : String) (log new : List Event) :
    routed table (log ++ new) = routed table log ++ routed table new :=
  List.filterMap_append

/-- The vectors `flush_all` took for a table. -/
def takenVectors (table : String) (log : List Event) : List (List OcsfRecord) :=
  log.filterMap (Event.takenRows table)

/-- The vectors handed to `insert_batch` for a table. -/
def insertCalls (table : String) (log : List Event) : List (List OcsfRecord) :=
  log.filterMap (Event.insertedRows table)

/-- The rows of a table ClickHouse has accepted. -/
def accepted (table : String) (log : List Event) : List OcsfRecord :=
  (log.filterMap (Event.acceptedRows table)).flatten

/-- The `ADD COLUMN`s sent so far, as table and mapping target. -/
def sentColumns (log : List Event) : List (String × String) := log.filterMap Event.sentColumn

/-- The columns added so far, as table and mapping target. -/
def addedColumns (log : List Event) : List (String × String) := log.filterMap Event.addedColumn

/-- The lines put into the channel. -/
def sentMessages (log : List Event) : List Message := log.filterMap Event.sentMessage

/-- The lines taken from the channel. -/
def receivedMessages (log : List Event) : List Message := log.filterMap Event.receivedMessage

/-- The lines taken, each with what became of it. -/
def receptions (log : List Event) : List Reception := log.filterMap Event.reception

/-- The states handed to `StateStore::save`. -/
def savedStates (log : List Event) : List TailState := log.filterMap Event.savedState

/-- The states that were written. -/
def persistedStates (log : List Event) : List TailState := log.filterMap Event.persistedState

/-! ## A flush -/

/-- The answers of ClickHouse and the iteration orders one flush meets.
`addColumnOk table i` is the answer to the `i`-th `ADD COLUMN` on a table. -/
structure FlushEnv where
  mappingOrder : IterOrder (String × String)
  tableOrder : IterOrder String
  columnOrder : IterOrder String
  batchOrder : IterOrder (String × List OcsfRecord)
  addColumnOk : String → ℕ → Bool
  ensureOk : String → Bool
  insertOk : String → Bool

instance : Inhabited FlushEnv :=
  ⟨⟨default, default, default, default, fun _ _ => true, fun _ => true, fun _ => true⟩⟩

/-- What the process knows of the database, and what has happened so far. -/
structure DbState where
  knownTables : List String
  knownCustomCols : List String
  log : List Event

namespace DbState

/-- Events are recorded. -/
def record (db : DbState) (events : List Event) : DbState := { db with log := db.log ++ events }

@[simp] theorem log_record (db : DbState) (events : List Event) :
    (db.record events).log = db.log ++ events := rfl

/-- The `ADD COLUMN`s of one call on a table, with their answers. -/
def ensureColumns (env : FlushEnv) (table : String) (columns : List String) : List Event :=
  if '.' ∈ table.toList then
    (columns.zipIdx.filter fun column => safeName column.1 ≠ "").map fun column =>
      .columnSent table column.1 (env.addColumnOk table column.2)
  else []

/-- The mapping targets `do_flush` has not registered yet. -/
def newColumns (env : FlushEnv) (mappings : CustomMappings) (db : DbState) : List String :=
  (mappings.customColumnTargets env.mappingOrder).filter (· ∉ db.knownCustomCols)

/-- The first half of `do_flush`: a new column is added to every known table, and
registered if every table accepted it. -/
def registerColumns (env : FlushEnv) (mappings : CustomMappings) (db : DbState) : DbState :=
  let newCols := db.newColumns env mappings
  let tables := env.tableOrder.arrange db.knownTables
  let registered := newCols.filter fun col =>
    tables.all fun table => col ∈ ensureCustomColumns table newCols (env.addColumnOk table)
  { db with
    knownCustomCols := registered ∪ db.knownCustomCols
    log := db.log ++ tables.flatMap fun table => ensureColumns env table newCols }

/-- `insert_batch`. -/
def insertBatch (env : FlushEnv) (table : String) (records : List OcsfRecord) (db : DbState) :
    DbState :=
  if records = [] then db else db.record [.inserted table records (env.insertOk table)]

/-- One round of the loop in `flush_all`.  A table that cannot be created loses the
rows taken for it. -/
def flushTable (env : FlushEnv) (customCols : List String) (db : DbState)
    (work : String × List OcsfRecord) : DbState :=
  if work.1 ∈ db.knownTables then db.insertBatch env work.1 work.2
  else if env.ensureOk work.1 then
    -- what `ensure_custom_columns` reports back is not looked at here
    let db := { db.record (.ensured work.1 true :: ensureColumns env work.1 customCols) with
      knownTables := db.knownTables.insert work.1 }
    db.insertBatch env work.1 work.2
  else db.record [.ensured work.1 false]

/-- The tables with rows, in the order they are visited. -/
def work (env : FlushEnv) (batches : BatchMap) : List (String × List OcsfRecord) :=
  env.batchOrder.arrange (batches.entries.filter (·.2 ≠ []))

/-- `flush_all`: every bucket is taken and pruned, then the tables are flushed one
after the other. -/
def flushAll (env : FlushEnv) (customCols : List String) (batches : BatchMap) (db : DbState) :
    BatchMap × DbState :=
  let work := work env batches
  let left := (batches.mapValues fun _ => []).retain (·.2 ≠ [])
  (left, work.foldl (flushTable env customCols) (db.record (work.map fun w => .taken w.1 w.2)))

end DbState

end WazuhOcsf
