import WazuhOcsf.Library.Runs
import WazuhOcsf.Output.Flush

/-!
# The main loop

The processing half of `main.rs` as a transition system: the `select!` loop with
its three branches, `do_flush`, the bounded channel and the shutdown.  The reader,
the config watcher and ClickHouse are the environment; their moves are actions
like the loop's own, so a run is one interleaving of all of them.

`do_flush` is two steps, because other tasks move while it waits for the database:
`flush` talks to ClickHouse, `save` looks the inode up and persists the position.
-/

namespace WazuhOcsf

/-- Where the loop is. -/
inductive Pc
  /-- In `select!`. -/
  | selecting
  /-- About to flush; `final` when the loop breaks after it. -/
  | flushing (final : Bool)
  /-- The database part of a flush is done, the position is not saved yet. -/
  | saving (final : Bool)
  | exited
  deriving DecidableEq

/-- What `main` holds while it loops: the buffers, what it knows of the database, the mapping
table, the offset of the last line taken, and the channel. -/
structure LoopState where
  batches : BatchMap
  db : DbState
  mappings : CustomMappings
  currentOffset : ℕ
  channel : List Message
  /-- `rx.close()` was called. -/
  shuttingDown : Bool
  /-- The reader dropped its end. -/
  senderGone : Bool
  pc : Pc

namespace LoopState

/-- The state before the first iteration. -/
def initial (mappings : CustomMappings) (startOffset : ℕ) : LoopState where
  batches := .empty
  db := ⟨[], [], []⟩
  mappings := mappings
  currentOffset := startOffset
  channel := []
  shuttingDown := false
  senderGone := false
  pc := .selecting

/-- Events so far. -/
abbrev log (s : LoopState) : List Event := s.db.log

/-- Rows waiting in the buffers. -/
def pending (s : LoopState) : ℕ := (s.batches.entries.map fun bucket => bucket.2.length).sum

end LoopState

/-- What the loop does, and what reader, watcher and database do to it. -/
inductive Action
  /-- The reader hands over a line. -/
  | send (message : Message)
  /-- The reader ends. -/
  | readerDone
  /-- The watcher installs a new mapping table. -/
  | reload (mappings : CustomMappings)
  /-- `rx.recv()` returns. -/
  | recv (env : TransformEnv)
  | tick
  | shutdown
  | flush (env : FlushEnv)
  /-- The position is saved under the inode the path has now, 0 if it has none. -/
  | save (inode : ℕ) (ok : Bool)

section

variable (ext : Externals) (cfg : AppConfig)

/-- The row of a line: `transform`, with the raw line dropped unless it is kept. -/
def rowOf (env : TransformEnv) (mappings : CustomMappings) (line : String) :
    Option (String × OcsfRecord) :=
  (transform ext env line cfg.clickhouseDb cfg.specialLocations mappings).map fun row =>
    (row.1, if cfg.storeRawData then row.2 else { row.2 with rawData := "" })

/-- What is recorded of a line that is taken. -/
def receive (env : TransformEnv) (s : LoopState) (m : Message) : Reception where
  message := m
  cfg := cfg
  env := env
  mappings := s.mappings
  row := rowOf ext cfg env s.mappings m.line

/-- Buffer a row; the bucket it fills triggers a flush. -/
def bufferRow (s : LoopState) : Option (String × OcsfRecord) → LoopState
  | none => s
  | some (table, rec) =>
      let batches := s.batches.push table rec
      { s with
        batches := batches
        pc := if cfg.batchSize ≤ (batches.rows table).length then .flushing false else .selecting }

/-- One step of the system; `none` when the action is not possible. -/
def step (s : LoopState) : Action → Option LoopState
  | .send m =>
      if !s.shuttingDown && !s.senderGone && s.channel.length < cfg.channelCap then
        some { s with channel := s.channel ++ [m], db := s.db.record [.sent m] }
      else none
  | .readerDone => some { s with senderGone := true }
  | .reload mappings => some { s with mappings := mappings }
  | .recv env =>
      if s.pc = .selecting then
        match s.channel with
        | m :: rest =>
            let reception := receive ext cfg env s m
            some (bufferRow cfg
              { s with
                channel := rest
                currentOffset := m.offset
                db := s.db.record [.received reception] } reception.row)
        | [] => if s.shuttingDown || s.senderGone then some { s with pc := .flushing true } else none
      else none
  | .tick =>
      if s.pc = .selecting then
        some (if 0 < s.pending then { s with pc := .flushing false } else s)
      else none
  | .shutdown =>
      if s.pc = .selecting && !s.shuttingDown then some { s with shuttingDown := true } else none
  | .flush env =>
      match s.pc with
      | .flushing final =>
          let db := s.db.registerColumns env s.mappings
          let flushed :=
            db.flushAll env (env.columnOrder.arrange db.knownCustomCols) s.batches
          some { s with batches := flushed.1, db := flushed.2, pc := .saving final }
      | _ => none
  | .save inode ok =>
      match s.pc with
      | .saving final =>
          some { s with
            db := s.db.record [.saved ⟨inode, s.currentOffset⟩ ok]
            pc := if final then .exited else .selecting }
      | _ => none

/-- Everything a step can do, with what it needs. -/
inductive Moves (s : LoopState) : Action → LoopState → Prop
  | send (m : Message) (hopen : s.shuttingDown = false ∧ s.senderGone = false)
      (hroom : s.channel.length < cfg.channelCap) :
      Moves s (.send m) { s with channel := s.channel ++ [m], db := s.db.record [.sent m] }
  | readerDone : Moves s .readerDone { s with senderGone := true }
  | reload (mappings : CustomMappings) : Moves s (.reload mappings) { s with mappings := mappings }
  | recv (env : TransformEnv) (m : Message) (rest : List Message) (hpc : s.pc = .selecting)
      (hchannel : s.channel = m :: rest) :
      Moves s (.recv env) (bufferRow cfg
        { s with
          channel := rest
          currentOffset := m.offset
          db := s.db.record [.received (receive ext cfg env s m)] }
        (receive ext cfg env s m).row)
  | recvClosed (env : TransformEnv) (hpc : s.pc = .selecting) (hchannel : s.channel = [])
      (hclosed : s.shuttingDown ∨ s.senderGone) :
      Moves s (.recv env) { s with pc := .flushing true }
  | tickFlush (hpc : s.pc = .selecting) (hpending : 0 < s.pending) :
      Moves s .tick { s with pc := .flushing false }
  | tickIdle (hpc : s.pc = .selecting) (hpending : ¬ 0 < s.pending) : Moves s .tick s
  | shutdown (hpc : s.pc = .selecting) : Moves s .shutdown { s with shuttingDown := true }
  | flush (env : FlushEnv) (final : Bool) (hpc : s.pc = .flushing final) :
      Moves s (.flush env)
        { s with
          batches := ((s.db.registerColumns env s.mappings).flushAll env (env.columnOrder.arrange
            (s.db.registerColumns env s.mappings).knownCustomCols) s.batches).1
          db := ((s.db.registerColumns env s.mappings).flushAll env (env.columnOrder.arrange
            (s.db.registerColumns env s.mappings).knownCustomCols) s.batches).2
          pc := .saving final }
  | save (inode : ℕ) (ok final : Bool) (hpc : s.pc = .saving final) :
      Moves s (.save inode ok)
        { s with
          db := s.db.record [.saved ⟨inode, s.currentOffset⟩ ok]
          pc := if final then .exited else .selecting }

theorem moves_of_step {s s' : LoopState} {a : Action} (h : step ext cfg s a = some s') :
    Moves ext cfg s a s' := by
  cases a with
  | send m =>
      obtain ⟨hguard, h⟩ := Option.ite_none_right_eq_some.mp h
      cases h
      simp only [Bool.and_eq_true, Bool.not_eq_true', decide_eq_true_eq] at hguard
      exact .send m hguard.1 hguard.2
  | readerDone => cases h; exact .readerDone
  | reload mappings => cases h; exact .reload mappings
  | recv env =>
      obtain ⟨hpc, h⟩ := Option.ite_none_right_eq_some.mp h
      split at h
      · next m rest hchannel =>
          cases h
          exact .recv env m rest hpc hchannel
      · next hchannel =>
          obtain ⟨hclosed, h⟩ := Option.ite_none_right_eq_some.mp h
          cases h
          exact .recvClosed env hpc hchannel (by simpa using hclosed)
  | tick =>
      obtain ⟨hpc, h⟩ := Option.ite_none_right_eq_some.mp h
      cases h
      split_ifs with hpending
      · exact .tickFlush hpc hpending
      · exact .tickIdle hpc hpending
  | shutdown =>
      obtain ⟨hguard, h⟩ := Option.ite_none_right_eq_some.mp h
      cases h
      simp only [Bool.and_eq_true, decide_eq_true_eq] at hguard
      exact .shutdown hguard.1
  | flush env =>
      cases hpc : s.pc with
      | flushing final =>
          simp only [step, hpc, Option.some.injEq] at h
          subst h
          exact .flush env final hpc
      | selecting => simp [step, hpc] at h
      | saving final => simp [step, hpc] at h
      | exited => simp [step, hpc] at h
  | save inode ok =>
      cases hpc : s.pc with
      | saving final =>
          simp only [step, hpc, Option.some.injEq] at h
          subst h
          exact .save inode ok final hpc
      | selecting => simp [step, hpc] at h
      | flushing final => simp [step, hpc] at h
      | exited => simp [step, hpc] at h

end

end WazuhOcsf
