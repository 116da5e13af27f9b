import WazuhOcsf.Input.Tailer
import WazuhOcsf.Main.EventLoop

/-!
# Writer, reader and main loop

The process in file mode with the log writer beside it.  The reader and the main loop
meet in the channel and, through the path of the alerts file, in the inode that
`do_flush` looks up.
-/

namespace WazuhOcsf

/-- The alerts file, the reader and the main loop. -/
structure System where
  path : AlertsPath
  reader : Reader
  loop : LoopState

namespace System

/-- What the log writer, the reader, the loop and its environment do. -/
inductive Action
  | write (op : Write)
  /-- The reader does something to the file system. -/
  | read
  /-- The pending `send` of the reader returns. -/
  | deliver
  | reload (mappings : CustomMappings)
  | recv (env : TransformEnv)
  | tick
  | shutdown
  | flush (env : FlushEnv)
  | save (ok : Bool)

/-- Before the first step of the reader task and of the loop. -/
def initial (path : AlertsPath) (start : TailState) (mappings : CustomMappings) : System where
  path := path
  reader := .metadata .start
  loop := .initial mappings start.offset

variable (ext : Externals) (cfg : AppConfig) (start : TailState)

/-- A step of the main loop alone. -/
def onLoop (s : System) (a : WazuhOcsf.Action) : Option System :=
  (WazuhOcsf.step ext cfg s.loop a).map fun loop => { s with loop := loop }

/-- One step of one of them; `none` when the action is not possible. -/
def step (s : System) : Action → Option System
  | .write op => (s.path.write op).map fun path => { s with path := path }
  | .read =>
      if s.reader.message = none then
        let reader := s.reader.next start s.path
        -- a task that ends drops the sender
        if reader = .stopped then
          onLoop ext cfg { s with reader := reader } .readerDone
        else some { s with reader := reader }
      else none
  | .deliver =>
      match s.reader.message with
      | some m =>
          if s.loop.shuttingDown then
            onLoop ext cfg { s with reader := .stopped } .readerDone
          else onLoop ext cfg { s with reader := s.reader.sent } (.send m)
      | none => none
  | .reload mappings => onLoop ext cfg s (.reload mappings)
  | .recv env => onLoop ext cfg s (.recv env)
  | .tick => onLoop ext cfg s .tick
  | .shutdown => onLoop ext cfg s .shutdown
  | .flush env => onLoop ext cfg s (.flush env)
  | .save ok => onLoop ext cfg s (.save ((s.path.current.map AlertsFile.inode).getD 0) ok)

/-- What the loop does on its own. -/
inductive LoopAction : Action → WazuhOcsf.Action → Prop
  | reload (mappings : CustomMappings) : LoopAction (.reload mappings) (.reload mappings)
  | recv (env : TransformEnv) : LoopAction (.recv env) (.recv env)
  | tick : LoopAction .tick .tick
  | shutdown : LoopAction .shutdown .shutdown
  | flush (env : FlushEnv) : LoopAction (.flush env) (.flush env)

/-- Everything a step can do: the writer, the reader, both ends of the channel, and
the loop. -/
inductive Moves (s : System) : Action → System → Prop
  | write {op : Write} {path : AlertsPath} (hwrite : s.path.write op = some path) :
      Moves s (.write op) { s with path := path }
  | read : Moves s .read { s with reader := s.reader.next start s.path }
  | readLast {loop : LoopState} (hloop : WazuhOcsf.step ext cfg s.loop .readerDone = some loop) :
      Moves s .read { s with reader := s.reader.next start s.path, loop := loop }
  | deliver {m : Message} {loop : LoopState} (hmessage : s.reader.message = some m)
      (hloop : WazuhOcsf.step ext cfg s.loop (.send m) = some loop) :
      Moves s .deliver { s with reader := s.reader.sent, loop := loop }
  | deliverClosed {loop : LoopState}
      (hloop : WazuhOcsf.step ext cfg s.loop .readerDone = some loop) :
      Moves s .deliver { s with reader := .stopped, loop := loop }
  | loop {a : Action} {a' : WazuhOcsf.Action} {loop : LoopState} (ha : LoopAction a a')
      (hloop : WazuhOcsf.step ext cfg s.loop a' = some loop) : Moves s a { s with loop := loop }
  | save {ok : Bool} {loop : LoopState} (hloop : WazuhOcsf.step ext cfg s.loop
        (.save ((s.path.current.map AlertsFile.inode).getD 0) ok) = some loop) :
      Moves s (.save ok) { s with loop := loop }

theorem moves_of_onLoop {s s' : System} {a : Action} {a' : WazuhOcsf.Action} (ha : LoopAction a a')
    (h : s.onLoop ext cfg a' = some s') : Moves ext cfg start s a s' := by
  obtain ⟨loop, hloop, rfl⟩ := Option.map_eq_some_iff.mp h
  exact .loop ha hloop

theorem moves_of_step {s s' : System} {a : Action} (h : s.step ext cfg start a = some s') :
    Moves ext cfg start s a s' := by
  cases a with
  | write op =>
      obtain ⟨path, hwrite, rfl⟩ := Option.map_eq_some_iff.mp h
      exact .write hwrite
  | read =>
      obtain ⟨-, h⟩ := Option.ite_none_right_eq_some.mp h
      split_ifs at h with hstopped
      · obtain ⟨loop, hloop, rfl⟩ := Option.map_eq_some_iff.mp h
        exact .readLast hloop
      · cases h
        exact .read
  | deliver =>
      cases hmessage : s.reader.message with
      | none => simp [step, hmessage] at h
      | some m =>
          simp only [step, hmessage] at h
          split_ifs at h with hclosed
          · obtain ⟨loop, hloop, rfl⟩ := Option.map_eq_some_iff.mp h
            exact .deliverClosed hloop
          · obtain ⟨loop, hloop, rfl⟩ := Option.map_eq_some_iff.mp h
            exact .deliver hmessage hloop
  | reload mappings => exact moves_of_onLoop ext cfg start (.reload mappings) h
  | recv env => exact moves_of_onLoop ext cfg start (.recv env) h
  | tick => exact moves_of_onLoop ext cfg start .tick h
  | shutdown => exact moves_of_onLoop ext cfg start .shutdown h
  | flush env => exact moves_of_onLoop ext cfg start (.flush env) h
  | save ok =>
      obtain ⟨loop, hloop, rfl⟩ := Option.map_eq_some_iff.mp h
      exact .save hloop

end System

end WazuhOcsf
