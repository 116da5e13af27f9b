import WazuhOcsf.Input.StateStore
import WazuhOcsf.Main.System

/-!
# One start after the other

The process from `StateStore::load` to its end, and then the next one on the same state
file, in file or ZeroMQ mode.  `main` looks the alerts file up twice before it starts, once
for the size and once for the inode; the log writer may move in between, and the process
may be killed between any two steps.
-/

namespace WazuhOcsf

open RustString

/-- Where the lines come from: `INPUT_MODE`. -/
inductive InputMode
  | file
  | zeroMq
  deriving DecidableEq

/-! ## The start position -/

namespace AlertsPath

/-- `metadata().len()`, 0 if there is no file. -/
def currentSize (path : AlertsPath) : ℕ := (path.current.map fun file => file.bytes.length).getD 0

/-- `metadata().ino()`, 0 if there is no file. -/
def currentInode (path : AlertsPath) : ℕ := (path.current.map AlertsFile.inode).getD 0

/-- The file at the path loses everything after `size` bytes. -/
def truncate (path : AlertsPath) (size : ℕ) : AlertsPath :=
  { path with newest := { path.newest with bytes := path.newest.bytes.take size } }

end AlertsPath

/-- Nothing was saved before. -/
def TailState.IsFirstRun (saved : TailState) : Prop := saved.offset = 0 ∧ saved.inode = 0

instance (saved : TailState) : Decidable saved.IsFirstRun :=
  inferInstanceAs (Decidable (saved.offset = 0 ∧ saved.inode = 0))

/-- The start position, given what the two look-ups found. -/
def resolveStart (seekToEndOnFirstRun : Bool) (saved : TailState) (fileSize currentInode : ℕ) :
    TailState where
  inode := currentInode
  offset :=
    if ¬ saved.IsFirstRun then
      if saved.inode ≠ 0 ∧ saved.inode ≠ currentInode then saved.offset
      else if fileSize < saved.offset then 0
      else saved.offset
    else if seekToEndOnFirstRun then fileSize
    else 0

theorem resolveStart_firstRun {saved : TailState} (hfirst : saved.IsFirstRun)
    (fileSize currentInode : ℕ) :
    (resolveStart true saved fileSize currentInode).offset = fileSize := by
  simp [resolveStart, hfirst]

theorem resolveStart_resume {saved : TailState} (hlater : ¬ saved.IsFirstRun) {fileSize : ℕ}
    (hsize : saved.offset ≤ fileSize) (seek : Bool) (currentInode : ℕ) :
    (resolveStart seek saved fileSize currentInode).offset = saved.offset := by
  simp [resolveStart, hlater, Nat.not_lt.mpr hsize]

/-- A later start goes back to byte 0 or nowhere. -/
theorem resolveStart_le {saved : TailState} (hlater : ¬ saved.IsFirstRun) (seek : Bool)
    (fileSize currentInode : ℕ) :
    (resolveStart seek saved fileSize currentInode).offset ≤ saved.offset := by
  simp only [resolveStart, if_pos hlater]
  split_ifs
  · exact le_rfl
  · exact Nat.zero_le _
  · exact le_rfl

/-! ## The ZeroMQ subscriber -/

/-- The alert in a message: its last frame that is UTF-8, trimmed, unless that is blank. -/
def zmqPayload (frames : List (List UInt8)) : Option String :=
  let raw := (frames.reverse.findSome? fun frame => String.fromUTF8? ⟨frame.toArray⟩).getD ""
  if trim raw = "" then none else some (trim raw)

/-- What the subscriber puts into the channel; the offset is always 0. -/
def zmqMessage (line : String) : Message := ⟨0, line, 0⟩

/-! ## Processes -/

/-- Where a process is. -/
inductive Stage
  | loaded (saved : TailState)
  | sized (saved : TailState) (fileSize : ℕ)
  /-- The start position is known, and the early save is next. -/
  | resolved (saved : TailState) (fileSize : ℕ) (start : TailState)
  /-- In ZeroMQ mode there is no reader of the file. -/
  | running (start : TailState) (reader : Reader) (loop : LoopState)

/-- The reader of the file before its first step. -/
def InputMode.reader : InputMode → Reader
  | file => .metadata .start
  | zeroMq => .stopped

/-- A process that was launched, with the configuration it read. -/
structure Process where
  mode : InputMode
  cfg : AppConfig
  stage : Stage

/-- What counts for the progress of the state file. -/
inductive Record
  | persisted (state : TailState)
  | truncated (inode : ℕ)
  deriving DecidableEq

/-- The alerts file and the state file over the starts of the process, and what was persisted. -/
structure History where
  path : AlertsPath
  /-- The text in the state file, if there is one. -/
  stateFile : Option String
  process : Option Process
  log : List Record

namespace History

/-- What happens to file and process, the kill included. -/
inductive Action
  | write (op : Write)
  | truncate (size : ℕ)
  | launch (mode : InputMode) (cfg : AppConfig)
  | lookSize
  | lookInode
  /-- The early save, then the reader task and the main loop start. -/
  | enter (ok : Bool) (mappings : CustomMappings)
  /-- A step of the reader of the file or of the main loop. -/
  | run (a : System.Action)
  /-- A ZeroMQ message arrives. -/
  | receive (frames : List (List UInt8))
  | save (ok : Bool)
  /-- The process ends or is killed. -/
  | crash

/-- Before the first start. -/
def initial (path : AlertsPath) (stateFile : Option String) : History := ⟨path, stateFile, none, []⟩

/-- The state file gets a new text. -/
def persist (h : History) (state : TailState) : History :=
  { h with stateFile := some (StateStore.render state), log := h.log ++ [.persisted state] }

/-- A `save` on a file system whose state file is the history's persists the state there,
or leaves it as it was. -/
theorem stateFile_save {Path : Type*} [DecidableEq Path] {withExtension : Path → String → Path}
    {calls : StateStore.Calls} {files files' : Files Path} {path : Path} {state : TailState}
    {h : History} (hread : files.readToString path = h.stateFile)
    (htmp : path ≠ withExtension path "tmp") {ok : Bool}
    (hsave : StateStore.save withExtension calls files path state = (files', ok)) :
    files'.readToString path = (if ok then h.persist state else h).stateFile := by
  rw [StateStore.readToString_save htmp hsave, hread]
  cases ok with
  | true => rfl
  | false => rfl

/-- The steps of a running process that are neither the writer's nor a save. -/
def Runs : InputMode → System.Action → Bool
  | _, .write _ | _, .save _ => false
  | .zeroMq, .read | .zeroMq, .deliver => false
  | _, _ => true

variable (ext : Externals)

/-- One step; what `metadata` returns and what is saved are `u64`. -/
def step (h : History) : Action → Option History
  | .write op => (h.path.write op).map fun path => { h with path := path }
  | .truncate size =>
      if h.path.linked ∧ size < h.path.newest.bytes.length then
        some { h with
          path := h.path.truncate size
          log := h.log ++ [.truncated h.path.newest.inode] }
      else none
  | .launch mode cfg =>
      match h.process with
      | none => some { h with process := some ⟨mode, cfg, .loaded (StateStore.load h.stateFile)⟩ }
      | some _ => none
  | .lookSize =>
      match h.process with
      | some ⟨mode, cfg, .loaded saved⟩ =>
          if h.path.currentSize < 2 ^ 64 then
            some { h with process := some ⟨mode, cfg, .sized saved h.path.currentSize⟩ }
          else none
      | _ => none
  | .lookInode =>
      match h.process with
      | some ⟨mode, cfg, .sized saved fileSize⟩ =>
          let start := resolveStart cfg.seekToEndOnFirstRun saved fileSize h.path.currentInode
          if start.Fits then
            some { h with process := some ⟨mode, cfg, .resolved saved fileSize start⟩ }
          else none
      | _ => none
  | .enter ok mappings =>
      match h.process with
      | some ⟨mode, cfg, .resolved saved _ start⟩ =>
          let entered := { h with
            process :=
              some ⟨mode, cfg, .running start mode.reader (.initial mappings start.offset)⟩ }
          some (if saved.IsFirstRun ∧ 0 < start.offset ∧ ok then entered.persist start else entered)
      | _ => none
  | .run a =>
      match h.process with
      | some ⟨mode, cfg, .running start reader loop⟩ =>
          if Runs mode a then
            (System.step ext cfg start ⟨h.path, reader, loop⟩ a).map fun s =>
              { h with process := some ⟨mode, cfg, .running start s.reader s.loop⟩ }
          else none
      | _ => none
  | .receive frames =>
      match h.process with
      | some ⟨.zeroMq, cfg, .running start reader loop⟩ =>
          match zmqPayload frames with
          | none => some h
          | some line =>
              let a := if loop.shuttingDown then .readerDone else .send (zmqMessage line)
              (WazuhOcsf.step ext cfg loop a).map fun loop =>
                { h with process := some ⟨.zeroMq, cfg, .running start reader loop⟩ }
      | _ => none
  | .save ok =>
      match h.process with
      | some ⟨mode, cfg, .running start reader loop⟩ =>
          let state : TailState := ⟨h.path.currentInode, loop.currentOffset⟩
          if state.Fits then
            (WazuhOcsf.step ext cfg loop (.save h.path.currentInode ok)).map fun loop =>
              let saved := { h with process := some ⟨mode, cfg, .running start reader loop⟩ }
              if ok then saved.persist state else saved
          else none
      | _ => none
  | .crash => if h.process.isSome then some { h with process := none } else none

/-- Everything a step can do. -/
inductive Moves (h : History) : Action → History → Prop
  | write {op : Write} {path : AlertsPath} (hwrite : h.path.write op = some path) :
      Moves h (.write op) { h with path := path }
  | truncate {size : ℕ} (hlinked : h.path.linked) : Moves h (.truncate size)
      { h with path := h.path.truncate size, log := h.log ++ [.truncated h.path.newest.inode] }
  | launch {mode : InputMode} {cfg : AppConfig} (hprocess : h.process = none) :
      Moves h (.launch mode cfg)
        { h with process := some ⟨mode, cfg, .loaded (StateStore.load h.stateFile)⟩ }
  | lookSize {mode : InputMode} {cfg : AppConfig} {saved : TailState}
      (hprocess : h.process = some ⟨mode, cfg, .loaded saved⟩) :
      Moves h .lookSize { h with process := some ⟨mode, cfg, .sized saved h.path.currentSize⟩ }
  | lookInode {mode : InputMode} {cfg : AppConfig} {saved start : TailState} {fileSize : ℕ}
      (hprocess : h.process = some ⟨mode, cfg, .sized saved fileSize⟩)
      (hstart : start = resolveStart cfg.seekToEndOnFirstRun saved fileSize h.path.currentInode)
      (hfits : start.Fits) :
      Moves h .lookInode { h with process := some ⟨mode, cfg, .resolved saved fileSize start⟩ }
  | enter {mode : InputMode} {cfg : AppConfig} {saved start : TailState} {fileSize : ℕ} {ok : Bool}
      {mappings : CustomMappings}
      (hprocess : h.process = some ⟨mode, cfg, .resolved saved fileSize start⟩)
      (hearly : ¬ (saved.IsFirstRun ∧ 0 < start.offset ∧ ok)) :
      Moves h (.enter ok mappings) { h with
        process := some ⟨mode, cfg, .running start mode.reader (.initial mappings start.offset)⟩ }
  | enterSaving {mode : InputMode} {cfg : AppConfig} {saved start : TailState} {fileSize : ℕ}
      {mappings : CustomMappings}
      (hprocess : h.process = some ⟨mode, cfg, .resolved saved fileSize start⟩)
      (hfirst : saved.IsFirstRun) (hpos : 0 < start.offset) :
      Moves h (.enter true mappings) { h with
        stateFile := some (StateStore.render start)
        process := some ⟨mode, cfg, .running start mode.reader (.initial mappings start.offset)⟩
        log := h.log ++ [.persisted start] }
  | run {mode : InputMode} {cfg : AppConfig} {start : TailState} {reader : Reader}
      {loop : LoopState} {a : System.Action} {s : System}
      (hprocess : h.process = some ⟨mode, cfg, .running start reader loop⟩) (hruns : Runs mode a)
      (hstep : System.step ext cfg start ⟨h.path, reader, loop⟩ a = some s) :
      Moves h (.run a) { h with process := some ⟨mode, cfg, .running start s.reader s.loop⟩ }
  | receiveBlank {frames : List (List UInt8)} : Moves h (.receive frames) h
  | receive {cfg : AppConfig} {start : TailState} {reader : Reader} {loop loop' : LoopState}
      {frames : List (List UInt8)} {a : WazuhOcsf.Action}
      (hprocess : h.process = some ⟨.zeroMq, cfg, .running start reader loop⟩)
      (ha : a = .readerDone ∨ ∃ line, a = .send (zmqMessage line))
      (hstep : WazuhOcsf.step ext cfg loop a = some loop') :
      Moves h (.receive frames)
        { h with process := some ⟨.zeroMq, cfg, .running start reader loop'⟩ }
  | saveFailed {mode : InputMode} {cfg : AppConfig} {start : TailState} {reader : Reader}
      {loop loop' : LoopState}
      (hprocess : h.process = some ⟨mode, cfg, .running start reader loop⟩)
      (hstep : WazuhOcsf.step ext cfg loop (.save h.path.currentInode false) = some loop') :
      Moves h (.save false) { h with process := some ⟨mode, cfg, .running start reader loop'⟩ }
  | save {mode : InputMode} {cfg : AppConfig} {start : TailState} {reader : Reader}
      {loop loop' : LoopState}
      (hprocess : h.process = some ⟨mode, cfg, .running start reader loop⟩)
      (hfits : TailState.Fits ⟨h.path.currentInode, loop.currentOffset⟩)
      (hstep : WazuhOcsf.step ext cfg loop (.save h.path.currentInode true) = some loop') :
      Moves h (.save true) { h with
        stateFile := some (StateStore.render ⟨h.path.currentInode, loop.currentOffset⟩)
        process := some ⟨mode, cfg, .running start reader loop'⟩
        log := h.log ++ [.persisted ⟨h.path.currentInode, loop.currentOffset⟩] }
  | crash : Moves h .crash { h with process := none }

theorem moves_of_step {h h' : History} {a : Action} (hstep : h.step ext a = some h') :
    Moves ext h a h' := by
  cases a with
  | write op =>
      obtain ⟨path, hwrite, rfl⟩ := Option.map_eq_some_iff.mp hstep
      exact .write hwrite
  | truncate size =>
      obtain ⟨hguard, hstep⟩ := Option.ite_none_right_eq_some.mp hstep
      cases hstep
      exact .truncate hguard.1
  | launch mode cfg =>
      simp only [step] at hstep
      split at hstep
      · next hprocess =>
          cases hstep
          exact .launch hprocess
      · cases hstep
  | lookSize =>
      simp only [step] at hstep
      split at hstep
      · next hprocess =>
          obtain ⟨-, hstep⟩ := Option.ite_none_right_eq_some.mp hstep
          cases hstep
          exact .lookSize hprocess
      · cases hstep
  | lookInode =>
      simp only [step] at hstep
      split at hstep
      · next hprocess =>
          obtain ⟨hfits, hstep⟩ := Option.ite_none_right_eq_some.mp hstep
          cases hstep
          exact .lookInode hprocess rfl hfits
      · cases hstep
  | enter ok mappings =>
      simp only [step] at hstep
      split at hstep
      · next hprocess =>
          split_ifs at hstep with hearly
          · obtain ⟨hfirst, hpos, rfl⟩ := hearly
            cases hstep
            exact .enterSaving hprocess hfirst hpos
          · cases hstep
            exact .enter hprocess hearly
      · cases hstep
  | run a =>
      simp only [step] at hstep
      split at hstep
      · next hprocess =>
          obtain ⟨hruns, hstep⟩ := Option.ite_none_right_eq_some.mp hstep
          obtain ⟨s, hs, rfl⟩ := Option.map_eq_some_iff.mp hstep
          exact .run hprocess hruns hs
      · cases hstep
  | receive frames =>
      simp only [step] at hstep
      split at hstep
      · next hprocess =>
          split at hstep
          · cases hstep
            exact .receiveBlank
          · next line hline =>
              obtain ⟨loop', hloop, rfl⟩ := Option.map_eq_some_iff.mp hstep
              refine .receive hprocess ?_ hloop
              split_ifs
              · exact .inl rfl
              · exact .inr ⟨line, rfl⟩
      · cases hstep
  | save ok =>
      simp only [step] at hstep
      split at hstep
      · next hprocess =>
          obtain ⟨hfits, hstep⟩ := Option.ite_none_right_eq_some.mp hstep
          obtain ⟨loop', hloop, rfl⟩ := Option.map_eq_some_iff.mp hstep
          cases ok with
          | true => exact .save hprocess hfits hloop
          | false => exact .saveFailed hprocess hloop
      · cases hstep
  | crash =>
      obtain ⟨-, hstep⟩ := Option.ite_none_right_eq_some.mp hstep
      cases hstep
      exact .crash

end History

end WazuhOcsf
