import WazuhOcsf.Restart

/-!
# The state file on a disk

In `History` a save replaces the text of the state file or does not.  Here it is made of its
calls: the directory, the temporary file, the rename, any of which may fail; and a process
killed inside a save leaves what a call that fails leaves.  Other files change at any time.
For what a process sees of the disk this is a `History` again, and so a process starts with
the state that was persisted last: `saves_atomic`.
-/

namespace WazuhOcsf

open RustString Transition

variable {Path : Type*}

/-- A history with the files it is on. -/
structure Disk (Path : Type*) where
  path : AlertsPath
  files : Files Path
  process : Option Process
  log : List Record

namespace Disk

/-- What happens to process and disk; a save is the calls it makes. -/
inductive Action (Path : Type*)
  /-- A step that does not save. -/
  | other (a : History.Action)
  | enter (calls : StateStore.Calls) (mappings : CustomMappings)
  | save (calls : StateStore.Calls)
  /-- Files other than the state file change. -/
  | foreign (files : Files Path)

/-- No process runs, and nothing was persisted. -/
def initial (path : AlertsPath) (files : Files Path) : Disk Path := ⟨path, files, none, []⟩

/-- What a process sees. -/
def history (stateFile : Path) (d : Disk Path) : History :=
  ⟨d.path, d.files.readToString stateFile, d.process, d.log⟩

@[simp] theorem history_path (stateFile : Path) (d : Disk Path) :
    (d.history stateFile).path = d.path := rfl

@[simp] theorem history_process (stateFile : Path) (d : Disk Path) :
    (d.history stateFile).process = d.process := rfl

variable [DecidableEq Path] (ext : Externals) (withExtension : Path → String → Path) (stateFile : Path)

/-- `StateStore::save`; whether it returned `Ok` is recorded only. -/
def saved (calls : StateStore.Calls) (state : TailState) (d : Disk Path) : Disk Path :=
  let after := StateStore.save withExtension calls d.files stateFile state
  { d with
    files := after.1
    log := if after.2 then d.log ++ [.persisted state] else d.log }

/-- One step. -/
def step (d : Disk Path) : Action Path → Option (Disk Path)
  | .other (.enter _ _) | .other (.save _) => none
  | .other a => ((d.history stateFile).step ext a).map fun h =>
      { d with path := h.path, process := h.process, log := h.log }
  | .enter calls mappings =>
      match d.process with
      | some ⟨mode, cfg, .resolved saved _ start⟩ =>
          let entered := { d with
            process :=
              some ⟨mode, cfg, .running start mode.reader (.initial mappings start.offset)⟩ }
          some (if saved.IsFirstRun ∧ 0 < start.offset then
            entered.saved withExtension stateFile calls start else entered)
      | _ => none
  | .save calls =>
      match d.process with
      | some ⟨mode, cfg, .running start reader loop⟩ =>
          let state : TailState := ⟨d.path.currentInode, loop.currentOffset⟩
          let ok := (StateStore.save withExtension calls d.files stateFile state).2
          if state.Fits then
            (WazuhOcsf.step ext cfg loop (.save d.path.currentInode ok)).map fun loop =>
              { d with process := some ⟨mode, cfg, .running start reader loop⟩ }.saved
                withExtension stateFile calls state
          else none
      | _ => none
  | .foreign files =>
      if files stateFile = d.files stateFile then some { d with files := files } else none

/-! ## A history on a disk is a history -/

variable {ext withExtension stateFile} {d d' : Disk Path}

theorem history_saved (htmp : stateFile ≠ withExtension stateFile "tmp")
    (calls : StateStore.Calls) (state : TailState) (d : Disk Path) :
    (d.saved withExtension stateFile calls state).history stateFile =
      if (StateStore.save withExtension calls d.files stateFile state).2
        then (d.history stateFile).persist state else d.history stateFile := by
  cases hsave : StateStore.save withExtension calls d.files stateFile state with
  | mk files ok =>
      have hfile := StateStore.readToString_save htmp hsave
      rw [history, saved]
      simp only [hsave, hfile]
      split <;> rfl

/-- What is not a save leaves the state file alone. -/
theorem stateFile_of_step {h h' : History} {a : History.Action} (hstep : h.step ext a = some h')
    (henter : ∀ ok mappings, a ≠ .enter ok mappings) (hsave : ∀ ok, a ≠ .save ok) :
    h'.stateFile = h.stateFile := by
  cases History.moves_of_step ext hstep with
  | enter | enterSaving => exact absurd rfl (henter _ _)
  | saveFailed | save => exact absurd rfl (hsave _)
  | _ => rfl

/-- A step of the disk is a step of the history a process sees, or is not seen. -/
theorem history_of_step (htmp : stateFile ≠ withExtension stateFile "tmp") {a : Action Path}
    (hstep : d.step ext withExtension stateFile a = some d') :
    (∃ b, (d.history stateFile).step ext b = some (d'.history stateFile)) ∨
      d'.history stateFile = d.history stateFile := by
  cases a with
  | other a =>
      have hother : ((d.history stateFile).step ext a).map (fun h =>
          { d with path := h.path, process := h.process, log := h.log }) = some d' ∧
          (∀ ok mappings, a ≠ .enter ok mappings) ∧ ∀ ok, a ≠ .save ok := by
        cases a with
        | enter ok mappings => cases hstep
        | save ok => cases hstep
        | _ => exact ⟨hstep, by simp, by simp⟩
      obtain ⟨hother, henter, hsave⟩ := hother
      obtain ⟨h, hh, rfl⟩ := Option.map_eq_some_iff.mp hother
      refine .inl ⟨a, hh.trans (congrArg some ?_)⟩
      have hfile := stateFile_of_step hh henter hsave
      cases h
      rw [history, History.mk.injEq]
      exact ⟨rfl, hfile, rfl, rfl⟩
  | enter calls mappings =>
      simp only [step] at hstep
      split at hstep
      · next mode cfg saved fileSize start hprocess =>
          refine .inl ⟨.enter
            (StateStore.save withExtension calls d.files stateFile start).2 mappings, ?_⟩
          simp only [History.step, history_process, hprocess]
          split_ifs at hstep with hearly
          · cases hstep
            rw [history_saved htmp]
            split_ifs with h1 h2 h2
            · rfl
            · exact absurd h1.2.2 h2
            · exact absurd ⟨hearly.1, hearly.2, h2⟩ h1
            · rfl
          · cases hstep
            rw [if_neg fun h => hearly ⟨h.1, h.2.1⟩]
            rfl
      · cases hstep
  | save calls =>
      simp only [step] at hstep
      split at hstep
      · next mode cfg start reader loop hprocess =>
          obtain ⟨hfits, hstep⟩ := Option.ite_none_right_eq_some.mp hstep
          obtain ⟨loop', hloop, rfl⟩ := Option.map_eq_some_iff.mp hstep
          refine .inl ⟨.save (StateStore.save withExtension calls d.files stateFile
            ⟨d.path.currentInode, loop.currentOffset⟩).2, ?_⟩
          simp only [History.step, history_process, history_path, hprocess, hfits, if_true, hloop,
            Option.map_some, history_saved htmp]
          rfl
      · cases hstep
  | foreign files =>
      obtain ⟨hkept, hstep⟩ := Option.ite_none_right_eq_some.mp hstep
      cases hstep
      right
      simp only [history, Files.readToString, hkept]

end Disk

/-! ## What a process starts with -/

/-- The state a record says is persisted. -/
def Record.state : Record → Option TailState
  | persisted state => some state
  | truncated _ => none

/-- The state persisted last. -/
def lastPersisted (log : List Record) : Option TailState := (log.filterMap Record.state).getLast?

@[simp] theorem lastPersisted_persisted (log : List Record) (state : TailState) :
    lastPersisted (log ++ [.persisted state]) = some state := by
  simp [lastPersisted, Record.state]

@[simp] theorem lastPersisted_truncated (log : List Record) (inode : ℕ) :
    lastPersisted (log ++ [.truncated inode]) = lastPersisted log := by
  simp [lastPersisted, Record.state]

/-- What a process has loaded, until it runs. -/
def Stage.loadedState : Stage → Option TailState
  | .loaded saved | .sized saved _ | .resolved saved _ _ => some saved
  | .running _ _ _ => none

/-- The state file has the last persisted state, or what was there first. -/
structure DiskInv (first : TailState) (h : History) : Prop where
  loads : StateStore.load h.stateFile = (lastPersisted h.log).getD first
  starts : ∀ p ∈ h.process, ∀ saved ∈ p.stage.loadedState,
    saved = (lastPersisted h.log).getD first
  fits : ∀ p ∈ h.process, ∀ saved fileSize start,
    p.stage = .resolved saved fileSize start → start.Fits

namespace DiskInv

variable {ext : Externals} {first : TailState} {h h' : History}

/-- The process goes to another stage. -/
theorem moveTo (hinv : DiskInv first h) {p : Process}
    (hstarts : ∀ saved ∈ p.stage.loadedState, saved = (lastPersisted h.log).getD first)
    (hfits : ∀ saved fileSize start, p.stage = .resolved saved fileSize start → start.Fits) :
    DiskInv first { h with process := some p } where
  loads := hinv.loads
  starts := by simpa using hstarts
  fits := by simpa using hfits

/-- A running process saves. -/
theorem persist {state : TailState} (hfits : state.Fits)
    {mode : InputMode} {cfg : AppConfig} {start : TailState} {reader : Reader} {loop : LoopState} :
    DiskInv first { h with
      stateFile := some (StateStore.render state)
      process := some ⟨mode, cfg, .running start reader loop⟩
      log := h.log ++ [.persisted state] } where
  loads := by rw [StateStore.load_render hfits, lastPersisted_persisted, Option.getD_some]
  starts := by simp [Stage.loadedState]
  fits := by simp

theorem step (hinv : DiskInv first h) {a : History.Action} (hstep : h.step ext a = some h') :
    DiskInv first h' := by
  have hrunning (mode : InputMode) (cfg : AppConfig) (start : TailState) (reader : Reader)
      (loop : LoopState) :
      DiskInv first { h with process := some ⟨mode, cfg, .running start reader loop⟩ } :=
    hinv.moveTo (by simp [Stage.loadedState]) (by simp)
  cases History.moves_of_step ext hstep with
  | write hwrite => exact ⟨hinv.loads, hinv.starts, hinv.fits⟩
  | truncate hlinked =>
      exact ⟨by simpa using hinv.loads, by simpa using hinv.starts, hinv.fits⟩
  | launch hprocess =>
      refine hinv.moveTo (fun saved hsaved => ?_) (by simp)
      obtain rfl := Option.some.inj hsaved
      exact hinv.loads
  | lookSize hprocess =>
      exact hinv.moveTo (fun saved hsaved => hinv.starts _ hprocess saved hsaved) (by simp)
  | lookInode hprocess hstart hfits =>
      refine hinv.moveTo (fun saved hsaved => hinv.starts _ hprocess saved hsaved) ?_
      rintro saved fileSize start heq
      cases heq
      exact hfits
  | enter hprocess hearly => exact hrunning ..
  | enterSaving hprocess hfirst hpos =>
      exact persist (hinv.fits _ hprocess _ _ _ rfl)
  | run hprocess hruns hstep => exact hrunning ..
  | receiveBlank => exact hinv
  | receive hprocess ha hstep => exact hrunning ..
  | saveFailed hprocess hstep => exact hrunning ..
  | save hprocess hfits hstep => exact persist hfits
  | crash => exact ⟨hinv.loads, by simp, by simp⟩

end DiskInv

variable [DecidableEq Path] {ext : Externals} {withExtension : Path → String → Path}
  {stateFile : Path}

/-- Whatever calls of whatever saves fail, wherever the process is killed, and whatever happens
to other files: the run is one of `History`, and each process loads the state that was
persisted last, or the one there was at first. -/
theorem saves_atomic (htmp : stateFile ≠ withExtension stateFile "tmp") {path : AlertsPath}
    {files : Files Path} {d : Disk Path}
    (run : Reachable (Disk.step ext withExtension stateFile) (.initial path files) d) :
    Reachable (History.step ext) (.initial path (files.readToString stateFile))
        (d.history stateFile) ∧
      StateStore.load (d.files.readToString stateFile) =
        (lastPersisted d.log).getD (StateStore.load (files.readToString stateFile)) ∧
      ∀ p ∈ d.process, ∀ saved ∈ p.stage.loadedState,
        saved = (lastPersisted d.log).getD (StateStore.load (files.readToString stateFile)) := by
  have hrun : Reachable (History.step ext) (.initial path (files.readToString stateFile))
      (d.history stateFile) :=
    Reachable.simulate (Disk.history stateFile)
      (fun _ _ _ hstep => Disk.history_of_step htmp hstep) run
  have hinv : DiskInv (StateStore.load (files.readToString stateFile)) (d.history stateFile) := by
    refine hrun.invariant ⟨rfl, by simp [History.initial], by simp [History.initial]⟩ ?_
    exact fun _ _ _ h _ hstep => h.step hstep
  exact ⟨hrun, hinv.loads, hinv.starts⟩

/-- A first start saves its position; the second process is killed when it has written one
byte of the temporary file. -/
def sampleDisk : List (Disk.Action String) :=
  looking.map .other ++ [.enter .succeed default, .other .crash] ++
    (looking ++ oneMoreAlert).map .other ++ [.enter .succeed default] ++
    [.read, .read, .read, .deliver, .recv default, .tick, .flush default].map
      (fun a => .other (.run a)) ++
    [.save ⟨true, .failed (some [105]), true⟩, .other .crash, .other (.launch .file seekingConfig)]

theorem saves_atomic_killed : ∃ d,
    Reachable (Disk.step sampleExternals (fun _ extension => "state/alerts." ++ extension)
      "state/alerts.pos") (.initial samplePath fun _ => none) d ∧
      d.files "state/alerts.tmp" = some [105] ∧
      StateStore.load (d.files.readToString "state/alerts.pos") = ⟨1, 3⟩ ∧
      ∃ p, d.process = some p ∧ p.stage.loadedState = some ⟨1, 3⟩ := by
  have hend : (exec (Disk.step sampleExternals (fun _ extension => "state/alerts." ++ extension)
      "state/alerts.pos") (.initial samplePath fun _ => none) sampleDisk).map (fun d =>
        (d.files "state/alerts.tmp", lastPersisted d.log,
          (d.process.bind fun p => p.stage.loadedState).isSome)) =
      some (some [105], some ⟨1, 3⟩, true) := by
    decide +kernel
  obtain ⟨d, hexec, hend⟩ := Option.map_eq_some_iff.mp hend
  simp only [Prod.mk.injEq] at hend
  obtain ⟨htmp, hlast, hloaded⟩ := hend
  obtain ⟨saved, hloaded⟩ := Option.isSome_iff_exists.mp hloaded
  obtain ⟨p, hprocess, hsaved⟩ := Option.bind_eq_some_iff.mp hloaded
  have run := reachable_of_exec hexec
  obtain ⟨-, hload, hstarts⟩ := saves_atomic (by decide) run
  have hthree := hstarts p hprocess saved hsaved
  rw [hlast, Option.getD_some] at hload hthree
  exact ⟨d, run, htmp, hload, p, hprocess, hthree ▸ hsaved⟩

end WazuhOcsf
