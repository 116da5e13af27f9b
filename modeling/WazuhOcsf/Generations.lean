import WazuhOcsf.Ledger
import WazuhOcsf.Restart
import WazuhOcsf.RotatedRows

/-!
# Delivery across crashes and rotations

`Ledger.lean` is about a file that is only appended to, `RotatedRows.lean` about one process.
Here both happen: the log writer rotates the file, and processes are started, killed and started
again.  What a process needs is that the path still names the file of the state it loads, and
that the state it saves is of the file its last line was read from.  Then the lines committed so
far, by all processes, are those of all generations up to the persisted position:
`delivered_across_generations`.
-/

namespace WazuhOcsf

open Lines RustString Transition Trace DbState

variable {ext : Externals} {cfg : AppConfig} {start : TailState}

/-! ## What is assumed of the steps -/

/-- The process is past opening the file. -/
def Stage.Opened : Stage → Prop
  | .running _ reader _ => reader.starts = false
  | _ => False

instance : (stage : Stage) → Decidable stage.Opened
  | .running _ reader _ => inferInstanceAs (Decidable (reader.starts = false))
  | .loaded _ | .sized _ _ | .resolved _ _ _ => .isFalse id

/-- The path names the file the offset of the loop is in: the one of the last line received, or
the one the process started with. -/
def AlertsPath.HasOffsetOf (path : AlertsPath) (start : TailState) (loop : LoopState) : Prop :=
  path.linked ∧ ((receivedMessages loop.log).getLast?.elim (some start.inode) fun m =>
    path.files[m.source]?.map AlertsFile.inode) = some path.newest.inode

instance (path : AlertsPath) (start : TailState) (loop : LoopState) :
    Decidable (path.HasOffsetOf start loop) :=
  inferInstanceAs (Decidable (path.linked ∧ _ = some path.newest.inode))

namespace Ledger

/-- The log writer appends whole lines of text and rotates the file, but not while a process is
about to open it.  A process is started, in file mode, when the path names the file of the
persisted state, opens the next generations cleanly, and persists states of the file its last
line was read from. -/
def Rotates (l : Ledger) : History.Action → Prop
  | .write (.append bytes) => Terminated isNewline bytes ∧ none ∉ textLines bytes
  | .write .rename => ∀ p ∈ l.history.process, p.stage.Opened
  | .write (.create _) => True
  | .truncate _ => False
  | .launch mode _ => mode = .file ∧ l.history.path.linked ∧
      (StateStore.load l.history.stateFile).inode = l.history.path.newest.inode
  | .run a =>
      match l.history.process with
      | some ⟨_, _, .running _ reader loop⟩ => System.Rotates ⟨l.history.path, reader, loop⟩ a
      | _ => True
  | .save true =>
      match l.history.process with
      | some ⟨_, _, .running start _ loop⟩ => l.history.path.HasOffsetOf start loop
      | _ => True
  | _ => True

instance (l : Ledger) : (a : History.Action) → Decidable (l.Rotates a)
  | .write (.append bytes) =>
      inferInstanceAs (Decidable (Terminated isNewline bytes ∧ none ∉ textLines bytes))
  | .write .rename => inferInstanceAs (Decidable (∀ p ∈ l.history.process, p.stage.Opened))
  | .truncate _ => .isFalse id
  | .launch mode _ => inferInstanceAs (Decidable (mode = .file ∧ l.history.path.linked ∧
      (StateStore.load l.history.stateFile).inode = l.history.path.newest.inode))
  | .run a =>
      match hprocess : l.history.process with
      | some ⟨_, _, .running _ reader loop⟩ =>
          decidable_of_iff (System.Rotates ⟨l.history.path, reader, loop⟩ a)
            (by simp [Rotates, hprocess])
      | some ⟨_, _, .loaded _⟩ | some ⟨_, _, .sized _ _⟩ | some ⟨_, _, .resolved _ _ _⟩ | none =>
          .isTrue (by simp [Rotates, hprocess])
  | .save true =>
      match hprocess : l.history.process with
      | some ⟨_, _, .running start _ loop⟩ =>
          decidable_of_iff (l.history.path.HasOffsetOf start loop) (by simp [Rotates, hprocess])
      | some ⟨_, _, .loaded _⟩ | some ⟨_, _, .sized _ _⟩ | some ⟨_, _, .resolved _ _ _⟩ | none =>
          .isTrue (by simp [Rotates, hprocess])
  | .write (.create _) | .lookSize | .lookInode | .enter _ _ | .receive _ | .save false | .crash =>
      .isTrue trivial

/-- And the database accepts what it is given. -/
def KeepsGenerations (l : Ledger) (a : History.Action) : Prop := l.Rotates a ∧ l.Commits a

/-- The lines all processes have committed. -/
def committed (l : Ledger) : List (Option String) := l.logs.flatMap committedTexts

variable {l : Ledger}

theorem committed_running {mode : InputMode} {reader : Reader} {loop : LoopState}
    (hprocess : l.history.process = some ⟨mode, cfg, .running start reader loop⟩) :
    l.committed = l.finished.flatMap committedTexts ++ committedTexts loop.log := by
  simp [committed, logs, History.currentLog, hprocess]

theorem committed_of_none (hnone : l.history.currentLog = none) :
    l.committed = l.finished.flatMap committedTexts := by
  simp [committed, logs, hnone]

end Ledger

/-- No two generations have one inode, so the one with the newest's is the newest. -/
theorem PathInv.eq_newest {first file : ℕ} {path : AlertsPath} (h : PathInv first path)
    (hinside : file ≤ path.older.length)
    (hfile : path.files[file]?.map AlertsFile.inode = some path.newest.inode) :
    file = path.older.length := by
  obtain hlt | rfl := Nat.lt_or_eq_of_le hinside
  · have hmem : path.newest.inode ∈ path.older.map AlertsFile.inode := by
      rw [AlertsPath.files, List.getElem?_append_left hlt, ← List.getElem?_map] at hfile
      exact List.mem_of_getElem? hfile
    exact absurd hmem h.fresh
  · rfl

/-! ## The running process -/

/-- When a state is saved the buffers are empty, so the rows routed before were accepted. -/
theorem rowsSaved_of_step {startOffset : ℕ} {loop loop' : LoopState} {a : Action}
    (h : LoopInv ext cfg startOffset loop) (hdelivered : Delivered loop)
    (hsaved : Guarded RowsSaved loop.log) (hstep : step ext cfg loop a = some loop') :
    Guarded RowsSaved loop'.log := by
  by_cases hsave : ∃ inode ok, a = .save inode ok
  · obtain ⟨inode, ok, rfl⟩ := hsave
    obtain ⟨⟨final, hpc⟩, hlog⟩ := log_of_save hstep
    rw [hlog]
    refine guarded_concat.mpr ⟨hsaved, fun table => ?_⟩
    rw [← hdelivered table, h.flushed (.inl ⟨final, hpc⟩) table, List.append_nil]
  · refine guarded_of_step hstep (fun e he before => ?_) hsaved fun inode ok heq =>
      hsave ⟨inode, ok, heq⟩
    cases e with
    | saved state ok => cases he
    | _ => trivial

/-- A process that runs behind the lines `earlier`. -/
structure Follower (ext : Externals) (cfg : AppConfig) (first : ℕ) (earlier : List (Option String))
    (start : TailState) (s : System) : Prop where
  rotated : RotatedInv ext cfg first earlier start s
  saved : Guarded RowsSaved s.loop.log

namespace Follower

variable {first : ℕ} {earlier : List (Option String)} {s s' : System}

theorem step (h : Follower ext cfg first earlier start s) {a : System.Action}
    (hkeeps : s.KeepsRotating a) (hstep : s.step ext cfg start a = some s') :
    Follower ext cfg first earlier start s' := by
  have hmore {a' : Action} {loop : LoopState}
      (hloop : WazuhOcsf.step ext cfg s.loop a' = some loop) : Guarded RowsSaved loop.log :=
    rowsSaved_of_step h.rotated.loop h.rotated.delivered h.saved hloop
  refine ⟨h.rotated.step hkeeps hstep, ?_⟩
  cases System.moves_of_step ext cfg start hstep with
  | write | read => exact h.saved
  | readLast hloop | deliverClosed hloop => exact hmore hloop
  | deliver hmessage hloop => exact hmore hloop
  | loop ha hloop => exact hmore hloop
  | save hloop => exact hmore hloop

theorem save {path : AlertsPath} {reader : Reader} {loop loop' : LoopState} {ok : Bool}
    (h : Follower ext cfg first earlier start ⟨path, reader, loop⟩)
    (hstep : WazuhOcsf.step ext cfg loop (.save path.currentInode ok) = some loop') :
    Follower ext cfg first earlier start ⟨path, reader, loop'⟩ := by
  have hkeeps : System.KeepsRotating ⟨path, reader, loop⟩ (.save ok) :=
    ⟨trivial, fun _ heq => nomatch heq⟩
  exact h.step hkeeps (step_save hstep)

theorem delivers (h : Follower ext cfg first earlier start s) : Delivers ext s.loop.log :=
  delivers_of_guarded h.rotated.loop h.rotated.delivered h.saved

/-- The lines received end at the current offset, in the file the path names. -/
theorem received (h : Follower ext cfg first earlier start s)
    (hoffset : s.path.HasOffsetOf start s.loop) :
    LinesUpTo first s.path s.path.older.length s.loop.currentOffset
      (earlier ++ texts (receivedMessages s.loop.log)) := by
  have hpre : receivedMessages s.loop.log <+: sentMessages s.loop.log := by
    rw [← h.rotated.loop.channel]
    exact List.prefix_append _ _
  obtain ⟨file, hlines, hfile⟩ := h.rotated.files.linesUpTo hpre
  rw [hoffset.2] at hfile
  rw [h.rotated.loop.offset]
  exact h.rotated.files.path.eq_newest hlines.inside hfile ▸ hlines

end Follower

/-! ## The invariant -/

/-- The path names the file of the state. -/
def AlertsPath.Names (path : AlertsPath) (state : TailState) : Prop :=
  path.linked ∧ state.inode = path.newest.inode

/-- A process that starts from the persisted state `saved`, behind the lines `earlier`. -/
def Stage.Resumes (ext : Externals) (path : AlertsPath) (first : ℕ) (saved : TailState)
    (earlier : List (Option String)) (cfg : AppConfig) : Stage → Prop
  | .loaded state => state = saved ∧ path.Names saved
  | .sized state fileSize => state = saved ∧ path.Names saved ∧ saved.offset ≤ fileSize
  | .resolved state _ start => state = saved ∧ path.Names saved ∧ start = saved
  | .running start reader loop => Follower ext cfg first earlier start ⟨path, reader, loop⟩

/-- The persisted state is `saved`, its position is in the generation `file`, and up to there go
the lines that were committed. -/
structure Ledger.Stored (ext : Externals) (first : ℕ) (l : Ledger) (file : ℕ) (saved : TailState) :
    Prop where
  stateFile : l.history.stateFile = some (StateStore.render saved)
  fits : saved.Fits
  inode : l.history.path.files[file]?.map AlertsFile.inode = some saved.inode
  lines : LinesUpTo first l.history.path file saved.offset l.committed
  process : ∀ p ∈ l.history.process, p.mode = .file ∧
    p.stage.Resumes ext l.history.path first saved (l.finished.flatMap committedTexts) p.cfg

/-- What a ledger keeps over rotations: each process delivers what it commits, and the persisted
position is one of the generation it names. -/
structure GenerationsInv (ext : Externals) (first : ℕ) (l : Ledger) : Prop where
  path : PathInv first l.history.path
  real : l.history.path.newest.inode ≠ 0
  finished : ∀ log ∈ l.finished, Delivers ext log
  stored : ∃ file saved, l.Stored ext first file saved

theorem AlertsPath.Names.eq_mk {path : AlertsPath} {state : TailState} (h : path.Names state) :
    state = ⟨path.newest.inode, state.offset⟩ := by
  rw [← h.2]

theorem AlertsPath.Names.write {path path' : AlertsPath} {state : TailState}
    (h : path.Names state) {op : Write} (hrename : op ≠ .rename)
    (hwrite : path.write op = some path') : path'.Names state := by
  cases op with
  | append bytes =>
      obtain ⟨hlinked, hwrite⟩ := Option.ite_none_right_eq_some.mp hwrite
      obtain rfl := Option.some.inj hwrite
      exact ⟨hlinked, h.2⟩
  | rename => exact absurd rfl hrename
  | create inode =>
      -- the path names a file still
      obtain ⟨⟨hfree, -⟩, -⟩ := Option.ite_none_right_eq_some.mp hwrite
      exact absurd h.1 (by simp [hfree])

namespace Stage.Resumes

variable {first : ℕ} {path path' : AlertsPath} {saved : TailState}
  {earlier : List (Option String)}

theorem write {stage : Stage} (h : stage.Resumes ext path first saved earlier cfg) {op : Write}
    (happend : ∀ bytes, op = .append bytes → Terminated isNewline bytes ∧ none ∉ textLines bytes)
    (hrename : op = .rename → stage.Opened) (hwrite : path.write op = some path') :
    stage.Resumes ext path' first saved earlier cfg := by
  -- before the file is open it is not renamed
  have hnames (hstays : ¬ stage.Opened) (h : path.Names saved) : path'.Names saved :=
    h.write (fun heq => hstays (hrename heq)) hwrite
  cases stage with
  | loaded state => exact ⟨h.1, hnames id h.2⟩
  | sized state fileSize => exact ⟨h.1, hnames id h.2.1, h.2.2⟩
  | resolved state fileSize start => exact ⟨h.1, hnames id h.2.1, h.2.2⟩
  | running start reader loop =>
      have hrotates : System.Rotates ⟨path, reader, loop⟩ (.write op) := by
        cases op with
        | append bytes => exact happend bytes rfl
        | rename => exact hrename rfl
        | create inode => trivial
      have hstep : System.step ext cfg start ⟨path, reader, loop⟩ (.write op) =
          some ⟨path', reader, loop⟩ := by
        simp [System.step, hwrite]
      have haccepts : System.Accepts ⟨path, reader, loop⟩ (.write op) := by
        intro env heq
        cases heq
      exact Follower.step h ⟨hrotates, haccepts⟩ hstep

end Stage.Resumes

namespace GenerationsInv

variable {first : ℕ} {l l' : Ledger}

theorem write (h : GenerationsInv ext first l) {op : Write} {path : AlertsPath}
    (hrotates : l.Rotates (.write op)) (hwrite : l.history.path.write op = some path) :
    GenerationsInv ext first ⟨{ l.history with path := path }, l.finished⟩ := by
  have hext := AlertsPath.extends_of_write hwrite
  have happend : ∀ bytes, op = .append bytes →
      Terminated isNewline bytes ∧ none ∉ textLines bytes := by
    rintro bytes rfl
    exact hrotates
  have hrename : op = .rename → ∀ p ∈ l.history.process, p.stage.Opened := by
    rintro rfl
    exact hrotates
  have hkeeps : KeepsUp ⟨l.history.path, .stopped, []⟩ (.write op) := by
    cases op with
    | append bytes => exact happend bytes rfl
    | rename | create => trivial
  obtain ⟨file, saved, hstored⟩ := h.stored
  refine ⟨h.path.write hkeeps hwrite, ?_, h.finished, file, saved, hstored.stateFile,
    hstored.fits, (hext.inode hstored.lines.inside).trans hstored.inode,
    hstored.lines.of_extends hext, fun p hp => ?_⟩
  · cases op with
    | append bytes | rename =>
        obtain ⟨-, hwrite⟩ := Option.ite_none_right_eq_some.mp hwrite
        obtain rfl := Option.some.inj hwrite
        exact h.real
    | create inode =>
        obtain ⟨hguard, hwrite⟩ := Option.ite_none_right_eq_some.mp hwrite
        obtain rfl := Option.some.inj hwrite
        exact hguard.2.1
  · obtain ⟨hmode, hresumes⟩ := hstored.process p hp
    exact ⟨hmode, hresumes.write happend (fun heq => hrename heq p hp) hwrite⟩

/-- The lines committed end at the persisted position of the file the path names. -/
theorem newest (h : GenerationsInv ext first l) {file : ℕ} {saved : TailState}
    (hstored : l.Stored ext first file saved) (hnames : l.history.path.Names saved) :
    LinesUpTo first l.history.path l.history.path.older.length saved.offset l.committed := by
  have hfile := hstored.inode
  rw [hnames.2] at hfile
  exact h.path.eq_newest hstored.lines.inside hfile ▸ hstored.lines

/-- The process goes on without touching the file or the state file, and commits nothing. -/
theorem withProcess (h : GenerationsInv ext first l) {process : Option Process}
    (hcommitted : Ledger.committed ⟨{ l.history with process := process }, l.finished⟩ =
      l.committed)
    (hprocess : ∀ file saved, l.Stored ext first file saved → ∀ p ∈ process, p.mode = .file ∧
      p.stage.Resumes ext l.history.path first saved (l.finished.flatMap committedTexts) p.cfg) :
    GenerationsInv ext first ⟨{ l.history with process := process }, l.finished⟩ := by
  obtain ⟨file, saved, hstored⟩ := h.stored
  exact ⟨h.path, h.real, h.finished, file, saved, hstored.stateFile, hstored.fits, hstored.inode,
    hcommitted ▸ hstored.lines, hprocess file saved hstored⟩

/-- A process on its way to its loop. -/
theorem starting (h : GenerationsInv ext first l) {p : Process}
    (hnone : l.history.currentLog = none)
    (hloop : History.currentLog { l.history with process := some p } = none)
    (hprocess : ∀ file saved, l.Stored ext first file saved → p.mode = .file ∧
      p.stage.Resumes ext l.history.path first saved (l.finished.flatMap committedTexts) p.cfg) :
    GenerationsInv ext first ⟨{ l.history with process := some p }, l.finished⟩ := by
  refine h.withProcess ?_ fun file saved hstored p' hp => ?_
  · rw [Ledger.committed_of_none hnone]
    exact Ledger.committed_of_none hloop
  · obtain rfl := Option.some.inj hp
    exact hprocess file saved hstored

/-- The process that runs. -/
theorem follower (h : GenerationsInv ext first l) {mode : InputMode} {reader : Reader}
    {loop : LoopState} (hprocess : l.history.process = some ⟨mode, cfg, .running start reader loop⟩) :
    mode = .file ∧ Follower ext cfg first (l.finished.flatMap committedTexts) start
      ⟨l.history.path, reader, loop⟩ := by
  obtain ⟨file, saved, hstored⟩ := h.stored
  exact hstored.process _ hprocess

/-- Every process has delivered the rows of what it has committed. -/
theorem delivers (h : GenerationsInv ext first l) : ∀ log ∈ l.logs, Delivers ext log := by
  refine List.forall_mem_append.mpr ⟨h.finished, fun log hlog => ?_⟩
  rw [Option.mem_toList, History.currentLog_eq, Option.map_eq_some_iff] at hlog
  obtain ⟨loop, hloop, rfl⟩ := hlog
  obtain ⟨mode, cfg, start, reader, hprocess⟩ := History.exists_of_currentLoop hloop
  exact (h.follower hprocess).2.delivers

/-- A step of the running process that persists nothing. -/
theorem running (h : GenerationsInv ext first l) {mode : InputMode} {reader reader' : Reader}
    {loop loop' : LoopState}
    (hprocess : l.history.process = some ⟨mode, cfg, .running start reader loop⟩)
    (hafter : Follower ext cfg first (l.finished.flatMap committedTexts) start
      ⟨l.history.path, reader', loop'⟩)
    (hcommitted : committedTexts loop'.log = committedTexts loop.log) :
    GenerationsInv ext first
      ⟨{ l.history with process := some ⟨mode, cfg, .running start reader' loop'⟩ }, l.finished⟩ := by
  refine h.withProcess ?_ fun file saved hstored p hp => ?_
  · rw [Ledger.committed_running hprocess, Ledger.committed_running rfl, hcommitted]
  · obtain rfl := Option.some.inj hp
    exact ⟨(h.follower hprocess).1, hafter⟩

/-- A persisted state commits every line received. -/
theorem save (h : GenerationsInv ext first l) {mode : InputMode} {reader : Reader}
    {loop loop' : LoopState}
    (hprocess : l.history.process = some ⟨mode, cfg, .running start reader loop⟩)
    (hoffset : l.history.path.HasOffsetOf start loop)
    (hfits : TailState.Fits ⟨l.history.path.currentInode, loop.currentOffset⟩)
    (hstep : step ext cfg loop (.save l.history.path.currentInode true) = some loop') :
    GenerationsInv ext first ⟨{ l.history with
      stateFile := some (StateStore.render ⟨l.history.path.currentInode, loop.currentOffset⟩)
      process := some ⟨mode, cfg, .running start reader loop'⟩
      log := l.history.log ++ [.persisted ⟨l.history.path.currentInode, loop.currentOffset⟩] },
      l.finished⟩ := by
  obtain ⟨hmode, hfollower⟩ := h.follower hprocess
  have hinode : l.history.path.currentInode = l.history.path.newest.inode := by
    rw [AlertsPath.currentInode, AlertsPath.current_of_linked _ hoffset.1]
    rfl
  have hcommitted : committedTexts loop'.log = texts (receivedMessages loop.log) := by
    rw [(log_of_save hstep).2, committedTexts, committedLog_save, receivedMessages,
      List.filterMap_append]
    exact congrArg texts (List.append_nil _)
  refine ⟨h.path, h.real, h.finished, l.history.path.older.length, _, rfl, hfits, ?_, ?_, ?_⟩
  · rw [AlertsPath.getElem?_files_newest, hinode]
    rfl
  · rw [Ledger.committed_running rfl, hcommitted]
    exact hfollower.received hoffset
  · intro p hp
    obtain rfl := Option.some.inj hp
    exact ⟨hmode, hfollower.save hstep⟩

/-- The log of the process that ends joins the others. -/
theorem crash (h : GenerationsInv ext first l) :
    GenerationsInv ext first ⟨{ l.history with process := none }, l.logs⟩ := by
  obtain ⟨file, saved, hstored⟩ := h.stored
  refine ⟨h.path, h.real, fun log hlog => ?_, file, saved, hstored.stateFile, hstored.fits,
    hstored.inode, ?_, fun p hp => nomatch hp⟩
  · exact h.delivers log hlog
  · rw [Ledger.committed_of_none rfl]
    exact hstored.lines

/-- What a step does to the process, when it is not the end of it. -/
theorem of_moves (h : GenerationsInv ext first l) {a : History.Action} {history : History}
    (hkeeps : l.KeepsGenerations a) (hcrash : a ≠ .crash)
    (hmoves : History.Moves ext l.history a history) :
    GenerationsInv ext first ⟨history, l.finished⟩ := by
  cases hmoves with
  | write hwrite => exact h.write hkeeps.1 hwrite
  | truncate hlinked => exact hkeeps.1.elim
  | @launch mode cfg hprocess =>
      obtain ⟨hfile, hlinked, hinode⟩ := hkeeps.1
      refine h.starting (by rw [History.currentLog, hprocess]) rfl fun file saved hstored => ?_
      rw [hstored.stateFile, StateStore.load_render hstored.fits] at hinode ⊢
      exact ⟨hfile, rfl, hlinked, hinode⟩
  | lookSize hprocess =>
      refine h.starting (by rw [History.currentLog, hprocess]) rfl fun file saved hstored => ?_
      obtain ⟨hmode, hsaved, hnames⟩ := hstored.process _ hprocess
      have hsize := (h.newest hstored hnames).size
      rw [AlertsPath.bytes_newest] at hsize
      refine ⟨hmode, hsaved, hnames, ?_⟩
      rw [AlertsPath.currentSize, AlertsPath.current_of_linked _ hnames.1]
      exact hsize
  | lookInode hprocess hstart hfits =>
      refine h.starting (by rw [History.currentLog, hprocess]) rfl fun file saved hstored => ?_
      obtain ⟨hmode, rfl, hnames, hsize⟩ := hstored.process _ hprocess
      refine ⟨hmode, rfl, hnames, ?_⟩
      rw [hstart, hnames.eq_mk, resolveStart_persisted hnames.1 h.real hsize]
  | @enter mode cfg saved start fileSize ok mappings hprocess hearly =>
      have hnone : l.history.currentLog = none := by rw [History.currentLog, hprocess]
      refine h.withProcess ?_ fun file saved hstored p hp => ?_
      · rw [Ledger.committed_of_none hnone, Ledger.committed_running rfl]
        exact List.append_nil _
      · obtain rfl := Option.some.inj hp
        obtain ⟨rfl, rfl, hnames, rfl⟩ := hstored.process _ hprocess
        have hlines := h.newest hstored hnames
        rw [Ledger.committed_of_none hnone] at hlines
        exact ⟨rfl, ⟨loopInv_initial _ _, delivered_initial _ _,
          .initial hnames.1 hnames.2 h.path hlines mappings⟩, guarded_nil⟩
  | enterSaving hprocess hfirst hpos =>
      obtain ⟨file, saved, hstored⟩ := h.stored
      obtain ⟨-, rfl, hnames, -⟩ := hstored.process _ hprocess
      -- the early save is for a first run, and there is a persisted state
      exact absurd (hnames.2.symm.trans hfirst.2) h.real
  | @run mode cfg start reader loop a s hprocess hruns hstep =>
      have hrotates := hkeeps.1
      simp only [Ledger.Rotates, hprocess] at hrotates
      have hcommits : Committing ⟨l.history.path, reader, loop⟩ a := hkeeps.2 _ _ _ _ _ hprocess
      obtain ⟨rfl, hfollower⟩ := h.follower hprocess
      obtain ⟨hpath, hcommitted⟩ := committedTexts_of_run hruns hstep
      obtain ⟨path, reader', loop'⟩ := s
      obtain rfl := hpath
      refine h.running hprocess (hfollower.step ⟨hrotates, ?_⟩ hstep) hcommitted
      rintro env rfl
      exact hcommits
  | receiveBlank => exact h
  | receive hprocess ha hstep =>
      -- no process here is in ZeroMQ mode
      exact absurd (h.follower hprocess).1 (by decide)
  | saveFailed hprocess hstep =>
      refine h.running hprocess ((h.follower hprocess).2.save hstep) ?_
      rw [(log_of_save hstep).2, committedTexts,
        committedLog_append (by simp [Event.persistedState])]
      rfl
  | @save mode cfg start reader loop loop' hprocess hsaved hstep =>
      have hoffset := hkeeps.1
      simp only [Ledger.Rotates, hprocess] at hoffset
      exact h.save hprocess hoffset hsaved hstep
  | crash => exact absurd rfl hcrash

theorem step (h : GenerationsInv ext first l) {a : History.Action}
    (hkeeps : l.KeepsGenerations a) (hstep : l.step ext a = some l') :
    GenerationsInv ext first l' := by
  obtain ⟨history, hhistory, rfl⟩ := Option.map_eq_some_iff.mp hstep
  have hmoves := History.moves_of_step ext hhistory
  by_cases hcrash : a = .crash
  · subst hcrash
    cases hmoves with
    | crash => exact h.crash
  · have hnext := h.of_moves hkeeps hcrash hmoves
    cases a with
    | crash => exact absurd rfl hcrash
    | _ => exact hnext

theorem initial {path : AlertsPath} {offset : ℕ} (hnew : path.older = [])
    (hreal : path.newest.inode ≠ 0) (hfits : TailState.Fits ⟨path.newest.inode, offset⟩)
    (hsize : offset ≤ path.newest.bytes.length)
    (hwhole : Terminated isNewline (path.newest.bytes.drop offset))
    (hvalid : none ∉ textLines (path.newest.bytes.drop offset)) :
    GenerationsInv ext offset (.initial path ⟨path.newest.inode, offset⟩) := by
  refine ⟨pathInv_single hnew hsize hwhole hvalid, hreal,
    fun log hlog => absurd hlog List.not_mem_nil,
    path.older.length, _, rfl, hfits, ?_, .none hnew hsize, fun p hp => nomatch hp⟩
  rw [Ledger.initial, History.initial, path.getElem?_files_newest]
  rfl

/-- What the running process has received goes on where the processes before it stopped. -/
theorem received_isPrefix (h : GenerationsInv ext first l) {loop : LoopState}
    (hloop : l.history.currentLoop = some loop) :
    l.finished.flatMap committedTexts ++ texts (receivedMessages loop.log) <+:
      textLines (l.history.path.written first) := by
  obtain ⟨mode, cfg, start, reader, hprocess⟩ := History.exists_of_currentLoop hloop
  have hrotated := (h.follower hprocess).2.rotated
  refine List.IsPrefix.trans ?_ hrotated.files.texts_isPrefix
  have hchannel : receivedMessages loop.log ++ loop.channel = sentMessages loop.log :=
    hrotated.loop.channel
  rw [List.prefix_append_right_inj]
  dsimp only
  rw [← hchannel, texts, texts, List.map_append]
  exact List.prefix_append _ _

end GenerationsInv

/-! ## Delivery -/

/-- Over any number of starts and crashes, and of rotations in between, with saves that may fail:
what the processes have committed, one behind the other, is every line of the generations up to
the persisted position, each once and in order, and a running process goes on from there.  For
each process ClickHouse has the rows of the lines it has committed, and beyond them only rows of
lines it received.  As in a history, a flush is one step. -/
theorem delivered_across_generations {path : AlertsPath} {offset : ℕ} {l : Ledger}
    (hnew : path.older = []) (hreal : path.newest.inode ≠ 0)
    (hfits : TailState.Fits ⟨path.newest.inode, offset⟩)
    (hsize : offset ≤ path.newest.bytes.length)
    (hwhole : Terminated isNewline (path.newest.bytes.drop offset))
    (hvalid : none ∉ textLines (path.newest.bytes.drop offset))
    (run : RunWhere (Ledger.step ext) Ledger.KeepsGenerations
      (.initial path ⟨path.newest.inode, offset⟩) l) :
    ∃ file persisted, StateStore.load l.history.stateFile = persisted ∧
      l.history.path.files[file]?.map AlertsFile.inode = some persisted.inode ∧
      l.committed = textLines ((l.history.path.upTo file persisted.offset).drop offset) ∧
      (∀ loop ∈ l.history.currentLoop,
        l.finished.flatMap committedTexts ++ texts (receivedMessages loop.log) <+:
          textLines (l.history.path.written offset)) ∧
      ∀ log ∈ l.logs, Delivers ext log := by
  have h : GenerationsInv ext offset l :=
    run.invariant (.initial hnew hreal hfits hsize hwhole hvalid) fun _ _ _ h hkeeps hstep =>
      h.step hkeeps hstep
  obtain ⟨file, persisted, hstored⟩ := h.stored
  refine ⟨file, persisted, ?_, hstored.inode, hstored.lines.texts.symm,
    fun loop hloop => h.received_isPrefix hloop, h.delivers⟩
  rw [hstored.stateFile, StateStore.load_render hstored.fits]

/-- The file is rotated behind the first alert. -/
def rotation : List History.Action :=
  [.run .read, .write .rename, .write (.create 2)] ++ oneMoreAlert ++
    [.run .read, .run .read, .run .read, .run .read]

/-- A second alert comes after the rotation, and a third after the process was killed. -/
def rotatedHistory : List History.Action :=
  fileRun ++ rotation ++ fileRun.drop 7 ++ [.crash] ++ oneMoreAlert ++ fileRun

theorem rotatedHistory_commits (l : Ledger) :
    EveryStep (Ledger.step sampleExternals) Ledger.Commits l rotatedHistory := by
  refine everyStep_of_forall (fun a ha l => ?_) l
  simp only [rotatedHistory, List.mem_append] at ha
  rcases ha with ((((ha | ha) | ha) | ha) | ha) | ha
  · exact fileRun_commits ha l
  · simp only [rotation, oneMoreAlert, List.mem_append, List.mem_cons, List.not_mem_nil,
      or_false] at ha
    rcases ha with ((rfl | rfl | rfl) | rfl) | rfl | rfl | rfl | rfl
    all_goals first
      | exact trivial
      | exact fun _ _ _ _ _ _ => trivial
  · exact fileRun_commits (List.mem_of_mem_drop ha) l
  · obtain rfl := List.mem_singleton.mp ha
    trivial
  · obtain rfl := List.mem_singleton.mp ha
    trivial
  · exact fileRun_commits ha l

theorem delivered_across_generations_three : ∃ l,
    RunWhere (Ledger.step sampleExternals) Ledger.KeepsGenerations (.initial samplePath ⟨1, 0⟩) l ∧
      l.finished.length = 1 ∧ StateStore.load l.history.stateFile = ⟨2, 6⟩ ∧
      l.committed = [some sampleLine, some sampleLine, some sampleLine] ∧
      ∃ file, l.history.path.files[file]?.map AlertsFile.inode = some 2 ∧
        l.committed = textLines ((l.history.path.upTo file 6).drop 0) := by
  have hend : (exec (Ledger.step sampleExternals) (.initial samplePath ⟨1, 0⟩) rotatedHistory).map
      (fun l => (l.finished.length, l.history.stateFile, l.committed)) =
      some (1, some (StateStore.render ⟨2, 6⟩),
        [some sampleLine, some sampleLine, some sampleLine]) := by
    decide +kernel
  obtain ⟨l, hexec, hend⟩ := Option.map_eq_some_iff.mp hend
  simp only [Prod.mk.injEq] at hend
  obtain ⟨hfinished, hstored, hcommitted⟩ := hend
  have run : RunWhere (Ledger.step sampleExternals) Ledger.KeepsGenerations
      (.initial samplePath ⟨1, 0⟩) l :=
    runWhere_of_exec hexec (EveryStep.and (by decide +kernel) (rotatedHistory_commits _))
  have hload : StateStore.load l.history.stateFile = ⟨2, 6⟩ := by
    rw [hstored, StateStore.load_render (by decide)]
  obtain ⟨file, persisted, hpersisted, hfile, hlines, -⟩ := delivered_across_generations rfl
    (by decide) (by decide) (Nat.zero_le _) (by decide +kernel) (by decide +kernel) run
  obtain rfl := hload.symm.trans hpersisted
  exact ⟨l, run, hfinished, hload, hcommitted, file, hfile, hlines⟩

end WazuhOcsf
