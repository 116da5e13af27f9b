import WazuhOcsf.Ledger
import WazuhOcsf.Restart

/-!
# Exactly once across normal stops

A process that is killed may leave rows in ClickHouse that the next one inserts again.  One
that stops by itself leaves none: its loop exits after a last save, and if that save succeeds
nothing was received after it.  So over any number of processes that all stop by themselves,
ClickHouse has the rows of the lines of the file up to the persisted position, each once:
`delivered_once`.
-/

namespace WazuhOcsf

open Lines Transition Trace DbState

variable {ext : Externals} {cfg : AppConfig} {start : TailState}

/-! ## Processes that stop by themselves -/

namespace Ledger

/-- A process ends before its loop starts or when its loop has exited, and its last save
succeeds. -/
def Stops (l : Ledger) : History.Action → Prop
  | .crash => ∀ loop ∈ l.history.currentLoop, loop.pc = .exited
  | .save ok => ∀ loop ∈ l.history.currentLoop, loop.pc = .saving true → ok = true
  | _ => True

instance (l : Ledger) : (a : History.Action) → Decidable (l.Stops a)
  | .crash => inferInstanceAs (Decidable (∀ loop ∈ l.history.currentLoop, loop.pc = .exited))
  | .save ok => inferInstanceAs
      (Decidable (∀ loop ∈ l.history.currentLoop, loop.pc = .saving true → ok = true))
  | .write _ | .truncate _ | .launch _ _ | .lookSize | .lookInode | .enter _ _ | .run _
  | .receive _ => .isTrue trivial

/-- The file is only appended to, and the processes stop by themselves. -/
def KeepsOnce (l : Ledger) (a : History.Action) : Prop := l.KeepsFile a ∧ l.Stops a

/-- The rows that wait in the buffers of the running process. -/
def buffered (l : Ledger) (table : String) : List OcsfRecord :=
  (l.history.currentLoop.map fun loop => loop.batches.rows table).getD []

end Ledger

/-- Once the loop has exited, nothing is received after the last persisted state. -/
def LoopState.Settled (s : LoopState) : Prop := s.pc = .exited → takenSince s.log = []

theorem settled_of_loopStep {startOffset : ℕ} {s s' : LoopState} {a : Action}
    (hinv : LoopInv ext cfg startOffset s) (h : s.Settled)
    (hlast : ∀ inode ok, a = .save inode ok → s.pc = .saving true → ok = true)
    (hstep : step ext cfg s a = some s') : s'.Settled := by
  intro hexit
  cases moves_of_step ext cfg hstep with
  | send m hopen hroom =>
      -- after the exit the channel is closed
      rcases (hinv.drained (.inr (.inr hexit))).2 with hclosed | hclosed
      · rw [hopen.1] at hclosed
        cases hclosed
      · rw [hopen.2] at hclosed
        cases hclosed
  | readerDone => exact h hexit
  | reload mappings => exact h hexit
  | recv env m rest hpc hchannel =>
      cases hrow : (receive ext cfg env s m).row with
      | none =>
          rw [hrow] at hexit
          exact absurd (hpc.symm.trans hexit) (by decide)
      | some row =>
          rw [hrow] at hexit
          dsimp only [bufferRow] at hexit
          split at hexit <;> cases hexit
  | recvClosed env hpc hchannel hclosed => cases hexit
  | tickFlush hpc hpending => cases hexit
  | tickIdle hpc hpending => exact h hexit
  | shutdown hpc => exact absurd (hpc.symm.trans hexit) (by decide)
  | flush env final hpc => cases hexit
  | save inode ok final hpc =>
      cases final with
      | false => cases hexit
      | true =>
          obtain rfl := hlast inode ok rfl hpc
          have hsaved : sinceSave (s.db.record [.saved ⟨inode, s.currentOffset⟩ true]).log = [] :=
            sinceSave_save s.log _
          exact congrArg receivedMessages hsaved

/-! ## The invariant -/

/-- No process that ended has received anything after its last persisted state. -/
structure OnceInv (ext : Externals) (inode first : ℕ) (l : Ledger) : Prop where
  ledger : LedgerInv ext inode first l
  finished : ∀ log ∈ l.finished, takenSince log = []
  settled : ∀ loop ∈ l.history.currentLoop, loop.Settled

/-- A running process of the ledger has the invariants of its run. -/
theorem LedgerInv.running {inode first : ℕ} {l : Ledger} (h : LedgerInv ext inode first l)
    {mode : InputMode} {reader : Reader} {loop : LoopState}
    (hprocess : l.history.process = some ⟨mode, cfg, .running start reader loop⟩) :
    IngestInv ext cfg start ⟨l.history.path, reader, loop⟩ ∧
      CommitInv ext cfg start ⟨l.history.path, reader, loop⟩ ∧
      LinesTo l.history.path.newest.bytes first start.offset
        (l.finished.flatMap committedTexts) := by
  obtain ⟨offset, -, -, hcontinues⟩ := h.stored
  unfold History.Continues at hcontinues
  simp only [hprocess] at hcontinues
  obtain ⟨-, hingest, hcommit, hbefore, -⟩ := hcontinues
  exact ⟨hingest, hcommit, hbefore⟩

theorem History.currentLoop_running {h : History} {mode : InputMode} {reader : Reader}
    {loop : LoopState} (hprocess : h.process = some ⟨mode, cfg, .running start reader loop⟩) :
    h.currentLoop = some loop := by
  rw [History.currentLoop, hprocess]

/-- A step of a running process leaves its loop settled. -/
theorem settled_of_run {mode : InputMode} {s s' : System} {a : System.Action}
    (hinv : LoopInv ext cfg start.offset s.loop) (hsettled : s.loop.Settled)
    (hruns : History.Runs mode a) (hstep : s.step ext cfg start a = some s') : s'.loop.Settled := by
  have hquiet {a' : Action} {loop : LoopState} (hloop : step ext cfg s.loop a' = some loop)
      (hsave : ∀ inode ok, a' ≠ .save inode ok) : loop.Settled :=
    settled_of_loopStep hinv hsettled (fun inode ok heq => absurd heq (hsave inode ok)) hloop
  cases System.moves_of_step ext cfg start hstep with
  | write hwrite => exact hsettled
  | read => exact hsettled
  | readLast hloop | deliverClosed hloop => exact hquiet hloop fun _ _ heq => nomatch heq
  | deliver hmessage hloop => exact hquiet hloop fun _ _ heq => nomatch heq
  | loop ha hloop => exact hquiet hloop fun _ _ heq => by cases ha <;> cases heq
  | save hloop => cases mode <;> cases hruns

/-- Where a step leaves the loop of a process settled. -/
theorem settled_of_moves {h h' : History} {a : History.Action} (hmoves : History.Moves ext h a h')
    (hloops : ∀ mode cfg start reader loop,
      h.process = some ⟨mode, cfg, .running start reader loop⟩ →
        LoopInv ext cfg start.offset loop)
    (hsettled : ∀ loop ∈ h.currentLoop, loop.Settled)
    (hlast : ∀ ok, a = .save ok → ∀ loop ∈ h.currentLoop, loop.pc = .saving true → ok = true) :
    ∀ loop ∈ h'.currentLoop, loop.Settled := by
  -- a process that is started or runs on
  have hmoved {mode : InputMode} {cfg : AppConfig} {start : TailState} {reader : Reader}
      {loop : LoopState} (hloop : loop.Settled) {path : AlertsPath} {stateFile : Option String}
      {log : List Record} :
      ∀ loop' ∈ History.currentLoop ⟨path, stateFile,
        some ⟨mode, cfg, .running start reader loop⟩, log⟩, loop'.Settled := by
    simpa [History.currentLoop] using hloop
  cases hmoves with
  | write hwrite => exact hsettled
  | truncate hlinked => exact hsettled
  | receiveBlank => exact hsettled
  | launch hprocess => simp [History.currentLoop]
  | lookSize hprocess => simp [History.currentLoop]
  | lookInode hprocess hstart hfits => simp [History.currentLoop]
  | crash => simp [History.currentLoop]
  | enter hprocess hearly => exact hmoved fun hexit => by cases hexit
  | enterSaving hprocess hfirst hpos => exact hmoved fun hexit => by cases hexit
  | run hprocess hruns hstep =>
      have hcurrent := hsettled _ (History.currentLoop_running hprocess)
      exact hmoved (settled_of_run (hloops _ _ _ _ _ hprocess) hcurrent hruns hstep)
  | receive hprocess ha hstep =>
      have hcurrent := hsettled _ (History.currentLoop_running hprocess)
      refine hmoved (settled_of_loopStep (hloops _ _ _ _ _ hprocess) hcurrent ?_ hstep)
      rintro inode ok rfl
      rcases ha with ha | ⟨line, ha⟩ <;> cases ha
  | saveFailed hprocess hstep =>
      have hcurrent := History.currentLoop_running hprocess
      refine hmoved (settled_of_loopStep (hloops _ _ _ _ _ hprocess) (hsettled _ hcurrent) ?_ hstep)
      rintro inode ok heq
      cases heq
      exact hlast false rfl _ hcurrent
  | save hprocess hfits hstep =>
      have hcurrent := History.currentLoop_running hprocess
      refine hmoved (settled_of_loopStep (hloops _ _ _ _ _ hprocess) (hsettled _ hcurrent) ?_ hstep)
      rintro inode ok heq
      cases heq
      exact hlast true rfl _ hcurrent

namespace OnceInv

variable {inode first : ℕ} {l l' : Ledger}

theorem step (h : OnceInv ext inode first l) (hreal : inode ≠ 0) {a : History.Action}
    (hkeeps : l.KeepsOnce a) (hstep : l.step ext a = some l') : OnceInv ext inode first l' := by
  have hledger := h.ledger.step hreal hkeeps.1 hstep
  obtain ⟨history, hhistory, rfl⟩ := Option.map_eq_some_iff.mp hstep
  have hloops (mode : InputMode) (cfg : AppConfig) (start : TailState) (reader : Reader)
      (loop : LoopState)
      (hprocess : l.history.process = some ⟨mode, cfg, .running start reader loop⟩) :
      LoopInv ext cfg start.offset loop := (h.ledger.running hprocess).1.loop
  refine ⟨hledger, ?_, settled_of_moves (History.moves_of_step ext hhistory) hloops h.settled ?_⟩
  · cases a with
    | crash =>
        -- the log of the process that ends joins the others
        refine List.forall_mem_append.mpr ⟨h.finished, fun log hlog => ?_⟩
        rw [History.currentLog_eq, Option.mem_toList, Option.map_eq_some_iff] at hlog
        obtain ⟨loop, hloop, rfl⟩ := hlog
        exact h.settled loop hloop (hkeeps.2 loop hloop)
    | _ => exact h.finished
  · rintro ok rfl
    exact hkeeps.2

end OnceInv

/-! ## Rows -/

/-- What was received before the last persisted state. -/
def committedReceptions (log : List Event) : List Reception := receptions (committedLog log)

theorem texts_committedReceptions (logs : List (List Event)) :
    texts ((logs.flatMap committedReceptions).map Reception.message) =
      logs.flatMap committedTexts := by
  rw [List.map_flatMap, texts, List.map_flatMap]
  refine List.flatMap_congr fun log _ => ?_
  rw [committedTexts, receivedMessages_eq]
  rfl

theorem accepted_committedReceptions {logs : List (List Event)}
    (hdelivers : ∀ log ∈ logs, Delivers ext log) (hnone : ∀ log ∈ logs, takenSince log = [])
    (table : String) : logs.flatMap (accepted table) =
      (logs.flatMap committedReceptions).filterMap fun r => r.rowFor table := by
  rw [List.filterMap_flatMap]
  refine List.flatMap_congr fun log hlog => ?_
  rw [(hdelivers log hlog).accepted_eq (hnone log hlog), routed_eq]
  rfl

theorem Delivers.committed {log : List Event} (h : Delivers ext log) :
    ∀ r ∈ committedReceptions log, r.Sound ext := by
  intro r hr
  have hpre : committedLog log <+: log := ⟨_, committedLog_append_sinceSave log⟩
  obtain ⟨cfg, hsound⟩ := h.1
  exact (hsound r ((hpre.filterMap _).subset hr)).2

/-- The lines received so far by all processes, the committed ones of those that ended. -/
def Ledger.receptions (l : Ledger) : List Reception :=
  l.finished.flatMap committedReceptions ++
    (l.history.currentLoop.map fun loop => WazuhOcsf.receptions loop.log).getD []

/-- Over any number of processes that all stop by themselves, on a file that is only appended
to, and with a database that accepts what it is given: at every moment ClickHouse and the
buffers of the running process hold exactly the rows of the lines of the file up to where the
process is, each once and in the order of the file; between two processes, the rows of the
lines up to the persisted position.  The row of a line is made under the configuration of the
process that received it and the mapping table in force then. -/
theorem delivered_once {path : AlertsPath} {offset : ℕ} {l : Ledger}
    (hlinked : path.linked) (hreal : path.newest.inode ≠ 0)
    (hfits : TailState.Fits ⟨path.newest.inode, offset⟩)
    (hsize : offset ≤ path.newest.bytes.length)
    (run : RunWhere (Ledger.step ext) Ledger.KeepsOnce
      (.initial path ⟨path.newest.inode, offset⟩) l) :
    ∃ upto, List.Forall₂ (IsRowOf ext)
        (textLines (between l.history.path.newest.bytes offset upto)) l.receptions ∧
      (∀ table, l.logs.flatMap (accepted table) ++ l.buffered table =
        l.receptions.filterMap fun r => r.rowFor table) ∧
      (∀ log ∈ l.logs, ∃ cfg, ∀ r ∈ receptions log, r.cfg = cfg) ∧
      (∀ loop ∈ l.history.currentLoop, upto = loop.currentOffset) ∧
      (l.history.currentLoop = none →
        StateStore.load l.history.stateFile = ⟨path.newest.inode, upto⟩) := by
  have h : OnceInv ext path.newest.inode offset l := by
    refine run.invariant ⟨.initial hlinked hfits hsize, ?_, ?_⟩ fun _ _ _ h hkeeps hstep =>
      h.step hreal hkeeps hstep
    · exact fun log hlog => absurd hlog List.not_mem_nil
    · exact fun loop hloop => nomatch hloop
  have hfinished := accepted_committedReceptions h.ledger.finished h.finished
  have hcommitted : ∀ r ∈ l.finished.flatMap committedReceptions, r.Sound ext := by
    intro r hr
    obtain ⟨log, hlog, hr⟩ := List.mem_flatMap.mp hr
    exact (h.ledger.finished log hlog).committed r hr
  have hconfig : ∀ log ∈ l.logs, ∃ cfg, ∀ r ∈ receptions log, r.cfg = cfg := by
    intro log hlog
    obtain ⟨-, -, -, -, hdelivers⟩ := h.ledger.lines
    obtain ⟨cfg, hsound⟩ := (hdelivers log hlog).1
    exact ⟨cfg, fun r hr => (hsound r hr).1⟩
  cases hcurrent : l.history.currentLoop with
  | none =>
      have hlogs : l.logs = l.finished := by
        rw [Ledger.logs, History.currentLog_eq, hcurrent]
        exact List.append_nil _
      have hreceptions : l.receptions = l.finished.flatMap committedReceptions := by
        rw [Ledger.receptions, hcurrent]
        exact List.append_nil _
      obtain ⟨upto, hstored, hpersisted, hlines, -⟩ := h.ledger.lines
      refine ⟨upto, ?_, fun table => ?_, hconfig, by simp, fun _ => ?_⟩
      · rw [hlines.texts, hlogs, ← texts_committedReceptions, hreceptions]
        exact rowsOf_of_sound hcommitted
      · rw [hlogs, hfinished, Ledger.buffered, hcurrent, hreceptions]
        exact List.append_nil _
      · rw [hstored, StateStore.load_render hpersisted]
  | some loop =>
      obtain ⟨mode, cfg, start, reader, hprocess⟩ := History.exists_of_currentLoop hcurrent
      obtain ⟨hingest, hcommit, hbefore⟩ := h.ledger.running hprocess
      have hlogs : l.logs = l.finished ++ [loop.log] := by
        rw [Ledger.logs, History.currentLog_eq, hcurrent]
        rfl
      -- where the processes before it ended, this one goes on
      have hlines := hbefore.trans hingest.received
      have hreceived : ∀ r ∈ receptions loop.log, r.Sound ext := fun r hr =>
        (hingest.loop.transformed r hr).2
      have hreceptions : l.receptions =
          l.finished.flatMap committedReceptions ++ receptions loop.log := by
        rw [Ledger.receptions, hcurrent]
        rfl
      rw [hreceptions]
      refine ⟨loop.currentOffset, ?_, fun table => ?_, hconfig, by simp,
        fun hnone => nomatch hnone⟩
      · have htexts : texts ((l.finished.flatMap committedReceptions ++
            receptions loop.log).map Reception.message) =
            l.finished.flatMap committedTexts ++ texts (receivedMessages loop.log) := by
          rw [List.map_append, receivedMessages_eq, ← texts_committedReceptions]
          exact List.map_append
        rw [hlines.texts, ← htexts]
        exact rowsOf_of_sound (List.forall_mem_append.mpr ⟨hcommitted, hreceived⟩)
      · have hrows : accepted table loop.log ++ loop.batches.rows table = routed table loop.log :=
          hcommit.delivered table
        rw [hlogs, List.flatMap_append, List.flatMap_singleton, List.append_assoc,
          Ledger.buffered, hcurrent, Option.map_some, Option.getD_some, hrows, hfinished,
          List.filterMap_append, routed_eq]

/-- A process from its start to its end, with one alert in the file. -/
def stoppingRun : List History.Action :=
  fileRun.take 9 ++ [.run .shutdown, .run (.recv default), .run (.flush default), .save true,
    .crash]

theorem stoppingRun_commits {a : History.Action} (ha : a ∈ stoppingRun) (l : Ledger) :
    l.Commits a := by
  rcases List.mem_append.mp ha with ha | ha
  · exact fileRun_commits (List.mem_of_mem_take ha) l
  · simp only [List.mem_cons, List.not_mem_nil, or_false] at ha
    rcases ha with rfl | rfl | rfl | rfl | rfl
    all_goals first
      | exact trivial
      | exact fun _ _ _ _ _ _ => trivial
      | exact fun _ _ _ _ _ _ _ _ => ⟨.inr rfl, rfl⟩

/-- Two processes with one alert each. -/
def stoppedTwice : List History.Action := stoppingRun ++ oneMoreAlert ++ stoppingRun

theorem delivered_once_twice : ∃ l,
    RunWhere (Ledger.step sampleExternals) Ledger.KeepsOnce (.initial samplePath ⟨1, 0⟩) l ∧
      l.finished.length = 2 ∧ StateStore.load l.history.stateFile = ⟨1, 6⟩ ∧
      List.Forall₂ (IsRowOf sampleExternals) [some sampleLine, some sampleLine] l.receptions ∧
      l.logs.flatMap (accepted sampleTable) ++ l.buffered sampleTable =
        l.receptions.filterMap fun r => r.rowFor sampleTable := by
  have hend : (exec (Ledger.step sampleExternals) (.initial samplePath ⟨1, 0⟩) stoppedTwice).map
      (fun l => (l.finished.length, l.history.currentLoop.isNone, l.history.stateFile,
        textLines (between l.history.path.newest.bytes 0 6))) =
      some (2, true, some (StateStore.render ⟨1, 6⟩), [some sampleLine, some sampleLine]) := by
    decide +kernel
  obtain ⟨l, hexec, hend⟩ := Option.map_eq_some_iff.mp hend
  simp only [Prod.mk.injEq] at hend
  obtain ⟨hfinished, hnone, hstored, htwo⟩ := hend
  have hcommits : EveryStep (Ledger.step sampleExternals) Ledger.Commits
      (.initial samplePath ⟨1, 0⟩) stoppedTwice := by
    refine everyStep_of_forall (fun a ha l => ?_) _
    rcases List.mem_append.mp ha with ha | ha
    · rcases List.mem_append.mp ha with ha | ha
      · exact stoppingRun_commits ha l
      · obtain rfl := List.mem_singleton.mp ha
        trivial
    · exact stoppingRun_commits ha l
  have run : RunWhere (Ledger.step sampleExternals) Ledger.KeepsOnce
      (.initial samplePath ⟨1, 0⟩) l :=
    runWhere_of_exec hexec (EveryStep.and (EveryStep.and (by decide +kernel) hcommits)
      (by decide +kernel))
  obtain ⟨upto, hlines, htables, -, -, hload⟩ :=
    delivered_once (by rfl) (by decide) (by decide) (Nat.zero_le _) run
  have hpersisted := hload (Option.isNone_iff_eq_none.mp hnone)
  have hsix : StateStore.load l.history.stateFile = ⟨1, 6⟩ := by
    rw [hstored, StateStore.load_render (by decide)]
  obtain rfl : upto = 6 := congrArg TailState.offset (hpersisted.symm.trans hsix)
  exact ⟨l, run, hfinished, hsix, htwo ▸ hlines, htables sampleTable⟩

end WazuhOcsf
