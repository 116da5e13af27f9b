import WazuhOcsf.RotatedRows
import WazuhOcsf.Shutdown

/-!
# Catching up

The reader alone comes to the end of what was written (`completes`), with a receiver that takes
every line.  The main loop is such a receiver: from wherever it is it empties the channel
(`exists_idle`), so that each step of the reader alone is a few steps of the process
(`exists_read`).  So from every state in which it is not shutting down the process can, by
itself, deliver every line there is: `rows_catch_up`.
-/

namespace WazuhOcsf

open Lines RustString Transition Trace DbState

variable {ext : Externals} {cfg : AppConfig} {start : TailState}

/-- Only the signal starts the shutdown. -/
theorem shuttingDown_of_step {s s' : LoopState} {a : Action} (hstep : step ext cfg s a = some s')
    (hne : a ≠ .shutdown) : s'.shuttingDown = s.shuttingDown := by
  cases moves_of_step ext cfg hstep with
  | shutdown hpc => exact absurd rfl hne
  | recv env m rest hpc hchannel =>
      cases hrow : (receive ext cfg env s m).row with
      | none => rfl
      | some row => rfl
  | _ => rfl

/-! ## What the loop can do -/

theorem exists_flush {s : LoopState} {final : Bool} (hpc : s.pc = .flushing final) :
    ∃ s', step ext cfg s (.flush default) = some s' ∧ s'.pc = .saving final ∧
      s'.channel = s.channel := by
  simp only [step, hpc]
  exact ⟨_, rfl, rfl, rfl⟩

theorem exists_save {s : LoopState} (hpc : s.pc = .saving false) (inode : ℕ) :
    ∃ s', step ext cfg s (.save inode true) = some s' ∧ s'.pc = .selecting ∧
      s'.channel = s.channel ∧ s'.batches = s.batches := by
  simp only [step, hpc]
  exact ⟨_, rfl, rfl, rfl, rfl⟩

theorem exists_recv {s : LoopState} (hpc : s.pc = .selecting) {m : Message} {rest : List Message}
    (hchannel : s.channel = m :: rest) :
    ∃ s', step ext cfg s (.recv default) = some s' ∧ s'.channel = rest := by
  simp only [step, hpc, if_true, hchannel]
  exact ⟨_, rfl, bufferRow_channel ..⟩

theorem exists_tick {s : LoopState} (hpc : s.pc = .selecting) (hpending : 0 < s.pending) :
    ∃ s', step ext cfg s .tick = some s' ∧ s'.pc = .flushing false ∧ s'.channel = s.channel := by
  simp only [step, hpc, if_true, if_pos hpending]
  exact ⟨_, rfl, rfl, rfl⟩

theorem exists_send {s : LoopState} (hopen : s.shuttingDown = false ∧ s.senderGone = false)
    (hroom : s.channel.length < cfg.channelCap) (m : Message) :
    ∃ s', step ext cfg s (.send m) = some s' := by
  simp only [step, hopen.1, hopen.2, hroom]
  exact ⟨_, rfl⟩

/-- Without pending rows no buffer has any. -/
theorem rows_of_pending {s : LoopState} (hpending : s.pending = 0) (table : String) :
    s.batches.rows table = [] := by
  cases hget : s.batches.get table with
  | none => rw [BatchMap.rows, hget, Option.getD_none]
  | some rows =>
      have hmem := (HashMap.get_eq_some_iff s.batches).mp hget
      have hzero := List.sum_eq_zero_iff_forall_eq_nat.mp hpending rows.length
        (List.mem_map.mpr ⟨(table, rows), hmem, rfl⟩)
      rw [BatchMap.rows, hget, Option.getD_some, List.eq_nil_of_length_eq_zero hzero]

/-- A reader on the generations has not stopped. -/
theorem TailInv.ne_stopped {first : ℕ} {w : Watch} (h : TailInv first w) :
    w.reader ≠ .stopped := by
  intro hstopped
  have hreader := h.reader
  rw [hstopped] at hreader
  cases hreader

/-- Once a line is handed over, the file is open still. -/
theorem Reader.isSome_tailer_sent {reader : Reader} {m : Message}
    (hmessage : reader.message = some m) : reader.sent.tailer.isSome := by
  cases reader with
  | sending t line => rfl
  | _ => cases hmessage

namespace System

/-- A step of the reader or of the loop, with a database that accepts what it is given. -/
def Alone (s : System) (a : System.Action) : Prop :=
  s.KeepsRotating a ∧ match a with
    | .read | .deliver | .recv _ | .tick | .flush _ | .save _ => True
    | .write _ | .reload _ | .shutdown => False

/-- The reader is on the generations, and the process is not shutting down. -/
structure Live (ext : Externals) (cfg : AppConfig) (start : TailState) (s : System) : Prop where
  rotated : RotatedInv ext cfg start.offset [] start s
  sound : s.Sound ext cfg start.offset
  tail : TailInv start.offset s.watch
  running : s.loop.shuttingDown = false

namespace Live

variable {s s' : System}

theorem sender (h : Live ext cfg start s) : s.loop.senderGone = false := by
  cases hgone : s.loop.senderGone with
  | false => rfl
  | true => exact absurd (h.sound.sender hgone) h.tail.ne_stopped

/-- The loop has not exited, and is not about to. -/
theorem not_final (h : Live ext cfg start s) :
    s.loop.pc ≠ .flushing true ∧ s.loop.pc ≠ .saving true ∧ s.loop.pc ≠ .exited := by
  have hdrained := h.rotated.loop.drained
  rw [h.running, h.sender] at hdrained
  simp only [Bool.false_eq_true, or_false, and_false, imp_false, not_or] at hdrained
  exact hdrained

/-- A step of the loop that is neither a line sent nor the signal. -/
theorem onLoop (h : Live ext cfg start s) {a : System.Action} {a' : WazuhOcsf.Action} {loop : LoopState}
    (halone : s.Alone a) (hstep : s.step ext cfg start a = some { s with loop := loop })
    (hloop : WazuhOcsf.step ext cfg s.loop a' = some loop) (hsend : ∀ m, a' ≠ .send m)
    (hshutdown : a' ≠ .shutdown) : Live ext cfg start { s with loop := loop } where
  rotated := h.rotated.step halone.1 hstep
  sound := h.sound.step hstep
  tail := by
    have hsent := sentMessages_of_step hloop hsend
    have hwatch : System.watch { s with loop := loop } = s.watch :=
      congrArg (Watch.mk s.path s.reader) hsent
    exact hwatch ▸ h.tail
  running := (shuttingDown_of_step hloop hshutdown).trans h.running

/-- The loop takes one step. -/
theorem run_onLoop (h : Live ext cfg start s) {a : System.Action} {a' : WazuhOcsf.Action}
    {loop : LoopState} (hloop : WazuhOcsf.step ext cfg s.loop a' = some loop)
    (hstep : s.step ext cfg start a = some { s with loop := loop }) (halone : s.Alone a)
    (hsend : ∀ m, a' ≠ .send m) (hshutdown : a' ≠ .shutdown) :
    Live ext cfg start { s with loop := loop } ∧
      RunWhere (System.step ext cfg start) Alone s { s with loop := loop } ∧
      System.watch { s with loop := loop } = s.watch := by
  refine ⟨h.onLoop halone hstep hloop hsend hshutdown, .snoc .start halone hstep, ?_⟩
  exact congrArg (Watch.mk s.path s.reader) (sentMessages_of_step hloop hsend)

/-- The loop comes back to `select!`.  If it was not there, it has flushed. -/
theorem exists_selecting (h : Live ext cfg start s) :
    ∃ loop, Live ext cfg start { s with loop := loop } ∧
      RunWhere (System.step ext cfg start) Alone s { s with loop := loop } ∧
      System.watch { s with loop := loop } = s.watch ∧ loop.pc = .selecting ∧
      loop.channel = s.loop.channel ∧
      (s.loop.pc ≠ .selecting → ∀ table, loop.batches.rows table = []) := by
  -- the last step, from a state in which the buffers are flushed
  have hsaving {x : System} (h : Live ext cfg start x) {final : Bool}
      (hpc : x.loop.pc = .saving final) : ∃ loop, Live ext cfg start { x with loop := loop } ∧
        RunWhere (System.step ext cfg start) Alone x { x with loop := loop } ∧
        System.watch { x with loop := loop } = x.watch ∧ loop.pc = .selecting ∧
        loop.channel = x.loop.channel ∧ ∀ table, loop.batches.rows table = [] := by
    cases final with
    | true => exact absurd hpc h.not_final.2.1
    | false =>
        obtain ⟨loop, hloop, hselecting, hchannel, hbatches⟩ :=
          exists_save hpc ((x.path.current.map AlertsFile.inode).getD 0)
        obtain ⟨hlive, hrun, hwatch⟩ := h.run_onLoop (a := .save true) hloop
          (Option.map_eq_some_iff.mpr ⟨loop, hloop, rfl⟩) ⟨⟨trivial, by simp [Accepts]⟩, trivial⟩
          (by simp) (by simp)
        refine ⟨loop, hlive, hrun, hwatch, hselecting, hchannel, fun table => ?_⟩
        rw [hbatches]
        exact h.rotated.loop.flushed (.inl ⟨false, hpc⟩) table
  cases hpc : s.loop.pc with
  | selecting => exact ⟨s.loop, h, .start, rfl, hpc, rfl, fun hne => absurd rfl hne⟩
  | exited => exact absurd hpc h.not_final.2.2
  | saving final =>
      obtain ⟨loop, hlive, hrun, hwatch, hselecting, hchannel, hrows⟩ := hsaving h hpc
      exact ⟨loop, hlive, hrun, hwatch, hselecting, hchannel, fun _ => hrows⟩
  | flushing final =>
      obtain ⟨flushed, hflush, hpc', hchannel'⟩ := @exists_flush ext cfg _ _ hpc
      obtain ⟨hlive, hrun, hwatch⟩ := h.run_onLoop (a := .flush default) hflush
        (Option.map_eq_some_iff.mpr ⟨flushed, hflush, rfl⟩)
        ⟨⟨trivial, by rintro env heq; cases heq; exact fun _ _ => ⟨.inr rfl, rfl⟩⟩, trivial⟩
        (by simp) (by simp)
      obtain ⟨loop, hlive', hrun', hwatch', hselecting, hchannel, hrows⟩ := hsaving hlive hpc'
      exact ⟨loop, hlive', hrun.trans hrun', hwatch'.trans hwatch, hselecting,
        hchannel.trans hchannel', fun _ => hrows⟩

/-- The loop takes every line that is in the channel. -/
theorem exists_idle (h : Live ext cfg start s) :
    ∃ loop, Live ext cfg start { s with loop := loop } ∧
      RunWhere (System.step ext cfg start) Alone s { s with loop := loop } ∧
      System.watch { s with loop := loop } = s.watch ∧ loop.pc = .selecting ∧
      loop.channel = [] := by
  induction hlength : s.loop.channel generalizing s with
  | nil =>
      obtain ⟨loop, hlive, hrun, hwatch, hselecting, hchannel, -⟩ := h.exists_selecting
      exact ⟨loop, hlive, hrun, hwatch, hselecting, hchannel.trans hlength⟩
  | cons m rest ih =>
      obtain ⟨loop, hlive, hrun, hwatch, hselecting, hchannel, -⟩ := h.exists_selecting
      obtain ⟨taken, hrecv, hrest⟩ := @exists_recv ext cfg _ hselecting _ _
        (hchannel.trans hlength)
      obtain ⟨hlive', hrun', hwatch'⟩ := hlive.run_onLoop (a := .recv default) hrecv
        (Option.map_eq_some_iff.mpr ⟨taken, hrecv, rfl⟩) ⟨⟨trivial, by simp [Accepts]⟩, trivial⟩
        (by simp) (by simp)
      obtain ⟨idle, hlive'', hrun'', hwatch'', hidle⟩ := ih hlive' hrest
      exact ⟨idle, hlive'', (hrun.trans hrun').trans hrun'',
        hwatch''.trans (hwatch'.trans hwatch), hidle⟩

/-- The process does what the reader alone does. -/
theorem exists_read (h : Live ext cfg start s) (hcap : 0 < cfg.channelCap)
    (hclean : CleanOpen s.path s.reader) :
    ∃ s', Live ext cfg start s' ∧ RunWhere (System.step ext cfg start) Alone s s' ∧
      s'.watch = s.watch.read start := by
  obtain ⟨loop, hlive, hrun, hwatch, hselecting, hempty⟩ := h.exists_idle
  have hread : Watch.read start s.watch = Watch.read start (System.watch { s with loop := loop }) :=
    congrArg _ hwatch.symm
  cases hmessage : s.reader.message with
  | some m =>
      obtain ⟨sent, hsend⟩ := exists_send ⟨hlive.running, hlive.sender⟩
        (by rw [hempty]; exact hcap) m
      have hstep : System.step ext cfg start { s with loop := loop } .deliver =
          some { s with reader := s.reader.sent, loop := sent } := by
        have hrunning : loop.shuttingDown = false := hlive.running
        simp only [System.step, hmessage, hrunning, Bool.false_eq_true, if_false, System.onLoop]
        exact Option.map_eq_some_iff.mpr ⟨sent, hsend, rfl⟩
      have halone : Alone { s with loop := loop } .deliver :=
        ⟨⟨trivial, by simp [Accepts]⟩, trivial⟩
      have hrotated := hlive.rotated.step halone.1 hstep
      refine ⟨_, ⟨hrotated, hlive.sound.step hstep,
        hrotated.files.tailInv (Reader.isSome_tailer_sent hmessage), ?_⟩,
        hrun.snoc halone hstep, ?_⟩
      · exact (shuttingDown_of_step hsend (by simp)).trans hlive.running
      · rw [hread, Watch.read, System.watch, System.watch]
        simp only [hmessage, sentMessages_of_send hsend]
  | none =>
      have htail := hlive.tail.reader.next start hlive.tail.path hclean
      have hmoves : TailInv start.offset
          ⟨s.path, s.reader.next start s.path, sentMessages loop.log⟩ := ⟨hlive.tail.path, htail⟩
      have hstep : System.step ext cfg start { s with loop := loop } .read =
          some { s with reader := s.reader.next start s.path, loop := loop } := by
        simp only [System.step, hmessage, if_true, if_neg hmoves.ne_stopped]
      have halone : Alone { s with loop := loop } .read := ⟨⟨hclean, by simp [Accepts]⟩, trivial⟩
      refine ⟨_, ⟨hlive.rotated.step halone.1 hstep, hlive.sound.step hstep, hmoves,
        hlive.running⟩, hrun.snoc halone hstep, ?_⟩
      rw [hread, Watch.read, System.watch, System.watch]
      simp only [hmessage]

/-- Some steps of the reader alone, up to an `open` that is not clean. -/
theorem exists_reads (h : Live ext cfg start s) (hcap : 0 < cfg.channelCap) (n : ℕ) :
    ∃ s', Live ext cfg start s' ∧ RunWhere (System.step ext cfg start) Alone s s' ∧
      (s'.watch = (Watch.read start)^[n] s.watch ∨ ¬ CleanOpen s'.path s'.reader) := by
  induction n generalizing s with
  | zero => exact ⟨s, h, .start, .inl rfl⟩
  | succ n ih =>
      by_cases hclean : CleanOpen s.path s.reader
      · obtain ⟨s₁, hlive, hrun, hwatch⟩ := h.exists_read hcap hclean
        obtain ⟨s', hlive', hrun', hend⟩ := ih hlive
        rw [Function.iterate_succ_apply, ← hwatch]
        exact ⟨s', hlive', hrun.trans hrun', hend⟩
      · exact ⟨s, h, .start, .inr hclean⟩

/-- The loop takes every line there is and flushes its buffers. -/
theorem exists_flushed (h : Live ext cfg start s) :
    ∃ loop, Live ext cfg start { s with loop := loop } ∧
      RunWhere (System.step ext cfg start) Alone s { s with loop := loop } ∧
      System.watch { s with loop := loop } = s.watch ∧ loop.channel = [] ∧
      ∀ table, loop.batches.rows table = [] := by
  obtain ⟨idle, hlive, hrun, hwatch, hselecting, hempty⟩ := h.exists_idle
  rcases Nat.eq_zero_or_pos idle.pending with hnone | hpending
  · exact ⟨idle, hlive, hrun, hwatch, hempty, rows_of_pending hnone⟩
  · obtain ⟨ticked, htick, hpc, hchannel⟩ := @exists_tick ext cfg _ hselecting hpending
    obtain ⟨hlive', hrun', hwatch'⟩ := hlive.run_onLoop (a := .tick) htick
      (Option.map_eq_some_iff.mpr ⟨ticked, htick, rfl⟩) ⟨⟨trivial, by simp [Accepts]⟩, trivial⟩
      (by simp) (by simp)
    obtain ⟨loop, hlive'', hrun'', hwatch'', -, hchannel', hrows⟩ := hlive'.exists_selecting
    refine ⟨loop, hlive'', (hrun.trans hrun').trans hrun'',
      hwatch''.trans (hwatch'.trans hwatch), hchannel'.trans (hchannel.trans hempty), ?_⟩
    exact hrows (by simp [hpc])

end Live

theorem path_of_run {s s' : System} (run : RunWhere (System.step ext cfg start) Alone s s') :
    s'.path = s.path := by
  refine run.invariant (I := fun x => x.path = s.path) rfl fun x a x' hpath halone hstep => ?_
  cases System.moves_of_step ext cfg start hstep with
  | write hwrite => exact halone.2.elim
  | _ => exact hpath

end System

/-- From every state that a run in which the writer appends whole lines and rotates the file
reaches, unless the process is shutting down: the reader and the loop can by themselves deliver
the rows of every line of every generation to ClickHouse, or come to an `open` that is not
clean. -/
theorem rows_catch_up {path : AlertsPath} {mappings : CustomMappings} {s : System}
    (hlinked : path.linked) (hnew : path.older = []) (hinode : start.inode = path.newest.inode)
    (hsize : start.offset ≤ path.newest.bytes.length)
    (hwhole : Terminated isNewline (path.newest.bytes.drop start.offset))
    (hvalid : none ∉ textLines (path.newest.bytes.drop start.offset))
    (hcap : 0 < cfg.channelCap)
    (run : RunWhere (System.step ext cfg start) System.KeepsRotating
      (.initial path start mappings) s)
    (hopen : s.reader.tailer.isSome) (hnamed : s.path.linked)
    (hrunning : s.loop.shuttingDown = false) :
    ∃ s', RunWhere (System.step ext cfg start) System.Alone s s' ∧ s'.path = s.path ∧
      (¬ CleanOpen s'.path s'.reader ∨
        List.Forall₂ (IsRowOf ext) (textLines (s.path.written start.offset))
            (receptions s'.loop.log) ∧
          (∀ r ∈ receptions s'.loop.log, r.cfg = cfg) ∧
          ∀ table, accepted table s'.loop.log =
              (receptions s'.loop.log).filterMap (fun r => r.rowFor table) ∧
            s'.loop.batches.rows table = []) := by
  have h := rotatedInv_of_run hlinked hnew hinode hsize hwhole hvalid run
  have htail := h.files.tailInv hopen
  have hlive : System.Live ext cfg start s :=
    ⟨h, System.sound_of_reachable run.reachable, htail, hrunning⟩
  obtain ⟨n, hn⟩ : Completes start start.offset s.watch := completes htail hnamed
  obtain ⟨s₁, hlive₁, hrun₁, hwatch | hunclean⟩ := hlive.exists_reads hcap n
  · have hpath₁ : s₁.path = s.path := System.path_of_run hrun₁
    rw [← hwatch] at hn
    rcases hn with hlines | hunclean
    · obtain ⟨loop, hlive₂, hrun₂, hwatch₂, hempty, hrows⟩ := hlive₁.exists_flushed
      refine ⟨_, hrun₁.trans hrun₂, hpath₁, .inr ⟨?_,
        fun r hr => (hlive₂.rotated.loop.transformed r hr).1, ?_⟩⟩
      · -- with an empty channel, what was sent was received
        have hreceived : texts (receivedMessages loop.log) =
            textLines (s.path.written start.offset) := by
          have hchannel : receivedMessages loop.log ++ loop.channel = sentMessages loop.log :=
            hlive₂.rotated.loop.channel
          rw [hempty, List.append_nil] at hchannel
          have hsent : sentMessages loop.log = s₁.watch.emitted := congrArg Watch.emitted hwatch₂
          rw [hchannel, hsent, ← hpath₁]
          exact hlines
        exact hreceived ▸ hlive₂.rotated.loop.rowsOf
      · intro table
        have hdelivered : accepted table loop.log ++ loop.batches.rows table =
            routed table loop.log := hlive₂.rotated.delivered table
        rw [hrows table, List.append_nil] at hdelivered
        exact ⟨hdelivered.trans (routed_eq table loop.log), hrows table⟩
    · exact ⟨s₁, hrun₁, hpath₁, .inl hunclean⟩
  · exact ⟨s₁, hrun₁, System.path_of_run hrun₁, .inl hunclean⟩

/-- The file is rotated when the first alert was received, and the second alert is unread. -/
theorem rows_catch_up_rotated : ∃ s s',
    RunWhere (System.step sampleExternals sampleConfig ⟨1, 0⟩) System.KeepsRotating
        (.initial samplePath ⟨1, 0⟩ default) s ∧
      texts (receivedMessages s.loop.log) = [some sampleLine] ∧
      textLines (s.path.written 0) = [some sampleLine, some sampleLine] ∧
      RunWhere (System.step sampleExternals sampleConfig ⟨1, 0⟩) System.Alone s s' ∧
      (¬ CleanOpen s'.path s'.reader ∨
        List.Forall₂ (IsRowOf sampleExternals) [some sampleLine, some sampleLine]
            (receptions s'.loop.log) ∧
          accepted sampleTable s'.loop.log =
            (receptions s'.loop.log).filterMap fun r => r.rowFor sampleTable) := by
  have hend : (exec (System.step sampleExternals sampleConfig ⟨1, 0⟩)
      (.initial samplePath ⟨1, 0⟩ default) (rotatedRun.take 9)).map (fun s =>
        (texts (receivedMessages s.loop.log), textLines (s.path.written 0),
          s.reader.tailer.isSome, s.path.linked, s.loop.shuttingDown)) =
      some ([some sampleLine], [some sampleLine, some sampleLine], true, true, false) := by
    decide +kernel
  obtain ⟨s, hexec, hend⟩ := Option.map_eq_some_iff.mp hend
  simp only [Prod.mk.injEq] at hend
  obtain ⟨hreceived, hwritten, hopen, hnamed, hrunning⟩ := hend
  have run := runWhere_of_exec hexec (rotatedRun_keepsRotating.take 9)
  obtain ⟨s', hrun, -, hend⟩ := rows_catch_up rfl rfl rfl (Nat.zero_le _) (by decide +kernel)
    (by decide +kernel) (by decide) run hopen hnamed hrunning
  refine ⟨s, s', run, hreceived, hwritten, hrun, hend.imp_right ?_⟩
  rintro ⟨hrows, -, htables⟩
  exact ⟨hwritten ▸ hrows, (htables sampleTable).1⟩

end WazuhOcsf
