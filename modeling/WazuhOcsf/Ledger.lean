import WazuhOcsf.Backlog
import WazuhOcsf.Ingest
import WazuhOcsf.Progress

/-!
# Delivery across crashes

The ledger of a history keeps the log of every process, also of those that were killed.
What a log has committed is what came before its last persisted state.  A process starts
where the process before it last persisted, so the committed parts of the logs, one behind
the other, are the lines of the file up to the persisted position: `delivered_across_crashes`.
Rows past it may be in ClickHouse already, and the next process inserts them again.
-/

namespace WazuhOcsf

open Lines Transition Trace DbState

variable {ext : Externals} {cfg : AppConfig} {start : TailState}

/-! ## The committed part of a log -/

/-- What came before the last persisted state, and that state. -/
def committedLog (log : List Event) : List Event := log.rdropWhile Event.isUnsaved

theorem committedLog_append_sinceSave (log : List Event) :
    committedLog log ++ sinceSave log = log :=
  List.rdropWhile_append_rtakeWhile

theorem committedLog_append {log new : List Event}
    (h : new.filterMap Event.persistedState = []) :
    committedLog (log ++ new) = committedLog log := by
  refine (List.append_left_inj (sinceSave log ++ new)).mp ?_
  rw [← List.append_assoc (committedLog log), committedLog_append_sinceSave,
    ← sinceSave_append h, committedLog_append_sinceSave]

theorem committedLog_save (log : List Event) (state : TailState) :
    committedLog (log ++ [.saved state true]) = log ++ [.saved state true] :=
  List.rdropWhile_concat_neg Event.isUnsaved log _ (by simp [Event.isUnsaved, Event.persistedState])

/-- A log has committed nothing, or its committed part ends with a persisted state. -/
theorem committedLog_cases (log : List Event) :
    committedLog log = [] ∨ ∃ before state, committedLog log = before ++ [.saved state true] := by
  rcases List.eq_nil_or_concat (committedLog log) with hnil | ⟨before, e, hconcat⟩
  · exact .inl hnil
  · right
    have hne : committedLog log ≠ [] := by simp [hconcat]
    have hlast : ¬ ((committedLog log).getLast hne).isUnsaved :=
      List.rdropWhile_last_not Event.isUnsaved log hne
    rw [List.concat_eq_append] at hconcat
    simp only [hconcat, List.getLast_append_singleton] at hlast
    cases e with
    | saved state ok =>
        cases ok with
        | true => exact ⟨before, state, hconcat⟩
        | false => exact absurd rfl hlast
    | _ => exact absurd rfl hlast

/-- The lines whose rows a log has committed. -/
def committedTexts (log : List Event) : List (Option String) :=
  texts (receivedMessages (committedLog log))

/-! ## What a process has delivered -/

/-- Every line was transformed under the configuration of the process and the mapping table in
force when it was received; ClickHouse has the rows of the committed lines, and beyond them
only rows of lines that were received. -/
def Delivers (ext : Externals) (log : List Event) : Prop :=
  (∃ cfg, ∀ r ∈ receptions log, r.cfg = cfg ∧ r.Sound ext) ∧
    ∀ table, routed table (committedLog log) <+: accepted table log ∧
      accepted table log <+: routed table log

/-- A process that received nothing after its last persisted state has delivered exactly the
rows of what it has committed. -/
theorem Delivers.accepted_eq {log : List Event} (h : Delivers ext log) (hnone : takenSince log = [])
    (table : String) : accepted table log = routed table (committedLog log) := by
  obtain ⟨hcommitted, hreceived⟩ := h.2 table
  have hsplit := committedLog_append_sinceSave log
  have hsince : routed table (sinceSave log) = [] := by
    rw [routed_eq, List.filterMap_eq_nil_iff]
    intro r hr
    have hmem : r.message ∈ takenSince log := by
      rw [takenSince, receivedMessages_eq]
      exact List.mem_map_of_mem hr
    rw [hnone] at hmem
    exact absurd hmem List.not_mem_nil
  have hrouted : routed table log = routed table (committedLog log) := by
    conv_lhs => rw [← hsplit]
    rw [routed_append, hsince, List.append_nil]
  exact (hrouted ▸ hreceived).eq_of_length_le hcommitted.length_le

theorem accepted_append (table : String) (log new : List Event) :
    accepted table (log ++ new) = accepted table log ++ accepted table new := by
  simp [accepted]

/-- When a state is saved, what was routed was accepted. -/
def RowsSaved (before : List Event) : Event → Prop
  | .saved _ _ => ∀ table, accepted table before = routed table before
  | _ => True

theorem delivers_of_guarded {startOffset : ℕ} {loop : LoopState}
    (h : LoopInv ext cfg startOffset loop) (hdelivered : Delivered loop)
    (hsaved : Guarded RowsSaved loop.log) : Delivers ext loop.log := by
  refine ⟨⟨cfg, h.transformed⟩, fun table => ⟨?_, ?_⟩⟩
  · rcases committedLog_cases loop.log with hnil | ⟨before, state, hconcat⟩
    · rw [hnil]
      exact List.nil_prefix
    · -- when a state was persisted, nothing taken before was still on its way
      have hsplit := committedLog_append_sinceSave loop.log
      rw [hconcat, List.append_assoc, List.singleton_append] at hsplit
      have hguard : ∀ table, accepted table before = routed table before :=
        hsaved before (.saved state true) _ hsplit.symm
      have hnone : routed table [Event.saved state true] = [] := rfl
      rw [hconcat, routed_append, hnone, List.append_nil, ← hguard table, ← hsplit,
        accepted_append]
      exact List.prefix_append _ _
  · rw [← hdelivered table]
    exact List.prefix_append _ _

theorem CommitInv.delivers {s : System} (h : CommitInv ext cfg start s) :
    Delivers ext s.loop.log := by
  refine delivers_of_guarded h.loop h.delivered (h.committed.mono fun before e hguard => ?_)
  cases e with
  | saved state ok => exact hguard.1
  | _ => trivial

/-! ## The ledger -/

/-- The log of the running process. -/
def History.currentLog (h : History) : Option (List Event) :=
  match h.process with
  | some ⟨_, _, .running _ _ loop⟩ => some loop.log
  | _ => none

/-- The loop of the running process. -/
def History.currentLoop (h : History) : Option LoopState :=
  match h.process with
  | some ⟨_, _, .running _ _ loop⟩ => some loop
  | _ => none

theorem History.currentLog_eq (h : History) : h.currentLog = h.currentLoop.map LoopState.log := by
  unfold History.currentLog History.currentLoop
  rcases h.process with - | ⟨mode, cfg, stage⟩
  · rfl
  · cases stage <;> rfl

theorem History.exists_of_currentLoop {h : History} {loop : LoopState}
    (hcurrent : h.currentLoop = some loop) : ∃ mode cfg start reader,
      h.process = some ⟨mode, cfg, .running start reader loop⟩ := by
  unfold History.currentLoop at hcurrent
  split at hcurrent
  · next mode cfg start reader loop' hprocess =>
      obtain rfl := Option.some.inj hcurrent
      exact ⟨mode, cfg, start, reader, hprocess⟩
  · cases hcurrent

/-- A history, and the logs of the processes that ended. -/
structure Ledger where
  history : History
  finished : List (List Event)

namespace Ledger

/-- The last process persisted this state. -/
def initial (path : AlertsPath) (persisted : TailState) : Ledger :=
  ⟨.initial path (some (StateStore.render persisted)), []⟩

/-- The logs of all processes, oldest first. -/
def logs (l : Ledger) : List (List Event) := l.finished ++ l.history.currentLog.toList

/-- One step of the history; the log of a process that ends is kept. -/
def step (ext : Externals) (l : Ledger) (a : History.Action) : Option Ledger :=
  (l.history.step ext a).map fun history =>
    { history := history
      finished := match a with
        | .crash => l.logs
        | _ => l.finished }

/-- The processes run in file mode on a file that is only appended to, and what they read is
UTF-8. -/
def Reads (l : Ledger) : History.Action → Prop
  | .write (.append _) => True
  | .write _ | .truncate _ => False
  | .launch mode _ => mode = .file
  | .run a =>
      match l.history.process with
      | some ⟨_, _, .running _ reader loop⟩ => Readable ⟨l.history.path, reader, loop⟩ a
      | _ => True
  | _ => True

instance (l : Ledger) : (a : History.Action) → Decidable (l.Reads a)
  | .write (.append _) => .isTrue trivial
  | .write .rename | .write (.create _) | .truncate _ => .isFalse id
  | .launch mode _ => inferInstanceAs (Decidable (mode = .file))
  | .run a =>
      match hprocess : l.history.process with
      | some ⟨_, _, .running _ reader loop⟩ =>
          decidable_of_iff (Readable ⟨l.history.path, reader, loop⟩ a) (by simp [Reads, hprocess])
      | some ⟨_, _, .loaded _⟩ | some ⟨_, _, .sized _ _⟩ | some ⟨_, _, .resolved _ _ _⟩ | none =>
          .isTrue (by simp [Reads, hprocess])
  | .lookSize | .lookInode | .enter _ _ | .receive _ | .save _ | .crash => .isTrue trivial

/-- The database accepts what it is given. -/
def Commits (l : Ledger) : History.Action → Prop
  | .run a => ∀ mode cfg start reader loop,
      l.history.process = some ⟨mode, cfg, .running start reader loop⟩ →
        Committing ⟨l.history.path, reader, loop⟩ a
  | _ => True

/-- The file is only appended to and read as UTF-8, and the database accepts what it is given. -/
def KeepsFile (l : Ledger) (a : History.Action) : Prop := l.Reads a ∧ l.Commits a

end Ledger

/-! ## The invariant -/

/-- A process that starts from the persisted position `offset`, when the processes before it
have committed `before`. -/
def Stage.Continues (ext : Externals) (path : AlertsPath) (first offset : ℕ)
    (before : List (Option String)) (cfg : AppConfig) : Stage → Prop
  | .loaded saved => saved = ⟨path.newest.inode, offset⟩ ∧
      LinesTo path.newest.bytes first offset before
  | .sized saved fileSize => saved = ⟨path.newest.inode, offset⟩ ∧ offset ≤ fileSize ∧
      LinesTo path.newest.bytes first offset before
  | .resolved saved _ start => saved = ⟨path.newest.inode, offset⟩ ∧ start = saved ∧
      LinesTo path.newest.bytes first offset before
  | .running start reader loop =>
      IngestInv ext cfg start ⟨path, reader, loop⟩ ∧ CommitInv ext cfg start ⟨path, reader, loop⟩ ∧
        LinesTo path.newest.bytes first start.offset before ∧
        LinesTo path.newest.bytes start.offset offset (committedTexts loop.log)

/-- A history that has committed `before` and persisted `offset`, with or without a process. -/
def History.Continues (ext : Externals) (h : History) (first offset : ℕ)
    (before : List (Option String)) : Prop :=
  match h.process with
  | some p => p.mode = .file ∧ p.stage.Continues ext h.path first offset before p.cfg
  | none => LinesTo h.path.newest.bytes first offset before

/-- What a ledger keeps: the processes that ended have delivered, and the persisted position is the
end of the lines committed so far. -/
structure LedgerInv (ext : Externals) (inode first : ℕ) (l : Ledger) : Prop where
  linked : l.history.path.linked
  same : l.history.path.newest.inode = inode
  finished : ∀ log ∈ l.finished, Delivers ext log
  stored : ∃ offset, l.history.stateFile = some (StateStore.render ⟨inode, offset⟩) ∧
    TailState.Fits ⟨inode, offset⟩ ∧
    l.history.Continues ext first offset (l.finished.flatMap committedTexts)

/-! ### The writer -/

theorem Stage.Continues.append {path path' : AlertsPath} {first offset : ℕ}
    {before : List (Option String)} {stage : Stage} {bytes : List UInt8}
    (h : stage.Continues ext path first offset before cfg)
    (hwrite : path.write (.append bytes) = some path') :
    stage.Continues ext path' first offset before cfg := by
  have hrun (start : TailState) (reader : Reader) (loop : LoopState) :
      System.step ext cfg start ⟨path, reader, loop⟩ (.write (.append bytes)) =
        some ⟨path', reader, loop⟩ := by
    simp [System.step, hwrite]
  have hpath := hwrite
  obtain ⟨-, hpath⟩ := Option.ite_none_right_eq_some.mp hpath
  obtain rfl := Option.some.inj hpath
  cases stage with
  | loaded saved => exact ⟨h.1, h.2.append bytes⟩
  | sized saved fileSize => exact ⟨h.1, h.2.1, h.2.2.append bytes⟩
  | resolved saved fileSize start => exact ⟨h.1, h.2.1, h.2.2.append bytes⟩
  | running start reader loop =>
      obtain ⟨hingest, hcommit, hbefore, hcommitted⟩ := h
      exact ⟨hingest.step (by exact trivial) (hrun start reader loop),
        hcommit.step (by exact trivial) (hrun start reader loop), hbefore.append bytes,
        hcommitted.append bytes⟩

theorem History.Continues.append {h : History} {path : AlertsPath} {first offset : ℕ}
    {before : List (Option String)} {bytes : List UInt8}
    (hcontinues : h.Continues ext first offset before)
    (hwrite : h.path.write (.append bytes) = some path) :
    History.Continues ext { h with path := path } first offset before := by
  unfold History.Continues at hcontinues ⊢
  cases hprocess : h.process with
  | some p =>
      simp only [hprocess] at hcontinues
      exact ⟨hcontinues.1, hcontinues.2.append hwrite⟩
  | none =>
      simp only [hprocess] at hcontinues
      obtain ⟨-, hpath⟩ := Option.ite_none_right_eq_some.mp hwrite
      obtain rfl := Option.some.inj hpath
      exact hcontinues.append bytes

/-! ### The process -/

section

variable {path : AlertsPath} {first offset : ℕ} {before : List (Option String)} {reader : Reader}
  {loop loop' : LoopState}

/-- A step that persists nothing leaves the committed part alone. -/
theorem committedTexts_of_step {a : Action} (hstep : step ext cfg loop a = some loop')
    (hsave : ∀ inode ok, a ≠ .save inode ok) :
    committedTexts loop'.log = committedTexts loop.log := by
  obtain ⟨new, hlog, hnone, -⟩ := sinceSave_of_step hstep hsave
  rw [committedTexts, committedTexts, hlog, committedLog_append hnone]

theorem committedTexts_of_run {s s' : System} {a : System.Action} (hruns : History.Runs .file a)
    (hstep : s.step ext cfg start a = some s') :
    s'.path = s.path ∧ committedTexts s'.loop.log = committedTexts s.loop.log := by
  cases System.moves_of_step ext cfg start hstep with
  | write hwrite => cases hruns
  | read => exact ⟨rfl, rfl⟩
  | readLast hloop => exact ⟨rfl, committedTexts_of_step hloop fun _ _ heq => nomatch heq⟩
  | deliver hmessage hloop => exact ⟨rfl, committedTexts_of_step hloop fun _ _ heq => nomatch heq⟩
  | deliverClosed hloop => exact ⟨rfl, committedTexts_of_step hloop fun _ _ heq => nomatch heq⟩
  | loop ha hloop =>
      exact ⟨rfl, committedTexts_of_step hloop fun _ _ heq => by cases ha <;> cases heq⟩
  | save hloop => cases hruns

theorem Stage.Continues.run (h : (Stage.running start reader loop).Continues ext path first offset
      before cfg) {a : System.Action} {s : System} (hruns : History.Runs .file a)
    (hfaithful : Faithful ⟨path, reader, loop⟩ a)
    (hstep : System.step ext cfg start ⟨path, reader, loop⟩ a = some s) :
    (Stage.running start s.reader s.loop).Continues ext path first offset before cfg := by
  obtain ⟨hingest, hcommit, hbefore, hcommitted⟩ := h
  obtain ⟨hpath, htexts⟩ := committedTexts_of_run hruns hstep
  have hsame : s = ⟨path, s.reader, s.loop⟩ := by
    cases s
    exact congrArg (fun path => System.mk path _ _) hpath
  refine ⟨hsame ▸ hingest.step hfaithful.1 hstep, hsame ▸ hcommit.step hfaithful.2 hstep,
    hbefore, ?_⟩
  rw [htexts]
  exact hcommitted

/-- A step of the system that saves. -/
theorem step_save (hloop : step ext cfg loop (.save path.currentInode ok) = some loop') :
    System.step ext cfg start ⟨path, reader, loop⟩ (.save ok) = some ⟨path, reader, loop'⟩ := by
  simp only [System.step, System.onLoop]
  exact Option.map_eq_some_iff.mpr ⟨loop', hloop, rfl⟩

theorem Stage.Continues.saveFailed (h : (Stage.running start reader loop).Continues ext path first
      offset before cfg)
    (hloop : step ext cfg loop (.save path.currentInode false) = some loop') :
    (Stage.running start reader loop').Continues ext path first offset before cfg := by
  obtain ⟨hingest, hcommit, hbefore, hcommitted⟩ := h
  refine ⟨hingest.step (by exact trivial) (step_save hloop),
    hcommit.step (by exact trivial) (step_save hloop), hbefore, ?_⟩
  rw [(log_of_save hloop).2, committedTexts, committedLog_append (by simp [Event.persistedState])]
  exact hcommitted

/-- A persisted state commits every line received. -/
theorem Stage.Continues.save (h : (Stage.running start reader loop).Continues ext path first
      offset before cfg)
    (hloop : step ext cfg loop (.save path.currentInode true) = some loop') :
    (Stage.running start reader loop').Continues ext path first loop.currentOffset before cfg := by
  obtain ⟨hingest, hcommit, hbefore, hcommitted⟩ := h
  refine ⟨hingest.step (by exact trivial) (step_save hloop),
    hcommit.step (by exact trivial) (step_save hloop), hbefore, ?_⟩
  have hreceived : receivedMessages
      (loop.log ++ [.saved ⟨path.currentInode, loop.currentOffset⟩ true]) =
      receivedMessages loop.log := by
    rw [receivedMessages, List.filterMap_append]
    exact List.append_nil _
  rw [(log_of_save hloop).2, committedTexts, committedLog_save, hreceived]
  exact hingest.received

end

/-! ### The start -/

/-- What a start from the persisted position resolves to. -/
theorem resolveStart_persisted {path : AlertsPath} (hlinked : path.linked)
    (hreal : path.newest.inode ≠ 0) {offset fileSize : ℕ} (hsize : offset ≤ fileSize) (seek : Bool) :
    resolveStart seek ⟨path.newest.inode, offset⟩ fileSize path.currentInode =
      ⟨path.newest.inode, offset⟩ := by
  have hlater : ¬ TailState.IsFirstRun ⟨path.newest.inode, offset⟩ := fun hfirst => hreal hfirst.2
  have hinode : path.currentInode = path.newest.inode := by
    rw [AlertsPath.currentInode, path.current_of_linked hlinked]
    rfl
  have hoffset := resolveStart_resume hlater hsize seek path.currentInode
  rw [resolveStart] at hoffset ⊢
  rw [hinode] at hoffset ⊢
  rw [TailState.mk.injEq]
  exact ⟨rfl, hoffset⟩

namespace LedgerInv

variable {inode first : ℕ} {l l' : Ledger}

theorem initial {path : AlertsPath} (hlinked : path.linked) {offset : ℕ}
    (hfits : TailState.Fits ⟨path.newest.inode, offset⟩)
    (hsize : offset ≤ path.newest.bytes.length) :
    LedgerInv ext path.newest.inode offset (.initial path ⟨path.newest.inode, offset⟩) where
  linked := hlinked
  same := rfl
  finished _ hlog := absurd hlog List.not_mem_nil
  stored := ⟨offset, rfl, hfits, .none hsize⟩

/-- The process goes on without touching the file or the state file. -/
theorem withProcess (h : LedgerInv ext inode first l) {process : Option Process}
    (hprocess : ∀ offset, l.history.stateFile = some (StateStore.render ⟨inode, offset⟩) →
      TailState.Fits ⟨inode, offset⟩ →
      l.history.Continues ext first offset (l.finished.flatMap committedTexts) →
      History.Continues ext { l.history with process := process } first offset
        (l.finished.flatMap committedTexts)) :
    LedgerInv ext inode first ⟨{ l.history with process := process }, l.finished⟩ := by
  obtain ⟨offset, hstored, hfits, hcontinues⟩ := h.stored
  exact ⟨h.linked, h.same, h.finished, offset, hstored, hfits,
    hprocess offset hstored hfits hcontinues⟩

/-- The lines committed by all processes so far. -/
theorem lines (h : LedgerInv ext inode first l) : ∃ offset,
    l.history.stateFile = some (StateStore.render ⟨inode, offset⟩) ∧
      TailState.Fits ⟨inode, offset⟩ ∧
      LinesTo l.history.path.newest.bytes first offset (l.logs.flatMap committedTexts) ∧
      ∀ log ∈ l.logs, Delivers ext log := by
  obtain ⟨offset, hstored, hfits, hcontinues⟩ := h.stored
  refine ⟨offset, hstored, hfits, ?_⟩
  unfold History.Continues at hcontinues
  unfold Ledger.logs History.currentLog
  cases hprocess : l.history.process with
  | none =>
      simp only [hprocess] at hcontinues ⊢
      simpa using ⟨hcontinues, h.finished⟩
  | some p =>
      obtain ⟨mode, cfg, stage⟩ := p
      simp only [hprocess] at hcontinues ⊢
      cases stage with
      | running start reader loop =>
          obtain ⟨-, hingest, hcommit, hbefore, hcommitted⟩ := hcontinues
          have hall := hbefore.trans hcommitted
          have hdelivers := hcommit.delivers
          simp only [Option.toList_some, List.flatMap_append, List.flatMap_cons, List.flatMap_nil,
            List.append_nil, List.forall_mem_append, List.forall_mem_singleton]
          exact ⟨hall, h.finished, hdelivers⟩
      | loaded saved => simpa using ⟨hcontinues.2.2, h.finished⟩
      | sized saved fileSize => simpa using ⟨hcontinues.2.2.2, h.finished⟩
      | resolved saved fileSize start => simpa using ⟨hcontinues.2.2.2, h.finished⟩

theorem crash (h : LedgerInv ext inode first l) :
    LedgerInv ext inode first ⟨{ l.history with process := none }, l.logs⟩ := by
  obtain ⟨offset, hstored, hfits, hlines, hdelivers⟩ := h.lines
  exact ⟨h.linked, h.same, hdelivers, offset, hstored, hfits, hlines⟩

/-- What a step does to the process, when it is not the end of it. -/
theorem continues_of_moves (h : LedgerInv ext inode first l) (hreal : inode ≠ 0)
    {a : History.Action} {history : History} (hkeeps : l.KeepsFile a) (hcrash : a ≠ .crash)
    (hmoves : History.Moves ext l.history a history) :
    LedgerInv ext inode first ⟨history, l.finished⟩ := by
  obtain ⟨hlinked, rfl, hfinished, offset, hstored, hfits, hcontinues⟩ := h
  have hsame : LedgerInv ext l.history.path.newest.inode first l :=
    ⟨hlinked, rfl, hfinished, offset, hstored, hfits, hcontinues⟩
  cases hmoves with
  | @write op path hwrite =>
      cases op with
      | append bytes =>
          have hcontinues := hcontinues.append hwrite
          obtain ⟨-, hpath⟩ := Option.ite_none_right_eq_some.mp hwrite
          obtain rfl := Option.some.inj hpath
          exact ⟨hlinked, rfl, hfinished, offset, hstored, hfits, hcontinues⟩
      | rename => exact hkeeps.1.elim
      | create inode => exact hkeeps.1.elim
  | truncate hlinked => exact hkeeps.1.elim
  | @launch mode cfg hprocess =>
      refine hsame.withProcess fun offset hstored hfits hcontinues => ?_
      unfold History.Continues at hcontinues ⊢
      simp only [hprocess] at hcontinues
      refine ⟨hkeeps.1, ?_, hcontinues⟩
      rw [hstored, StateStore.load_render hfits]
  | lookSize hprocess =>
      refine hsame.withProcess fun offset hstored hfits hcontinues => ?_
      unfold History.Continues at hcontinues ⊢
      simp only [hprocess] at hcontinues
      obtain ⟨hmode, hsaved, hlines⟩ := hcontinues
      refine ⟨hmode, hsaved, ?_, hlines⟩
      rw [AlertsPath.currentSize, AlertsPath.current_of_linked _ hlinked]
      exact hlines.size
  | lookInode hprocess hstart hfits =>
      refine hsame.withProcess fun offset hstored hfits hcontinues => ?_
      unfold History.Continues at hcontinues ⊢
      simp only [hprocess] at hcontinues
      obtain ⟨hmode, hsaved, hsize, hlines⟩ := hcontinues
      refine ⟨hmode, hsaved, ?_, hlines⟩
      rw [hstart, hsaved, resolveStart_persisted hlinked hreal hsize]
  | @enter mode cfg saved start fileSize ok mappings hprocess hearly =>
      refine hsame.withProcess fun offset hstored hfits hcontinues => ?_
      unfold History.Continues at hcontinues ⊢
      simp only [hprocess] at hcontinues
      obtain ⟨rfl, rfl, rfl, hlines⟩ := hcontinues
      exact ⟨rfl, ingestInv_initial mappings hlinked rfl hlines.size,
        commitInv_initial l.history.path mappings, hlines, .none hlines.size⟩
  | enterSaving hprocess hfirst hpos =>
      unfold History.Continues at hcontinues
      simp only [hprocess] at hcontinues
      -- the early save is for a first run, and there is a persisted state
      obtain ⟨-, rfl, -⟩ := hcontinues
      exact absurd hfirst.2 hreal
  | @run mode cfg start reader loop a s hprocess hruns hstep =>
      have hreads := hkeeps.1
      simp only [Ledger.Reads, hprocess] at hreads
      refine hsame.withProcess fun offset hstored hfits hcontinues => ?_
      unfold History.Continues at hcontinues ⊢
      simp only [hprocess] at hcontinues
      obtain ⟨rfl, hcontinues⟩ := hcontinues
      exact ⟨rfl, Stage.Continues.run hcontinues hruns
        ⟨hreads, hkeeps.2 _ _ _ _ _ hprocess⟩ hstep⟩
  | receiveBlank => exact hsame
  | receive hprocess ha hstep =>
      unfold History.Continues at hcontinues
      simp only [hprocess] at hcontinues
      -- no process here is in ZeroMQ mode
      exact nomatch hcontinues.1
  | saveFailed hprocess hstep =>
      refine hsame.withProcess fun offset hstored hfits hcontinues => ?_
      unfold History.Continues at hcontinues ⊢
      simp only [hprocess] at hcontinues
      exact ⟨hcontinues.1, Stage.Continues.saveFailed hcontinues.2 hstep⟩
  | @save mode cfg start reader loop loop' hprocess hsaved hstep =>
      have hinode : l.history.path.currentInode = l.history.path.newest.inode := by
        rw [AlertsPath.currentInode, AlertsPath.current_of_linked _ hlinked]
        rfl
      unfold History.Continues at hcontinues
      simp only [hprocess] at hcontinues
      refine ⟨hlinked, rfl, hfinished, loop.currentOffset, ?_, hinode ▸ hsaved, hcontinues.1,
        Stage.Continues.save hcontinues.2 hstep⟩
      rw [← hinode]
  | crash => exact absurd rfl hcrash

theorem step (h : LedgerInv ext inode first l) (hreal : inode ≠ 0) {a : History.Action}
    (hkeeps : l.KeepsFile a) (hstep : l.step ext a = some l') : LedgerInv ext inode first l' := by
  obtain ⟨history, hhistory, rfl⟩ := Option.map_eq_some_iff.mp hstep
  have hmoves := History.moves_of_step ext hhistory
  by_cases hcrash : a = .crash
  · subst hcrash
    cases hmoves with
    | crash => exact h.crash
  · have hnext := h.continues_of_moves hreal hkeeps hcrash hmoves
    cases a with
    | crash => exact absurd rfl hcrash
    | _ => exact hnext

end LedgerInv

/-! ## Delivery -/

/-- From any persisted position on, over any number of starts, stops and crashes, with saves
that may fail: what the processes have committed, one behind the other, is every line of the
file up to the position that is persisted now, each once and in order.  For each process
ClickHouse has the rows of the lines it has committed, and beyond them only rows of lines it
received; a process that received nothing after its last persisted state left exactly the rows
of its lines.  A crash falls between two steps, and a flush is one step: a process killed
between two batches of one flush is not covered. -/
theorem delivered_across_crashes {path : AlertsPath} {offset : ℕ} {l : Ledger}
    (hlinked : path.linked) (hreal : path.newest.inode ≠ 0)
    (hfits : TailState.Fits ⟨path.newest.inode, offset⟩)
    (hsize : offset ≤ path.newest.bytes.length)
    (run : RunWhere (Ledger.step ext) Ledger.KeepsFile
      (.initial path ⟨path.newest.inode, offset⟩) l) :
    ∃ persisted, StateStore.load l.history.stateFile = ⟨path.newest.inode, persisted⟩ ∧
      l.logs.flatMap committedTexts =
        textLines (between l.history.path.newest.bytes offset persisted) ∧
      (∀ log ∈ l.logs, ∃ cfg, ∀ r ∈ receptions log, r.cfg = cfg ∧ r.Sound ext) ∧
      ∀ log ∈ l.logs, ∀ table,
        routed table (committedLog log) <+: accepted table log ∧
        accepted table log <+: routed table log ∧
        (takenSince log = [] → accepted table log = routed table (committedLog log)) := by
  have h : LedgerInv ext path.newest.inode offset l :=
    run.invariant (.initial hlinked hfits hsize) fun _ _ _ h hkeeps hstep =>
      h.step hreal hkeeps hstep
  obtain ⟨persisted, hstored, hpersisted, hlines, hdelivers⟩ := h.lines
  refine ⟨persisted, ?_, hlines.texts.symm, fun log hlog => (hdelivers log hlog).1, ?_⟩
  · rw [hstored, StateStore.load_render hpersisted]
  · intro log hlog table
    have hlog := hdelivers log hlog
    exact ⟨(hlog.2 table).1, (hlog.2 table).2, fun hnone => hlog.accepted_eq hnone table⟩

/-- The process is killed with a line in its buffer, and the next one delivers it. -/
def crashedRun : List History.Action := fileRun.take 9 ++ [.crash] ++ fileRun

theorem fileRun_commits {a : History.Action} (ha : a ∈ fileRun) (l : Ledger) : l.Commits a := by
  simp only [fileRun, List.mem_cons, List.not_mem_nil, or_false] at ha
  rcases ha with rfl | rfl | rfl | rfl | rfl | rfl | rfl | rfl | rfl | rfl | rfl | rfl
  all_goals first
    | exact trivial
    | exact fun _ _ _ _ _ _ => trivial
    | exact fun _ _ _ _ _ _ _ _ => ⟨.inr rfl, rfl⟩

theorem crashedRun_commits (l : Ledger) :
    EveryStep (Ledger.step sampleExternals) Ledger.Commits l crashedRun := by
  refine everyStep_of_forall (fun a ha l => ?_) l
  rcases List.mem_append.mp ha with ha | ha
  · rcases List.mem_append.mp ha with ha | ha
    · exact fileRun_commits (List.mem_of_mem_take ha) l
    · obtain rfl := List.mem_singleton.mp ha
      trivial
  · exact fileRun_commits ha l

theorem delivered_across_crashes_line : ∃ l,
    RunWhere (Ledger.step sampleExternals) Ledger.KeepsFile (.initial samplePath ⟨1, 0⟩) l ∧
      l.logs.map (fun log => (texts (receivedMessages log), committedTexts log)) =
        [([some sampleLine], []), ([some sampleLine], [some sampleLine])] ∧
      ∃ persisted, StateStore.load l.history.stateFile = ⟨1, persisted⟩ ∧
        [some sampleLine] = textLines (between l.history.path.newest.bytes 0 persisted) := by
  have hend : (exec (Ledger.step sampleExternals) (.initial samplePath ⟨1, 0⟩) crashedRun).map
      (fun l => l.logs.map (fun log => (texts (receivedMessages log), committedTexts log))) =
      some [([some sampleLine], []), ([some sampleLine], [some sampleLine])] := by
    decide +kernel
  obtain ⟨l, hexec, hlogs⟩ := Option.map_eq_some_iff.mp hend
  have run : RunWhere (Ledger.step sampleExternals) Ledger.KeepsFile
      (.initial samplePath ⟨1, 0⟩) l :=
    runWhere_of_exec hexec (EveryStep.and (by decide +kernel) (crashedRun_commits _))
  obtain ⟨persisted, hload, hlines, -⟩ :=
    delivered_across_crashes (by rfl) (by decide) (by decide) (Nat.zero_le _) run
  refine ⟨l, run, hlogs, persisted, hload, ?_⟩
  rw [← hlines]
  have hcommitted : l.logs.map committedTexts = [[], [some sampleLine]] := by
    have hsnd := congrArg (List.map Prod.snd) hlogs
    rwa [List.map_map] at hsnd
  rw [List.flatMap_def, hcommitted]
  rfl

end WazuhOcsf
