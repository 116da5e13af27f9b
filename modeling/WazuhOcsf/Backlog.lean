import Mathlib.Data.List.DropRight
import WazuhOcsf.Commit

/-!
# The backlog of a crash

How many lines the next start reads again if the process is killed: those emitted
beyond the last persisted offset.  They are in the channel, or taken since the last
save.  A save follows when *one* table has a batch of rows, so the rows of the other
tables and the lines that make no row come on top of it.  `unpersisted_bounded` is the
bound for the runs in which they fit, `unpersisted_exceeds` a run of lines without
rows; `withinBatch_of_one_table` says that they fit if every line makes a row for one
table.
-/

namespace WazuhOcsf

open Transition Trace DbState

variable {ext : Externals} {cfg : AppConfig} {start : TailState}

/-! ## Since the last save -/

/-- The event is not a save, or the save failed. -/
def Event.isUnsaved (e : Event) : Bool := e.persistedState.isNone

/-- The events after the last persisted state. -/
def sinceSave (log : List Event) : List Event := log.rtakeWhile Event.isUnsaved

/-- A line taken from the channel for which there is no row. -/
def Event.rowlessMessage : Event → Option Message
  | received r => if r.row.isNone then some r.message else none
  | _ => none

/-- The lines taken since the last save. -/
def takenSince (log : List Event) : List Message := receivedMessages (sinceSave log)

/-- Those of them that made no row. -/
def rowlessSince (log : List Event) : List Message :=
  (sinceSave log).filterMap Event.rowlessMessage

theorem sinceSave_append {log new : List Event} (h : new.filterMap Event.persistedState = []) :
    sinceSave (log ++ new) = sinceSave log ++ new := by
  induction new using List.reverseRecOn with
  | nil => simp
  | append_singleton new e ih =>
      rw [List.filterMap_append, List.append_eq_nil_iff] at h
      have he : e.isUnsaved := by
        simpa [Event.isUnsaved] using List.filterMap_eq_nil_iff.mp h.2 e (List.mem_singleton_self e)
      calc sinceSave (log ++ (new ++ [e]))
        _ = sinceSave (log ++ new ++ [e]) := by rw [List.append_assoc]
        _ = sinceSave (log ++ new) ++ [e] := List.rtakeWhile_concat_pos Event.isUnsaved _ _ he
        _ = sinceSave log ++ (new ++ [e]) := by rw [ih h.1, List.append_assoc]

theorem sinceSave_received (log : List Event) (r : Reception) :
    sinceSave (log ++ [.received r]) = sinceSave log ++ [.received r] :=
  sinceSave_append (by simp [Event.persistedState])

theorem takenSince_received (log : List Event) (r : Reception) :
    takenSince (log ++ [.received r]) = takenSince log ++ [r.message] := by
  rw [takenSince, sinceSave_received]
  simp [takenSince, receivedMessages, Event.receivedMessage]

theorem sinceSave_save (log : List Event) (state : TailState) :
    sinceSave (log ++ [.saved state true]) = [] :=
  List.rtakeWhile_concat_neg Event.isUnsaved log _ (by simp [Event.isUnsaved, Event.persistedState])

section

variable {s s' : LoopState} {a : Action} (hstep : step ext cfg s a = some s')
include hstep

/-- A step other than a save goes on with the events since the last one. -/
theorem sinceSave_of_step (hsave : ∀ inode ok, a ≠ .save inode ok) :
    ∃ new, s'.log = s.log ++ new ∧ new.filterMap Event.persistedState = [] ∧
      sinceSave s'.log = sinceSave s.log ++ new := by
  obtain ⟨new, hnew⟩ := log_prefix_of_step hstep
  have hpersisted : s'.log.filterMap Event.persistedState = s.log.filterMap Event.persistedState :=
    filterMap_of_step hstep quiet_persistedState (fun _ _ => rfl) (fun _ => rfl)
      (fun _ _ => rfl) fun inode ok heq => absurd heq (hsave inode ok)
  rw [← hnew, List.filterMap_append] at hpersisted
  have hnone := List.append_right_eq_self.mp hpersisted
  exact ⟨new, hnew.symm, hnone, hnew ▸ sinceSave_append hnone⟩

end

/-- A flush takes no line. -/
theorem filterMap_sinceSave_of_flush {s s' : LoopState} {env : FlushEnv}
    (hstep : step ext cfg s (.flush env) = some s') {β : Type*} {f : Event → Option β}
    (hquiet : Quiet f) (htaken : ∀ table rows, f (.taken table rows) = none) :
    (sinceSave s'.log).filterMap f = (sinceSave s.log).filterMap f := by
  obtain ⟨new, hlog, -, hsince⟩ := sinceSave_of_step hstep fun _ _ heq => nomatch heq
  have hseen : s'.log.filterMap f = s.log.filterMap f := by
    cases moves_of_step ext cfg hstep with
    | flush env final hpc =>
        dsimp only [LoopState.log]
        rw [hquiet.flushAll _ _ _ _ htaken, hquiet.registerColumns]
  rw [hlog, List.filterMap_append] at hseen
  rw [hsince, List.filterMap_append, List.append_right_eq_self.mp hseen, List.append_nil]

theorem takenSince_of_flush {s s' : LoopState} {env : FlushEnv}
    (hstep : step ext cfg s (.flush env) = some s') : takenSince s'.log = takenSince s.log :=
  filterMap_sinceSave_of_flush hstep quiet_receivedMessage fun _ _ => rfl

/-! ## Rows in the buffers -/

theorem pending_push (batches : BatchMap) (table : String) (rec : OcsfRecord) :
    ((batches.push table rec).entries.map fun bucket => bucket.2.length).sum =
      (batches.entries.map fun bucket => bucket.2.length).sum + 1 :=
  HashMap.sum_upsert (fun old => by cases old <;> simp) batches table

/-- A line adds its row, if it has one. -/
theorem pending_bufferRow (s : LoopState) (row : Option (String × OcsfRecord)) :
    (bufferRow cfg s row).pending = s.pending + row.toList.length := by
  obtain - | ⟨table, rec⟩ := row
  · rfl
  · exact pending_push s.batches table rec

/-! ## The loop -/

/-- The reader can put a line into the channel. -/
def LoopState.isOpen (s : LoopState) : Bool := !s.shuttingDown && !s.senderGone

/-- The rows in all buffers, and the lines without a row since the last save. -/
def LoopState.unsaved (s : LoopState) : ℕ := s.pending + (rowlessSince s.log).length

/-- What waits between the reader and the persisted offset. -/
structure BacklogInv (cfg : AppConfig) (s : LoopState) : Prop where
  counted : s.pc = .selecting ∨ (∃ final, s.pc = .flushing final) →
    s.unsaved = (takenSince s.log).length
  emptied : (∃ final, s.pc = .saving final) → s.pending = 0
  room : s.channel.length ≤ cfg.channelCap
  batch : s.isOpen → (takenSince s.log).length ≤ cfg.batchSize
  bounded : (takenSince s.log).length + s.channel.length ≤ cfg.channelCap + cfg.batchSize

theorem backlogInv_initial (mappings : CustomMappings) (startOffset : ℕ) :
    BacklogInv cfg (.initial mappings startOffset) where
  counted _ := rfl
  emptied _ := rfl
  room := Nat.zero_le _
  batch _ := Nat.zero_le _
  bounded := Nat.zero_le _

/-- A line is taken only when what is unsaved leaves room for it in a batch, or when no
more lines can follow. -/
def LoopState.HasRoom (cfg : AppConfig) (s : LoopState) : Prop :=
  s.channel = [] ∨ s.isOpen = false ∨ s.unsaved < cfg.batchSize

instance (s : LoopState) : Decidable (s.HasRoom cfg) :=
  inferInstanceAs (Decidable (s.channel = [] ∨ s.isOpen = false ∨ s.unsaved < cfg.batchSize))

namespace BacklogInv

variable {s s' : LoopState}

/-- An event that is neither a line taken nor a save changes no count. -/
theorem sinceSave_quiet {e : Event} (hpersisted : e.persistedState = none)
    (hreceived : e.receivedMessage = none) (hrowless : e.rowlessMessage = none) (log : List Event) :
    takenSince (log ++ [e]) = takenSince log ∧ rowlessSince (log ++ [e]) = rowlessSince log := by
  have hsince : sinceSave (log ++ [e]) = sinceSave log ++ [e] :=
    sinceSave_append (by simp [hpersisted])
  constructor
  · simp [takenSince, receivedMessages, hsince, hreceived]
  · simp [rowlessSince, hsince, hrowless]

theorem send (h : BacklogInv cfg s) (m : Message)
    (hopen : s.shuttingDown = false ∧ s.senderGone = false)
    (hroom : s.channel.length < cfg.channelCap) :
    BacklogInv cfg { s with channel := s.channel ++ [m], db := s.db.record [.sent m] } := by
  obtain ⟨htaken, hrowless⟩ := sinceSave_quiet (e := .sent m) rfl rfl rfl s.log
  have hbatch : (takenSince s.log).length ≤ cfg.batchSize := h.batch (by simp [LoopState.isOpen, hopen])
  constructor
  case counted =>
    intro hpc
    show s.pending + (rowlessSince (s.log ++ [.sent m])).length =
      (takenSince (s.log ++ [.sent m])).length
    rw [htaken, hrowless]
    exact h.counted hpc
  case emptied => exact h.emptied
  case room =>
    rw [List.length_append, List.length_singleton]
    exact hroom
  case batch => exact fun _ => htaken ▸ hbatch
  case bounded =>
    show (takenSince (s.log ++ [.sent m])).length + (s.channel ++ [m]).length ≤ _
    rw [htaken, List.length_append, List.length_singleton]
    omega

/-- The end at which lines enter is closed. -/
theorem closed (h : BacklogInv cfg s) {shuttingDown senderGone : Bool}
    (hclosed : shuttingDown ∨ senderGone) :
    BacklogInv cfg { s with shuttingDown := shuttingDown, senderGone := senderGone } where
  counted := h.counted
  emptied := h.emptied
  room := h.room
  batch hopen := by
    rcases hclosed with rfl | rfl <;> simp [LoopState.isOpen] at hopen
  bounded := h.bounded

/-- The loop turns to a flush. -/
theorem toFlush (h : BacklogInv cfg s) (hpc : s.pc = .selecting) (final : Bool) :
    BacklogInv cfg { s with pc := .flushing final } where
  counted _ := h.counted (.inl hpc)
  emptied hsaving := by simp at hsaving
  room := h.room
  batch := h.batch
  bounded := h.bounded

theorem recv (h : BacklogInv cfg s) (r : Reception) {rest : List Message} (hpc : s.pc = .selecting)
    (hchannel : s.channel = r.message :: rest)
    (hbatch : s.isOpen = false ∨ s.unsaved < cfg.batchSize) :
    BacklogInv cfg (bufferRow cfg
      { s with
        channel := rest
        currentOffset := r.message.offset
        db := s.db.record [.received r] } r.row) := by
  set next : LoopState := { s with
    channel := rest
    currentOffset := r.message.offset
    db := s.db.record [.received r] } with hnext
  have hlog : (bufferRow cfg next r.row).log = s.log ++ [.received r] :=
    log_bufferRow_received s r rest
  have htaken : (takenSince (bufferRow cfg next r.row).log).length =
      (takenSince s.log).length + 1 := by
    rw [hlog, takenSince_received, List.length_append, List.length_singleton]
  have hunsaved : (bufferRow cfg next r.row).unsaved = s.unsaved + 1 := by
    rw [LoopState.unsaved, hlog, pending_bufferRow, rowlessSince, sinceSave_received,
      LoopState.unsaved]
    cases hrow : r.row with
    | none =>
        simp [rowlessSince, Event.rowlessMessage, hnext, LoopState.pending, hrow]
        omega
    | some row =>
        simp [rowlessSince, Event.rowlessMessage, hnext, LoopState.pending, hrow]
        omega
  have hcounted := h.counted (.inl hpc)
  have hroom := h.room
  have hbounded := h.bounded
  rw [hchannel, List.length_cons] at hroom hbounded
  have hopen : (bufferRow cfg next r.row).isOpen = s.isOpen := by
    cases r.row <;> rfl
  constructor
  case counted => exact fun _ => by rw [hunsaved, htaken, hcounted]
  case emptied =>
    rintro ⟨final, hsaving⟩
    exact absurd hsaving (bufferRow_not_saving next r.row hpc final)
  case room =>
    rw [bufferRow_channel]
    exact (Nat.le_succ _).trans hroom
  case batch =>
    intro hstill
    rw [hopen] at hstill
    have hfits : s.unsaved < cfg.batchSize := hbatch.resolve_left (by simp [hstill])
    omega
  case bounded =>
    rw [bufferRow_channel, htaken]
    show _ + rest.length ≤ _
    omega

theorem flush (h : BacklogInv cfg s) {env : FlushEnv} {loop : LoopState}
    (hstep : WazuhOcsf.step ext cfg s (.flush env) = some loop) : BacklogInv cfg loop := by
  have htaken := takenSince_of_flush hstep
  have hchannel : loop.channel = s.channel ∧ loop.isOpen = s.isOpen ∧ loop.pending = 0 ∧
      ∃ final, loop.pc = .saving final := by
    cases moves_of_step ext cfg hstep with
    | flush env final hpc =>
        refine ⟨rfl, rfl, ?_, final, rfl⟩
        rw [LoopState.pending, entries_flushAll]
        rfl
  obtain ⟨hchannel, hopen, hpending, final, hpc⟩ := hchannel
  constructor
  case counted => simp [hpc]
  case emptied => exact fun _ => hpending
  case room => exact hchannel ▸ h.room
  case batch => exact hopen ▸ htaken ▸ h.batch
  case bounded => exact hchannel ▸ htaken ▸ h.bounded

theorem save (h : BacklogInv cfg s) {final : Bool} (hpc : s.pc = .saving final)
    (state : TailState) :
    BacklogInv cfg { s with
      db := s.db.record [.saved state true]
      pc := if final then .exited else .selecting } := by
  have htaken : takenSince (s.log ++ [.saved state true]) = [] := by
    rw [takenSince, sinceSave_save]
    rfl
  have hrowless : rowlessSince (s.log ++ [.saved state true]) = [] := by
    rw [rowlessSince, sinceSave_save]
    rfl
  constructor
  case counted =>
    intro _
    show s.pending + (rowlessSince (s.log ++ [.saved state true])).length =
      (takenSince (s.log ++ [.saved state true])).length
    rw [htaken, hrowless, h.emptied ⟨final, hpc⟩]
    rfl
  case emptied =>
    rintro ⟨final', hsaving⟩
    cases final <;> simp at hsaving
  case room => exact h.room
  case batch =>
    intro _
    show (takenSince (s.log ++ [.saved state true])).length ≤ _
    rw [htaken]
    exact Nat.zero_le _
  case bounded =>
    show (takenSince (s.log ++ [.saved state true])).length + s.channel.length ≤ _
    rw [htaken, List.length_nil, Nat.zero_add]
    exact h.room.trans (Nat.le_add_right _ _)

theorem step {a : Action} (h : BacklogInv cfg s) (hroom : ∀ env, a = .recv env → s.HasRoom cfg)
    (hsaved : ∀ inode ok, a = .save inode ok → ok = true)
    (hstep : WazuhOcsf.step ext cfg s a = some s') : BacklogInv cfg s' := by
  cases moves_of_step ext cfg hstep with
  | send m hopen hfree => exact h.send m hopen hfree
  | readerDone => exact h.closed (.inr rfl)
  | reload mappings => exact { h with }
  | recv env m rest hpc hchannel =>
      exact h.recv (receive ext cfg env s m) hpc hchannel
        ((hroom env rfl).resolve_left (by simp [hchannel]))
  | recvClosed env hpc hchannel hclosed => exact h.toFlush hpc true
  | tickFlush hpc hpending => exact h.toFlush hpc false
  | tickIdle hpc hpending => exact h
  | shutdown hpc => exact h.closed (.inl rfl)
  | flush env final hpc => exact h.flush hstep
  | save inode ok final hpc =>
      obtain rfl := hsaved inode ok rfl
      exact h.save hpc _

end BacklogInv

/-! ## Reader and loop -/

/-- The file is not rotated, and every save succeeds. -/
def Steady : System.Action → Prop
  | .write (.append _) => True
  | .write _ => False
  | .save ok => ok = true
  | _ => True

instance : DecidablePred Steady
  | .write (.append _) => .isTrue trivial
  | .write .rename | .write (.create _) => .isFalse id
  | .save ok => inferInstanceAs (Decidable (ok = true))
  | .read | .deliver | .reload _ | .recv _ | .tick | .shutdown | .flush _ => .isTrue trivial

theorem Steady.appending {a : System.Action} (h : Steady a) : Appending a := by
  cases a with
  | write op => cases op <;> exact h
  | _ => trivial

/-- Besides, the loop takes a line only when the unsaved ones leave room for it. -/
def WithinBatch (cfg : AppConfig) (s : System) : System.Action → Prop
  | .recv _ => s.loop.HasRoom cfg
  | a => Steady a

instance (s : System) : DecidablePred (WithinBatch cfg s)
  | .recv _ => inferInstanceAs (Decidable (s.loop.HasRoom cfg))
  | .write op => inferInstanceAs (Decidable (Steady (.write op)))
  | .save ok => inferInstanceAs (Decidable (Steady (.save ok)))
  | .read | .deliver | .reload _ | .tick | .shutdown | .flush _ => .isTrue trivial

theorem WithinBatch.steady {s : System} {a : System.Action} (h : WithinBatch cfg s a) :
    Steady a := by
  cases a with
  | recv env => trivial
  | _ => exact h

/-- The offset in the state file, `persisted` when the process started. -/
def persistedOffset (persisted : ℕ) (log : List Event) : ℕ :=
  ((persistedStates log).getLast?.map TailState.offset).getD persisted

/-- The lines the reader has emitted beyond the persisted offset: those it sent, and the
one waiting in `send`. -/
def unpersisted (persisted : ℕ) (s : System) : List Message :=
  (sentMessages s.loop.log ++ s.reader.message.toList).filter fun m =>
    persistedOffset persisted s.loop.log < m.offset

/-- Everything taken before the last save is behind the persisted offset. -/
def Behind (persisted : ℕ) (log : List Event) : Prop :=
  ∃ before, log = before ++ sinceSave log ∧
    ∀ m ∈ receivedMessages before, m.offset ≤ persistedOffset persisted log

theorem Behind.append {persisted : ℕ} {log new : List Event} (h : Behind persisted log)
    (hnew : new.filterMap Event.persistedState = []) : Behind persisted (log ++ new) := by
  obtain ⟨before, hlog, hbehind⟩ := h
  refine ⟨before, ?_, fun m hm => ?_⟩
  · rw [sinceSave_append hnew, ← List.append_assoc, ← hlog]
  · rw [persistedOffset, persistedStates, List.filterMap_append, hnew, List.append_nil]
    exact hbehind m hm

/-- What a run keeps whose every save succeeds: the position only goes forward, the buffers stay
small, and what is persisted is not far behind. -/
structure SteadyInv (ext : Externals) (cfg : AppConfig) (start : TailState) (persisted : ℕ)
    (s : System) : Prop where
  forward : ForwardInv ext cfg start s
  backlog : BacklogInv cfg s.loop
  behind : Behind persisted s.loop.log

namespace SteadyInv

variable {persisted : ℕ} {s s' : System}

theorem behind_of_step (h : SteadyInv ext cfg start persisted s) {a : Action} {loop : LoopState}
    (hsaved : ∀ inode ok, a = .save inode ok → ok = true)
    (hloop : WazuhOcsf.step ext cfg s.loop a = some loop) : Behind persisted loop.log := by
  by_cases hsave : ∃ inode ok, a = .save inode ok
  · obtain ⟨inode, ok, rfl⟩ := hsave
    obtain rfl := hsaved inode ok rfl
    rw [(log_of_save hloop).2]
    refine ⟨_, by rw [sinceSave_save, List.append_nil], fun m hm => ?_⟩
    have hreceived : m ∈ receivedMessages s.loop.log := by
      simpa [receivedMessages, Event.receivedMessage] using hm
    simpa [persistedOffset, persistedStates, Event.persistedState] using
      h.forward.offset_le hreceived
  · obtain ⟨new, hlog, hnew, -⟩ :=
      sinceSave_of_step hloop fun inode ok heq => hsave ⟨inode, ok, heq⟩
    exact hlog ▸ h.behind.append hnew

/-- What the loop contributes to a step. -/
theorem onLoop (h : SteadyInv ext cfg start persisted s) {a : Action} {loop : LoopState}
    (hloop : WazuhOcsf.step ext cfg s.loop a = some loop)
    (hroom : ∀ env, a = .recv env → s.loop.HasRoom cfg)
    (hsaved : ∀ inode ok, a = .save inode ok → ok = true) :
    BacklogInv cfg loop ∧ Behind persisted loop.log :=
  ⟨h.backlog.step hroom hsaved hloop, h.behind_of_step hsaved hloop⟩

theorem step {a : System.Action} (h : SteadyInv ext cfg start persisted s)
    (hwithin : WithinBatch cfg s a) (hstep : s.step ext cfg start a = some s') :
    SteadyInv ext cfg start persisted s' := by
  have hsteady := hwithin.steady
  have hloop : BacklogInv cfg s'.loop ∧ Behind persisted s'.loop.log := by
    cases System.moves_of_step ext cfg start hstep with
    | write hwrite => exact ⟨h.backlog, h.behind⟩
    | read => exact ⟨h.backlog, h.behind⟩
    | readLast hloop | deliverClosed hloop =>
        exact h.onLoop hloop (fun _ heq => nomatch heq) fun _ _ heq => nomatch heq
    | deliver hmessage hloop =>
        exact h.onLoop hloop (fun _ heq => nomatch heq) fun _ _ heq => nomatch heq
    | loop ha hloop =>
        refine h.onLoop hloop (fun env heq => ?_) fun inode ok heq => ?_
        · cases ha <;> cases heq
          exact hwithin
        · cases ha <;> cases heq
    | save hloop =>
        refine h.onLoop hloop (fun _ heq => nomatch heq) fun inode ok heq => ?_
        cases heq
        exact hsteady
  exact ⟨h.forward.step hsteady.appending hstep, hloop.1, hloop.2⟩

/-- The lines beyond the persisted offset were taken since the save, are in the channel,
or wait in `send`. -/
theorem length_unpersisted_le (h : SteadyInv ext cfg start persisted s) :
    (unpersisted persisted s).length ≤
      (takenSince s.loop.log).length + s.loop.channel.length + s.reader.message.toList.length := by
  obtain ⟨before, hlog, hbehind⟩ := h.behind
  have hsent : sentMessages s.loop.log =
      receivedMessages before ++ (takenSince s.loop.log ++ s.loop.channel) := by
    rw [← h.forward.loop.channel, ← List.append_assoc, takenSince]
    conv_lhs => rw [hlog, receivedMessages, List.filterMap_append]
    rfl
  have hnone : (receivedMessages before).filter
      (fun m => persistedOffset persisted s.loop.log < m.offset) = [] := by
    refine List.filter_eq_nil_iff.mpr fun m hm => ?_
    simpa using hbehind m hm
  calc (unpersisted persisted s).length
    _ = ((takenSince s.loop.log ++ s.loop.channel ++ s.reader.message.toList).filter fun m =>
          persistedOffset persisted s.loop.log < m.offset).length := by
        rw [unpersisted, hsent, List.append_assoc, List.filter_append, hnone, List.nil_append]
    _ ≤ (takenSince s.loop.log ++ s.loop.channel ++ s.reader.message.toList).length :=
        List.length_filter_le _ _
    _ = _ := by rw [List.length_append, List.length_append]

end SteadyInv

/-- In every run on a file that is not rotated, in which saves succeed and the loop takes
a line only while the unsaved ones leave room in a batch, a crash leaves at most the
channel, a batch, and the line in `send` to be read again. -/
theorem unpersisted_bounded {path : AlertsPath} {mappings : CustomMappings} {s : System}
    (persisted : ℕ)
    (run : RunWhere (System.step ext cfg start) (WithinBatch cfg) (.initial path start mappings) s) :
    (unpersisted persisted s).length ≤ cfg.channelCap + cfg.batchSize + 1 := by
  have h : SteadyInv ext cfg start persisted s := by
    refine run.invariant ⟨forwardInv_initial path mappings, backlogInv_initial mappings start.offset,
      [], rfl, fun m hm => absurd hm List.not_mem_nil⟩ fun _ _ _ h hwithin hstep => ?_
    exact h.step hwithin hstep
  have hlength := h.length_unpersisted_le
  have hbounded := h.backlog.bounded
  have hwaiting : s.reader.message.toList.length ≤ 1 := by
    cases s.reader.message <;> simp
  omega

theorem unpersisted_bounded_line : ∃ s,
    RunWhere (System.step sampleExternals sampleConfig ⟨1, 0⟩) (WithinBatch sampleConfig)
        (.initial samplePath ⟨1, 0⟩ default) s ∧
      (unpersisted 0 s).length = 1 ∧ (unpersisted 0 s).length ≤ 8 + 2 + 1 := by
  have hend : (exec (System.step sampleExternals sampleConfig ⟨1, 0⟩)
      (.initial samplePath ⟨1, 0⟩ default) sampleReceive).map
      (fun s => (unpersisted 0 s).length) = some 1 := by
    decide +kernel
  obtain ⟨s, hexec, hend⟩ := Option.map_eq_some_iff.mp hend
  have run : RunWhere (System.step sampleExternals sampleConfig ⟨1, 0⟩) (WithinBatch sampleConfig)
      (.initial samplePath ⟨1, 0⟩ default) s :=
    runWhere_of_exec hexec (by decide +kernel)
  exact ⟨s, run, hend, unpersisted_bounded 0 run⟩

/-- Four lines that are not JSON. -/
def unparseablePath : AlertsPath where
  older := []
  newest := ⟨1, "x\nx\nx\nx\n".toUTF8.data.toList⟩
  linked := true

/-- The smallest channel and the smallest batch. -/
def tightConfig : AppConfig := { sampleConfig with batchSize := 1, channelCap := 1 }

/-- Lines without a row are taken one after the other, and nothing is ever saved. -/
theorem unpersisted_exceeds : ∃ s,
    RunWhere (System.step sampleExternals tightConfig ⟨1, 0⟩) (fun _ => Steady)
        (.initial unparseablePath ⟨1, 0⟩ default) s ∧
      tightConfig.channelCap + tightConfig.batchSize + 1 < (unpersisted 0 s).length := by
  have hend : (exec (System.step sampleExternals tightConfig ⟨1, 0⟩)
      (.initial unparseablePath ⟨1, 0⟩ default)
      ([.read, .read] ++ (List.replicate 4 [.read, .deliver, .recv default]).flatten)).map
      (fun s => (unpersisted 0 s).length) = some 4 := by
    decide +kernel
  obtain ⟨s, hexec, hend⟩ := Option.map_eq_some_iff.mp hend
  refine ⟨s, runWhere_of_exec hexec (everyStep_of_forall (fun a ha s => ?_) _), ?_⟩
  · have hsteady : ∀ a ∈ ([.read, .read] ++
        (List.replicate 4 [.read, .deliver, .recv default]).flatten : List System.Action),
        Steady a := by decide
    exact hsteady a ha
  · rw [hend]
    decide

/-! ## Rows for one table -/

/-- Every line taken makes a row for the table. -/
def OneTable (ext : Externals) (cfg : AppConfig) (table : String) (s : System) :
    System.Action → Prop
  | .recv env => ∀ m ∈ s.loop.channel.head?,
      ∃ rec, rowOf ext cfg env s.loop.mappings m.line = some (table, rec)
  | a => Steady a

/-- The table's buffer is the only one, and no line went without a row. -/
structure OneTableInv (table : String) (s : LoopState) : Prop where
  only : ∀ key ∈ s.batches.keys, key = table
  rowless : rowlessSince s.log = []

namespace OneTableInv

variable {table : String} {s s' : LoopState}

/-- What is pending is in the one buffer. -/
theorem pending_eq (h : OneTableInv table s) : s.pending = (s.batches.rows table).length := by
  have hall : s.batches.entries.filter (·.1 = table) = s.batches.entries :=
    List.filter_eq_self.mpr fun entry hentry =>
      decide_eq_true (h.only entry.1 (List.mem_map_of_mem hentry))
  rw [LoopState.pending, ← hall, HashMap.filter_key, BatchMap.rows]
  cases s.batches.get table <;> simp

/-- Below the batch size of the one buffer there is room. -/
theorem hasRoom (h : OneTableInv table s) (hbatch : 0 < cfg.batchSize) {startOffset : ℕ}
    (hloop : LoopInv ext cfg startOffset s) (hpc : s.pc = .selecting) : s.HasRoom cfg := by
  have hsmall := hloop.small hpc table
  refine .inr (.inr ?_)
  rw [LoopState.unsaved, h.pending_eq, h.rowless, List.length_nil]
  omega

theorem recv (h : OneTableInv table s) {r : Reception} {rest : List Message} {rec : OcsfRecord}
    (hrow : r.row = some (table, rec)) : OneTableInv table (bufferRow cfg
      { s with
        channel := rest
        currentOffset := r.message.offset
        db := s.db.record [.received r] } r.row) where
  only key hkey := by
    rw [hrow] at hkey
    exact (HashMap.mem_keys_upsert.mp hkey).elim id (h.only key)
  rowless := by
    rw [LoopState.log, bufferRow_db, log_record, rowlessSince, sinceSave_received,
      List.filterMap_append]
    simpa [List.filterMap_cons, Event.rowlessMessage, rowlessSince, hrow] using h.rowless

theorem flush (h : OneTableInv table s) {env : FlushEnv} {loop : LoopState}
    (hstep : WazuhOcsf.step ext cfg s (.flush env) = some loop) : OneTableInv table loop where
  only := by
    cases moves_of_step ext cfg hstep with
    | flush env final hpc => simp [HashMap.keys, entries_flushAll]
  rowless := by
    have hquiet : Quiet Event.rowlessMessage := ⟨fun _ _ _ => rfl, fun _ _ => rfl, fun _ _ _ => rfl⟩
    rw [rowlessSince, filterMap_sinceSave_of_flush hstep hquiet fun _ _ => rfl]
    exact h.rowless

theorem step {a : Action} (h : OneTableInv table s) (hstep : WazuhOcsf.step ext cfg s a = some s')
    (hrow : ∀ env, a = .recv env → ∀ m ∈ s.channel.head?,
      ∃ rec, rowOf ext cfg env s.mappings m.line = some (table, rec))
    (hsaved : ∀ inode ok, a = .save inode ok → ok = true) : OneTableInv table s' := by
  cases moves_of_step ext cfg hstep with
  | send m hopen hfree =>
      exact ⟨h.only, (BacklogInv.sinceSave_quiet (e := .sent m) rfl rfl rfl s.log).2.trans h.rowless⟩
  | recv env m rest hpc hchannel =>
      obtain ⟨rec, hrec⟩ := hrow env rfl m (by rw [hchannel]; rfl)
      exact h.recv hrec
  | flush env final hpc => exact h.flush hstep
  | save inode ok final hpc =>
      obtain rfl := hsaved inode ok rfl
      refine ⟨h.only, ?_⟩
      rw [LoopState.log, log_record, rowlessSince, sinceSave_save]
      rfl
  | _ => exact ⟨h.only, h.rowless⟩

end OneTableInv

namespace OneTable

variable {table : String} {s s' : System} {a : System.Action}

theorem steady (h : OneTable ext cfg table s a) : Steady a := by
  cases a with
  | recv env => trivial
  | _ => exact h

/-- A line is taken in `select!`, where the one buffer is not full. -/
theorem withinBatch (h : OneTable ext cfg table s a) (hbatch : 0 < cfg.batchSize)
    (hloop : LoopInv ext cfg start.offset s.loop) (hone : OneTableInv table s.loop)
    (hstep : s.step ext cfg start a = some s') : WithinBatch cfg s a := by
  cases a with
  | recv env =>
      obtain ⟨loop, hrecv, rfl⟩ := Option.map_eq_some_iff.mp hstep
      refine hone.hasRoom hbatch hloop ?_
      cases moves_of_step ext cfg hrecv with
      | recv env m rest hpc hchannel => exact hpc
      | recvClosed env hpc hchannel hclosed => exact hpc
  | _ => exact h

theorem oneTableInv (h : OneTable ext cfg table s a) (hone : OneTableInv table s.loop)
    (hstep : s.step ext cfg start a = some s') : OneTableInv table s'.loop := by
  cases System.moves_of_step ext cfg start hstep with
  | write hwrite => exact hone
  | read => exact hone
  | readLast hloop | deliverClosed hloop =>
      exact hone.step hloop (fun _ heq => nomatch heq) fun _ _ heq => nomatch heq
  | deliver hmessage hloop =>
      exact hone.step hloop (fun _ heq => nomatch heq) fun _ _ heq => nomatch heq
  | loop ha hloop =>
      refine hone.step hloop (fun env heq => ?_) fun inode ok heq => ?_
      · cases ha <;> cases heq
        exact h
      · cases ha <;> cases heq
  | save hloop =>
      refine hone.step hloop (fun _ heq => nomatch heq) fun inode ok heq => ?_
      cases heq
      exact h

end OneTable

/-- With rows for one table only, the batch size the loop compares is the right one. -/
theorem withinBatch_of_one_table {table : String} {path : AlertsPath} {mappings : CustomMappings}
    {s : System} (hbatch : 0 < cfg.batchSize)
    (run : RunWhere (System.step ext cfg start) (OneTable ext cfg table)
      (.initial path start mappings) s) :
    RunWhere (System.step ext cfg start) (WithinBatch cfg) (.initial path start mappings) s := by
  have hempty : OneTableInv table (System.initial path start mappings).loop :=
    ⟨fun key hkey => absurd hkey List.not_mem_nil, rfl⟩
  have h := run.invariant
    (I := fun s => RunWhere (System.step ext cfg start) (WithinBatch cfg)
      (.initial path start mappings) s ∧ ForwardInv ext cfg start s ∧ OneTableInv table s.loop)
    ⟨.start, forwardInv_initial path mappings, hempty⟩ ?_
  · exact h.1
  · rintro s a s' ⟨hrun, hforward, hone⟩ honly hstep
    exact ⟨hrun.snoc (honly.withinBatch hbatch hforward.loop hone hstep) hstep,
      hforward.step honly.steady.appending hstep, honly.oneTableInv hone hstep⟩

end WazuhOcsf
