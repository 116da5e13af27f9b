import WazuhOcsf.Main.EventLoop
import WazuhOcsf.Output.FlushSpec

/-!
# Rows through the main loop

What batching does to rows, over every run of the main loop:

* `batching_correct`: no row is lost, duplicated, misrouted or reordered on its way
  into the vectors `flush_all` takes, a vector is inserted at most once and only
  into an ensured table, buffers stay small, and the exit leaves nothing behind.
  It rests on `LoopInv`, which every step preserves;
* `Delivered.step`: as long as the database accepts everything, the rows that were
  taken are in ClickHouse.
-/

namespace WazuhOcsf

open Transition Trace DbState

variable {ext : Externals} {cfg : AppConfig}

/-! ## Buffering -/

section

variable (s : LoopState) (row : Option (String × OcsfRecord))

@[simp] theorem bufferRow_db : (bufferRow cfg s row).db = s.db := by
  cases row <;> rfl

@[simp] theorem bufferRow_channel : (bufferRow cfg s row).channel = s.channel := by
  cases row <;> rfl

@[simp] theorem bufferRow_currentOffset :
    (bufferRow cfg s row).currentOffset = s.currentOffset := by
  cases row <;> rfl

@[simp] theorem bufferRow_mappings : (bufferRow cfg s row).mappings = s.mappings := by
  cases row <;> rfl

theorem rows_bufferRow (r : Reception) (table : String) :
    (bufferRow cfg s r.row).batches.rows table =
      s.batches.rows table ++ routed table [.received r] := by
  obtain ⟨m, cfg', env, mappings, row⟩ := r
  obtain - | ⟨t, rec⟩ := row
  · simp [bufferRow, routed, Event.routedRow, Reception.rowFor]
  · rw [bufferRow, BatchMap.rows_push]
    by_cases h : t = table <;> simp [routed, Event.routedRow, Reception.rowFor, h]

/-- A buffer that reaches the batch size sends the loop into a flush. -/
theorem bufferRow_small
    (hsmall : ∀ table, (s.batches.rows table).length < max 1 cfg.batchSize)
    (hselecting : (bufferRow cfg s row).pc = .selecting) (table : String) :
    ((bufferRow cfg s row).batches.rows table).length < max 1 cfg.batchSize := by
  obtain - | ⟨t, rec⟩ := row
  · exact hsmall table
  · have hroom : ¬ cfg.batchSize ≤ ((s.batches.push t rec).rows t).length := by
      intro hfull
      simp [bufferRow, hfull] at hselecting
    rw [bufferRow, BatchMap.rows_push]
    by_cases h : t = table
    · subst h
      rw [BatchMap.rows_push, if_pos rfl] at hroom
      rw [if_pos rfl]
      omega
    · simpa [h] using hsmall table

theorem bufferRow_pc (hpc : s.pc = .selecting) :
    (bufferRow cfg s row).pc = .selecting ∨ (bufferRow cfg s row).pc = .flushing false := by
  obtain - | ⟨t, rec⟩ := row
  · exact .inl hpc
  · simp only [bufferRow]
    split_ifs <;> simp

/-- Taking a line leaves no position to be saved. -/
theorem bufferRow_not_saving (hpc : s.pc = .selecting) (final : Bool) :
    (bufferRow cfg s row).pc ≠ .saving final := by
  intro hsaving
  rcases bufferRow_pc s row hpc with h | h
  · rw [h] at hsaving
    cases hsaving
  · rw [h] at hsaving
    cases hsaving

/-- The log after `rx.recv()` returned a line. -/
theorem log_bufferRow_received (r : Reception) (rest : List Message) :
    (bufferRow cfg
      { s with
        channel := rest
        currentOffset := r.message.offset
        db := s.db.record [.received r] } r.row).log = s.log ++ [.received r] := by
  simp [LoopState.log]

end

/-! ## The invariant -/

/-- The row is what `transform` makes of the line, under the configuration and the table in
force. -/
def Reception.Sound (ext : Externals) (r : Reception) : Prop :=
  r.row = rowOf ext r.cfg r.env r.mappings r.message.line

/-- What holds between the steps of the loop. -/
structure LoopInv (ext : Externals) (cfg : AppConfig) (startOffset : ℕ) (s : LoopState) :
    Prop where
  taken : ∀ table, (takenVectors table s.log).flatten ++ s.batches.rows table = routed table s.log
  inserts : ∀ table, (insertCalls table s.log).Sublist (takenVectors table s.log)
  ensured : s.db.EnsuredFirst
  transformed : ∀ r ∈ receptions s.log, r.cfg = cfg ∧ r.Sound ext
  small : s.pc = .selecting → ∀ table, (s.batches.rows table).length < max 1 cfg.batchSize
  flushed : (∃ final, s.pc = .saving final) ∨ s.pc = .exited → ∀ table, s.batches.rows table = []
  channel : receivedMessages s.log ++ s.channel = sentMessages s.log
  offset : s.currentOffset =
    ((receivedMessages s.log).getLast?.map Message.offset).getD startOffset
  drained : s.pc = .flushing true ∨ s.pc = .saving true ∨ s.pc = .exited →
    s.channel = [] ∧ (s.shuttingDown ∨ s.senderGone)
  saved : s.pc = .exited → (savedStates s.log).getLast?.map TailState.offset = some s.currentOffset

theorem loopInv_initial (mappings : CustomMappings) (startOffset : ℕ) :
    LoopInv ext cfg startOffset (.initial mappings startOffset) where
  taken table := rfl
  inserts table := .slnil
  ensured := ⟨by simp [LoopState.initial], guarded_nil⟩
  transformed r hr := by simp [LoopState.initial, LoopState.log, receptions] at hr
  small _ table := by
    show 0 < max 1 cfg.batchSize
    omega
  flushed _ table := rfl
  channel := rfl
  offset := rfl
  drained h := by simp [LoopState.initial] at h
  saved h := by simp [LoopState.initial] at h

namespace LoopInv

variable {startOffset : ℕ} {s : LoopState}

/-- An event that is about no row. -/
theorem record (h : LoopInv ext cfg startOffset s) (e : Event) (hrow : ∀ table,
      e.routedRow table = none ∧ e.takenRows table = none ∧ e.insertedRows table = none)
    (hreception : e.reception = none) (hguard : ∀ before, InsertGuard before e) :
    (∀ table, (takenVectors table (s.log ++ [e])).flatten ++ s.batches.rows table =
        routed table (s.log ++ [e])) ∧
      (∀ table, (insertCalls table (s.log ++ [e])).Sublist (takenVectors table (s.log ++ [e]))) ∧
      (s.db.record [e]).EnsuredFirst ∧
      ∀ r ∈ receptions (s.log ++ [e]), r.cfg = cfg ∧ r.Sound ext := by
  refine ⟨fun table => ?_, fun table => ?_, h.ensured.record (by simpa using hguard), ?_⟩
  · simpa [takenVectors, routed, List.filterMap_cons, hrow table] using h.taken table
  · simpa [insertCalls, takenVectors, List.filterMap_cons, hrow table] using h.inserts table
  · simpa [receptions, List.filterMap_cons, hreception] using h.transformed

theorem send (h : LoopInv ext cfg startOffset s) (m : Message)
    (hopen : s.shuttingDown = false ∧ s.senderGone = false) :
    LoopInv ext cfg startOffset { s with
      channel := s.channel ++ [m]
      db := s.db.record [.sent m] } := by
  obtain ⟨htaken, hinserts, hensured, htransformed⟩ :=
    h.record (.sent m) (fun _ => ⟨rfl, rfl, rfl⟩) rfl fun _ => trivial
  constructor
  case taken => exact htaken
  case inserts => exact hinserts
  case ensured => exact hensured
  case transformed => exact htransformed
  case small => exact h.small
  case flushed => exact h.flushed
  case channel =>
    simp only [LoopState.log, receivedMessages, sentMessages, log_record, List.filterMap_append,
      List.filterMap_cons, Event.receivedMessage, Event.sentMessage, List.filterMap_nil,
      List.append_nil, ← List.append_assoc]
    exact congrArg (· ++ [m]) h.channel
  case offset => simpa [LoopState.log, receivedMessages, Event.receivedMessage] using h.offset
  case drained => exact fun hpc => absurd (h.drained hpc).2 (by simp [hopen])
  case saved => exact fun hpc => by simpa [LoopState.log, savedStates, Event.savedState] using h.saved hpc

theorem readerDone (h : LoopInv ext cfg startOffset s) :
    LoopInv ext cfg startOffset { s with senderGone := true } where
  __ := h
  drained hpc := ⟨(h.drained hpc).1, .inr rfl⟩

theorem recv (h : LoopInv ext cfg startOffset s) (env : TransformEnv) {m : Message}
    {rest : List Message} (hpc : s.pc = .selecting) (hchannel : s.channel = m :: rest) :
    LoopInv ext cfg startOffset (bufferRow cfg
      { s with
        channel := rest
        currentOffset := m.offset
        db := s.db.record [.received (receive ext cfg env s m)] }
      (receive ext cfg env s m).row) := by
  set r := receive ext cfg env s m with hr
  have hmessage : r.message = m := rfl
  set next : LoopState := { s with
    channel := rest
    currentOffset := m.offset
    db := s.db.record [.received r] } with hnext
  have hlog : (bufferRow cfg next r.row).log = s.log ++ [.received r] :=
    log_bufferRow_received s r rest
  have hafter := @bufferRow_pc cfg next r.row hpc
  have hbusy : ¬ ((∃ final, (bufferRow cfg next r.row).pc = .saving final) ∨
      (bufferRow cfg next r.row).pc = .exited) := by
    rcases hafter with h | h <;> simp [h]
  constructor
  case taken =>
    intro table
    rw [hlog, rows_bufferRow, ← List.append_assoc, routed_append, ← h.taken table]
    simp [takenVectors, Event.takenRows, hnext]
  case inserts =>
    intro table
    rw [hlog]
    simpa [insertCalls, takenVectors, List.filterMap_cons, Event.insertedRows, Event.takenRows]
      using h.inserts table
  case ensured =>
    rw [bufferRow_db]
    exact h.ensured.record (by simp [InsertGuard])
  case transformed =>
    rw [hlog]
    simp only [receptions, List.filterMap_append, List.forall_mem_append]
    exact ⟨h.transformed, List.forall_mem_singleton.mpr ⟨rfl, rfl⟩⟩
  case small =>
    exact fun hselecting table => bufferRow_small next r.row (h.small hpc) hselecting table
  case flushed => exact fun hpc' => absurd hpc' hbusy
  case channel =>
    rw [hlog, bufferRow_channel]
    simpa [receivedMessages, sentMessages, List.filterMap_cons, Event.receivedMessage,
      Event.sentMessage, hchannel, hnext, hmessage] using h.channel
  case offset =>
    rw [hlog, bufferRow_currentOffset]
    simp [receivedMessages, Event.receivedMessage, hnext, hmessage]
  case drained =>
    intro hpc'
    rcases hafter with h | h <;> simp [h] at hpc'
  case saved => exact fun hpc' => absurd (.inr hpc') hbusy

/-- The loop turns to a flush: to the last one only when nothing can arrive. -/
theorem toFlush (h : LoopInv ext cfg startOffset s) {final : Bool}
    (hfinal : final = true → s.channel = [] ∧ (s.shuttingDown ∨ s.senderGone)) :
    LoopInv ext cfg startOffset { s with pc := .flushing final } where
  __ := h
  small hpc := by simp at hpc
  flushed hpc := by simp at hpc
  drained hpc := hfinal (by simpa using hpc)
  saved hpc := by simp at hpc

theorem shutdown (h : LoopInv ext cfg startOffset s) :
    LoopInv ext cfg startOffset { s with shuttingDown := true } where
  __ := h
  drained hpc := ⟨(h.drained hpc).1, .inl rfl⟩

theorem flush (h : LoopInv ext cfg startOffset s) (env : FlushEnv) (customCols : List String)
    {final : Bool} (hpc : s.pc = .flushing final) :
    LoopInv ext cfg startOffset { s with
      batches := ((s.db.registerColumns env s.mappings).flushAll env customCols s.batches).1
      db := ((s.db.registerColumns env s.mappings).flushAll env customCols s.batches).2
      pc := .saving final } := by
  have hkeep : ∀ {β : Type} {f : Event → Option β}, Quiet f →
      (∀ table rows, f (.taken table rows) = none) →
      ((s.db.registerColumns env s.mappings).flushAll env customCols s.batches).2.log.filterMap f =
        s.log.filterMap f := by
    intro β f hf htaken
    rw [hf.flushAll _ _ _ _ htaken, hf.registerColumns]
  have hbefore : ∀ table, takenVectors table (s.db.registerColumns env s.mappings).log =
      takenVectors table s.log := fun table => (quiet_takenRows table).registerColumns s.mappings
  constructor
  case taken =>
    intro table
    have hrouted : routed table _ = routed table s.log :=
      hkeep (quiet_routedRow table) fun _ _ => rfl
    show _ ++ BatchMap.rows _ table = routed table _
    rw [rows_flushAll, takenVectors_flushAll, hbefore, hrouted, ← h.taken table]
    split
    · next hempty => simp [hempty]
    · simp
  case inserts =>
    intro table
    refine insertCalls_flushAll _ _ _ _ ?_
    rw [hbefore]
    have hcalls : insertCalls table (s.db.registerColumns env s.mappings).log =
        insertCalls table s.log := filterMap_registerColumns (fun _ _ _ => rfl) s.mappings
    exact hcalls ▸ h.inserts table
  case ensured => exact (h.ensured.registerColumns s.mappings).flushAll _
  case transformed =>
    have hreceptions : receptions _ = receptions s.log := hkeep quiet_reception fun _ _ => rfl
    exact hreceptions ▸ h.transformed
  case small => simp
  case flushed =>
    exact fun _ table => rows_flushAll env customCols (s.db.registerColumns env s.mappings) _ table
  case channel =>
    have hreceived : receivedMessages _ = receivedMessages s.log :=
      hkeep quiet_receivedMessage fun _ _ => rfl
    have hsent : sentMessages _ = sentMessages s.log := hkeep quiet_sentMessage fun _ _ => rfl
    exact hreceived ▸ hsent ▸ h.channel
  case offset =>
    have hreceived : receivedMessages _ = receivedMessages s.log :=
      hkeep quiet_receivedMessage fun _ _ => rfl
    exact hreceived ▸ h.offset
  case drained => exact fun hfinal => h.drained (by simpa [hpc] using hfinal)
  case saved => simp

theorem save (h : LoopInv ext cfg startOffset s) (inode : ℕ) (ok : Bool) {final : Bool}
    (hpc : s.pc = .saving final) :
    LoopInv ext cfg startOffset { s with
      db := s.db.record [.saved ⟨inode, s.currentOffset⟩ ok]
      pc := if final then .exited else .selecting } := by
  obtain ⟨htaken, hinserts, hensured, htransformed⟩ :=
    h.record (.saved ⟨inode, s.currentOffset⟩ ok) (fun _ => ⟨rfl, rfl, rfl⟩) rfl fun _ => trivial
  have hempty := h.flushed (.inl ⟨final, hpc⟩)
  constructor
  case taken => exact htaken
  case inserts => exact hinserts
  case ensured => exact hensured
  case transformed => exact htransformed
  case small =>
    intro _ table
    rw [hempty table, List.length_nil]
    omega
  case flushed => exact fun _ => hempty
  case channel =>
    simpa [LoopState.log, receivedMessages, sentMessages, List.filterMap_cons,
      Event.receivedMessage, Event.sentMessage] using h.channel
  case offset => simpa [LoopState.log, receivedMessages, Event.receivedMessage] using h.offset
  case drained =>
    intro hpc'
    cases final with
    | true => exact h.drained (.inr (.inl hpc))
    | false => simp at hpc'
  case saved => exact fun _ => by simp [LoopState.log, savedStates, Event.savedState]

theorem step {s' : LoopState} {a : Action} (h : LoopInv ext cfg startOffset s)
    (hstep : WazuhOcsf.step ext cfg s a = some s') : LoopInv ext cfg startOffset s' := by
  cases moves_of_step ext cfg hstep with
  | send m hopen hroom => exact h.send m hopen
  | readerDone => exact h.readerDone
  | reload mappings => exact { h with }
  | recv env m rest hpc hchannel => exact h.recv env hpc hchannel
  | recvClosed env hpc hchannel hclosed => exact h.toFlush fun _ => ⟨hchannel, hclosed⟩
  | tickFlush hpc hpending => exact h.toFlush (by simp)
  | tickIdle hpc hpending => exact h
  | shutdown hpc => exact h.shutdown
  | flush env final hpc => exact h.flush env _ hpc
  | save inode ok final hpc => exact h.save inode ok hpc

end LoopInv

/-- Every state the loop reaches satisfies the invariant. -/
theorem loopInv_of_reachable {mappings : CustomMappings} {startOffset : ℕ} {s : LoopState}
    (run : Reachable (step ext cfg) (.initial mappings startOffset) s) :
    LoopInv ext cfg startOffset s :=
  run.invariant (loopInv_initial mappings startOffset) fun _ _ _ h _ hstep => h.step hstep

/-! ## What a step records -/

section

variable {s s' : LoopState} {a : Action} (hstep : step ext cfg s a = some s')
include hstep

theorem log_prefix_of_step : s.log <+: s'.log := by
  cases moves_of_step ext cfg hstep with
  | send m hopen hroom => exact List.prefix_append _ _
  | recv env m rest hpc hchannel =>
      rw [LoopState.log, LoopState.log, bufferRow_db]
      exact List.prefix_append _ _
  | flush env final hpc =>
      exact (log_prefix_registerColumns s.mappings).trans (log_prefix_flushAll s.batches)
  | save inode ok final hpc => exact List.prefix_append _ _
  | _ => exact List.prefix_rfl

/-- Only a reload changes the mapping table. -/
theorem mappings_of_step (hreload : ∀ mappings, a ≠ .reload mappings) :
    s'.mappings = s.mappings := by
  cases moves_of_step ext cfg hstep with
  | reload mappings => exact absurd rfl (hreload mappings)
  | recv env m rest hpc hchannel => rw [bufferRow_mappings]
  | _ => rfl

/-- A projection that sees none of the events of the step. -/
theorem filterMap_of_step {β : Type*} {f : Event → Option β} (hquiet : Quiet f)
    (htaken : ∀ table rows, f (.taken table rows) = none)
    (hreceived : ∀ r, f (.received r) = none)
    (hsent : ∀ m, a = .send m → f (.sent m) = none)
    (hsaved : ∀ inode ok, a = .save inode ok → ∀ state, f (.saved state ok) = none) :
    s'.log.filterMap f = s.log.filterMap f := by
  cases moves_of_step ext cfg hstep with
  | send m hopen hroom =>
      simp [LoopState.log, hsent m rfl]
  | recv env m rest hpc hchannel =>
      simp [LoopState.log, hreceived]
  | flush env final hpc =>
      dsimp only [LoopState.log]
      rw [hquiet.flushAll _ _ _ _ htaken, hquiet.registerColumns]
  | save inode ok final hpc =>
      simp [LoopState.log, hsaved inode ok rfl]
  | _ => rfl

/-- Only `send` puts a message into the channel. -/
theorem sentMessages_of_step (hsend : ∀ m, a ≠ .send m) :
    sentMessages s'.log = sentMessages s.log :=
  filterMap_of_step hstep quiet_sentMessage (fun _ _ => rfl) (fun _ => rfl)
    (fun m heq => absurd heq (hsend m)) fun _ _ _ _ => rfl

/-- A property of saved states is not touched by a step that saves none. -/
theorem guarded_of_step {p : List Event → Event → Prop}
    (hp : ∀ e, e.savedState = none → ∀ before, p before e) (h : Guarded p s.log)
    (hsave : ∀ inode ok, a ≠ .save inode ok) : Guarded p s'.log :=
  h.extend (log_prefix_of_step hstep)
    (filterMap_of_step hstep quiet_savedState (fun _ _ => rfl) (fun _ => rfl)
      (fun _ _ => rfl) fun inode ok heq => absurd heq (hsave inode ok)) hp

end

theorem sentMessages_of_send {s s' : LoopState} {m : Message}
    (hstep : step ext cfg s (.send m) = some s') :
    sentMessages s'.log = sentMessages s.log ++ [m] := by
  cases moves_of_step ext cfg hstep with
  | send _ hopen hroom =>
      rw [LoopState.log, log_record, sentMessages, List.filterMap_append]
      rfl

/-- A state is saved after the flush, with the offset of the loop. -/
theorem log_of_save {s s' : LoopState} {inode : ℕ} {ok : Bool}
    (hstep : step ext cfg s (.save inode ok) = some s') :
    (∃ final, s.pc = .saving final) ∧ s'.log = s.log ++ [.saved ⟨inode, s.currentOffset⟩ ok] := by
  cases moves_of_step ext cfg hstep with
  | save _ _ final hpc => exact ⟨⟨final, hpc⟩, rfl⟩

/-! ## Batching -/

/-- Over every run and for every table: the vectors taken by `flush_all` and the
buffer are the rows routed to the table, in order; a vector is inserted at most
once, and only into a table that was ensured before; a buffer in `select!` is below
the batch size; and at the exit nothing is left and the position of the last line
is the last one saved. -/
theorem batching_correct {mappings : CustomMappings} {startOffset : ℕ} {s : LoopState}
    (run : Reachable (step ext cfg) (.initial mappings startOffset) s) :
    (∀ table, (takenVectors table s.log).flatten ++ s.batches.rows table = routed table s.log) ∧
    (∀ r ∈ receptions s.log, r.cfg = cfg ∧ r.Sound ext) ∧
    (∀ table, (insertCalls table s.log).Sublist (takenVectors table s.log)) ∧
    Guarded InsertGuard s.log ∧
    (s.pc = .selecting ∨ s.pc = .exited →
      ∀ table, (s.batches.rows table).length < max 1 cfg.batchSize) ∧
    (s.pc = .exited →
      receivedMessages s.log = sentMessages s.log ∧ s.channel = [] ∧
      (∀ table, s.batches.rows table = []) ∧
      (savedStates s.log).getLast?.map TailState.offset =
        some (((receivedMessages s.log).getLast?.map Message.offset).getD startOffset)) := by
  have h := loopInv_of_reachable run
  refine ⟨h.taken, h.transformed, h.inserts, h.ensured.inserts, ?_, ?_⟩
  · rintro (hselecting | hexited) table
    · exact h.small hselecting table
    · rw [h.flushed (.inr hexited) table, List.length_nil]
      omega
  · intro hexited
    have hchannel := (h.drained (.inr (.inr hexited))).1
    refine ⟨?_, hchannel, h.flushed (.inr hexited), ?_⟩
    · rw [← h.channel, hchannel, List.append_nil]
    · rw [h.saved hexited, h.offset]

/-! ## A line through the loop -/

/-- A batch size no single line reaches. -/
def sampleConfig : AppConfig where
  clickhouseDb := "wazuh"
  specialLocations := []
  dataTtlDays := none
  seekToEndOnFirstRun := false
  batchSize := 2
  channelCap := 8
  storeRawData := true

/-- The empty object. -/
def sampleLine : String := "\x7b\x7d"

/-- The parser knows `sampleLine`, an empty object. -/
def sampleExternals : Externals := .knowing sampleLine (.object [])

/-- Where the alerts of `sampleExternals` go. -/
def sampleTable : String := "wazuh.ocsf_unknown_agent"

/-- One line arrives, and the shutdown flushes it. -/
def sampleShutdown : List Action :=
  [.send ⟨3, sampleLine, 0⟩, .shutdown, .recv default, .recv default, .flush default, .save 7 true]

theorem batching_correct_shutdown :
    ∃ s, Reachable (step sampleExternals sampleConfig) (.initial default 0) s ∧
      s.pc = .exited ∧ (routed sampleTable s.log).length = 1 ∧
      (takenVectors sampleTable s.log).flatten ++ s.batches.rows sampleTable =
        routed sampleTable s.log ∧
      receivedMessages s.log = sentMessages s.log ∧
      (savedStates s.log).getLast?.map TailState.offset = some 3 := by
  have hend : (exec (step sampleExternals sampleConfig) (.initial default 0) sampleShutdown).map
      (fun s => (s.pc, (routed sampleTable s.log).length, receivedMessages s.log)) =
      some (.exited, 1, [⟨3, sampleLine, 0⟩]) := by
    decide +kernel
  obtain ⟨s, hexec, hend⟩ := Option.map_eq_some_iff.mp hend
  simp only [Prod.mk.injEq] at hend
  obtain ⟨hpc, hrouted, hreceived⟩ := hend
  have h := batching_correct (reachable_of_exec hexec)
  obtain ⟨hall, -, -, hsaved⟩ := h.2.2.2.2.2 hpc
  refine ⟨s, reachable_of_exec hexec, hpc, hrouted, h.1 _, hall, ?_⟩
  rw [hsaved, hreceived]
  rfl

/-! ## Delivery -/

/-- The rows routed to a table are accepted or wait in its buffer. -/
def Delivered (s : LoopState) : Prop :=
  ∀ table, accepted table s.log ++ s.batches.rows table = routed table s.log

theorem delivered_initial (mappings : CustomMappings) (startOffset : ℕ) :
    Delivered (.initial mappings startOffset) := fun _ => rfl

/-- No row is dropped by a step whose `ensure_table` and `insert_batch` calls succeed. -/
theorem Delivered.step {s s' : LoopState} {a : Action} (h : Delivered s)
    (hstep : WazuhOcsf.step ext cfg s a = some s')
    (haccepted : ∀ env, a = .flush env → AllAccepted env s.db s.batches) : Delivered s' := by
  intro table
  cases moves_of_step ext cfg hstep with
  | send m hopen hroom =>
      simpa [LoopState.log, accepted, routed, List.filterMap_cons, Event.acceptedRows,
        Event.routedRow] using h table
  | recv env m rest hpc hchannel =>
      rw [LoopState.log, bufferRow_db, log_record, rows_bufferRow, ← List.append_assoc,
        routed_append, ← h table]
      simp [accepted, List.filterMap_cons, Event.acceptedRows]
  | flush env final hpc =>
      have hbefore : accepted table (s.db.registerColumns env s.mappings).log =
          accepted table s.log :=
        congrArg List.flatten (filterMap_registerColumns (fun _ _ _ => rfl) s.mappings)
      have hrouted : routed table ((s.db.registerColumns env s.mappings).flushAll env
          (env.columnOrder.arrange (s.db.registerColumns env s.mappings).knownCustomCols)
          s.batches).2.log = routed table s.log := by
        have hquiet := quiet_routedRow table
        rw [routed, hquiet.flushAll _ _ _ _ fun _ _ => rfl, hquiet.registerColumns, ← routed]
      -- registering columns creates no table
      have hready : AllAccepted env (s.db.registerColumns env s.mappings) s.batches :=
        haccepted env rfl
      dsimp only [LoopState.log]
      rw [rows_flushAll, List.append_nil, hrouted, accepted_flushAll _ _ _ _ hready, hbefore,
        h table]
  | save inode ok final hpc =>
      simpa [LoopState.log, accepted, routed, List.filterMap_cons, Event.acceptedRows,
        Event.routedRow] using h table
  | _ => exact h table

end WazuhOcsf
