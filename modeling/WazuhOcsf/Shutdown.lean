import WazuhOcsf.Backlog
import WazuhOcsf.Library.Potential

/-!
# Progress and shutdown

What the main loop still has to do is a potential: every line in the channel is worth
four steps (it is taken, and may set off a timer flush, which talks to the database and
saves), and where the loop stands is worth the rest of its round.  Steps of the loop's own
use it up and only a line that is sent adds to it, whatever the database answers.  A tick
with nothing to flush changes nothing and is not counted: how many of them fall between two
steps is up to the scheduler.

* `workPotential`: in any run the loop's own steps are paid by the lines sent;
* `shutdown_terminates`: once nothing can be sent any more, the loop exits after a bounded
  number of counted steps, can always take one before, and has by then taken every line sent;
* `blocked_send_released`: a reader that finds the channel full gets its line through after
  at most four counted steps of the loop.
-/

namespace WazuhOcsf

open Transition DbState

variable {ext : Externals} {cfg : AppConfig} {startOffset : ℕ}

/-! ## The loop's own steps -/

/-- A step of the loop that counts.  A timer tick with nothing to flush does not, as it changes
nothing, nor does a move of another task. -/
def OwnStep (s : LoopState) : Action → Prop
  | .recv _ | .flush _ | .save _ _ => True
  | .tick => 0 < s.pending
  | .send _ | .readerDone | .reload _ | .shutdown => False

instance (s : LoopState) : (a : Action) → Decidable (OwnStep s a)
  | .recv _ | .flush _ | .save _ _ => .isTrue trivial
  | .tick => inferInstanceAs (Decidable (0 < s.pending))
  | .send _ | .readerDone | .reload _ | .shutdown => .isFalse id

/-- What a step costs. -/
def ownCost (s : LoopState) (a : Action) : ℕ := if OwnStep s a then 1 else 0

/-- What a line that is sent is worth. -/
def sendGain (_ : LoopState) : Action → ℕ
  | .send _ => 4
  | _ => 0

/-- The steps left in the round the loop is in. -/
def Pc.round (pending : ℕ) : Pc → ℕ
  | .exited => 0
  | .saving true => 1
  | .flushing true => 2
  | .selecting => if 0 < pending then 6 else 3
  | .saving false => 4
  | .flushing false => 5

theorem Pc.round_le (pc : Pc) (pending : ℕ) : pc.round pending ≤ 6 := by
  unfold Pc.round
  split <;> (try split) <;> omega

namespace LoopState

/-- What the loop still has to do. -/
def work (s : LoopState) : ℕ := s.pc.round s.pending + 4 * s.channel.length

theorem work_le (s : LoopState) : s.work ≤ 6 + 4 * s.channel.length :=
  Nat.add_le_add_right (s.pc.round_le s.pending) _

/-- No line can be sent any more. -/
def Closed (s : LoopState) : Prop := s.shuttingDown ∨ s.senderGone

theorem pending_eq_zero {s : LoopState} (h : ∀ table, s.batches.rows table = []) :
    s.pending = 0 := by
  refine List.sum_eq_zero_iff_forall_eq_nat.mpr fun n hn => ?_
  obtain ⟨⟨table, rows⟩, hentry, rfl⟩ := List.mem_map.mp hn
  have hrows : s.batches.rows table = rows := by
    rw [BatchMap.rows, (HashMap.get_eq_some_iff s.batches).mpr hentry]
    rfl
  rw [← hrows, h table]
  rfl

end LoopState

/-! ## Channel -/

/-- The channel never holds more than it was made for. -/
theorem channel_le_of_step {s s' : LoopState} {a : Action}
    (h : s.channel.length ≤ cfg.channelCap) (hstep : step ext cfg s a = some s') :
    s'.channel.length ≤ cfg.channelCap := by
  cases moves_of_step ext cfg hstep with
  | send m hopen hroom => simpa [Nat.succ_le_iff] using hroom
  | recv env m rest hpc hchannel =>
      rw [bufferRow_channel]
      rw [hchannel, List.length_cons] at h
      exact Nat.le_of_succ_le h
  | _ => exact h

/-- What the potential argument rests on. -/
structure Sound (ext : Externals) (cfg : AppConfig) (startOffset : ℕ) (s : LoopState) : Prop where
  loop : LoopInv ext cfg startOffset s
  room : s.channel.length ≤ cfg.channelCap

theorem Sound.step {s s' : LoopState} {a : Action} (h : Sound ext cfg startOffset s)
    (hstep : WazuhOcsf.step ext cfg s a = some s') : Sound ext cfg startOffset s' :=
  ⟨h.loop.step hstep, channel_le_of_step h.room hstep⟩

theorem sound_of_reachable {mappings : CustomMappings} {s : LoopState}
    (run : Reachable (step ext cfg) (.initial mappings startOffset) s) :
    Sound ext cfg startOffset s :=
  run.invariant ⟨loopInv_initial mappings startOffset, Nat.zero_le _⟩
    fun _ _ _ h _ hstep => h.step hstep

/-! ## The potential -/

/-- Every own step uses up some of the work, and a line that is sent adds four to it. -/
theorem work_of_step {s s' : LoopState} {a : Action} (h : LoopInv ext cfg startOffset s)
    (hstep : step ext cfg s a = some s') : s'.work + ownCost s a ≤ s.work + sendGain s a := by
  have hselecting : s.pc = .selecting → 3 ≤ s.pc.round s.pending := by
    intro hpc
    rw [hpc, Pc.round]
    split <;> omega
  cases moves_of_step ext cfg hstep with
  | send m hopen hroom =>
      -- the only step that adds to the work
      have hlength : (s.channel ++ [m]).length = s.channel.length + 1 := by simp
      show s.pc.round s.pending + 4 * (s.channel ++ [m]).length + 0 ≤ s.work + 4
      rw [LoopState.work, hlength]
      omega
  | readerDone => exact le_rfl
  | reload mappings => exact le_rfl
  | recv env m rest hpc hchannel =>
      -- the four steps of the line cover the longest round that can begin now
      have hbefore := hselecting hpc
      have hlength : s.channel.length = rest.length + 1 := by rw [hchannel, List.length_cons]
      set next := bufferRow cfg _ _ with hnext
      have hafter : next.work ≤ 6 + 4 * rest.length := by
        have hle := next.work_le
        rwa [hnext, bufferRow_channel] at hle
      have hwork : s.work = s.pc.round s.pending + 4 * (rest.length + 1) := by
        rw [LoopState.work, hlength]
      show next.work + 1 ≤ s.work + 0
      omega
  | recvClosed env hpc hchannel hclosed =>
      -- the last flush and the last save are left
      have hbefore := hselecting hpc
      show 2 + 4 * s.channel.length + 1 ≤ s.work + 0
      rw [LoopState.work]
      omega
  | tickFlush hpc hpending =>
      have hbefore : s.work = 6 + 4 * s.channel.length := by
        rw [LoopState.work, hpc, Pc.round, if_pos hpending]
      rw [hbefore, ownCost, if_pos (show OwnStep s .tick from hpending)]
      show 5 + 4 * s.channel.length + 1 ≤ 6 + 4 * s.channel.length + 0
      omega
  | tickIdle hpc hpending =>
      rw [ownCost, if_neg (show ¬ OwnStep s .tick from hpending)]
      exact le_rfl
  | shutdown hpc => exact le_rfl
  | flush env final hpc =>
      rw [LoopState.work, LoopState.work, hpc]
      show Pc.round _ (.saving final) + 4 * s.channel.length + 1 ≤ _
      cases final with
      | true => show 1 + _ + 1 ≤ 2 + _; omega
      | false => show 4 + _ + 1 ≤ 5 + _; omega
  | save inode ok final hpc =>
      rw [LoopState.work, LoopState.work, hpc]
      cases final with
      | true =>
          show 0 + 4 * s.channel.length + 1 ≤ 1 + 4 * s.channel.length + 0
          omega
      | false =>
          -- after a flush no row is pending, so the next round is a short one
          have hpending : s.pending = 0 :=
            LoopState.pending_eq_zero (h.flushed (.inl ⟨false, hpc⟩))
          show Pc.round s.pending .selecting + 4 * s.channel.length + 1 ≤
            4 + 4 * s.channel.length + 0
          rw [hpending]
          show 3 + _ + 1 ≤ _
          omega

theorem workPotential :
    Potential (step ext cfg) (LoopInv ext cfg startOffset) (fun _ _ => True) ownCost sendGain
      LoopState.work where
  keeps _ _ _ h _ hstep := h.step hstep
  pays _ _ _ h _ hstep := work_of_step h hstep

/-! ## After the last line -/

section

variable {s s' : LoopState} {a : Action}

/-- A closed channel stays closed, and nothing is sent into it. -/
theorem closed_of_step (h : s.Closed) (hstep : step ext cfg s a = some s') :
    s'.Closed ∧ sendGain s a = 0 ∧ sentMessages s'.log = sentMessages s.log := by
  have hsend : ∀ m, a ≠ .send m := by
    rintro m rfl
    cases moves_of_step ext cfg hstep with
    | send m hopen hroom => simp [LoopState.Closed, hopen] at h
  refine ⟨?_, ?_, sentMessages_of_step hstep hsend⟩
  · cases moves_of_step ext cfg hstep with
    | readerDone => exact .inr rfl
    | shutdown hpc => exact .inl rfl
    | recv env m rest hpc hchannel =>
        cases hrow : (receive ext cfg env s m).row with
        | none => exact h
        | some row => exact h
    | _ => exact h
  · cases a with
    | send m => exact absurd rfl (hsend m)
    | _ => rfl

/-- The loop waits for nothing but the next line. -/
theorem exists_own_step (hclosed : s.Closed) (hpc : s.pc ≠ .exited) :
    ∃ a, OwnStep s a ∧ (step ext cfg s a).isSome := by
  cases hat : s.pc with
  | selecting =>
      refine ⟨.recv default, trivial, ?_⟩
      cases hchannel : s.channel with
      | nil => simpa [step, hat, hchannel, LoopState.Closed] using hclosed
      | cons m rest => simp [step, hat, hchannel]
  | flushing final => exact ⟨.flush default, trivial, by simp [step, hat]⟩
  | saving final => exact ⟨.save 0 true, trivial, by simp [step, hat]⟩
  | exited => exact absurd hat hpc

end

/-- Once nothing can be sent any more, the loop takes at most so many steps that count,
however idle ticks and the moves of the other tasks fall between them and whatever the
database answers.  Until it exits it can take one.  When it exits, every line sent before was
received, the rows of all lines were handed to the database, and the position of the last line
was saved. -/
theorem shutdown_terminates {mappings : CustomMappings} {s s' : LoopState} {actions : List Action}
    (run : Reachable (step ext cfg) (.initial mappings startOffset) s)
    (hclosed : s.shuttingDown ∨ s.senderGone)
    (hexec : exec (step ext cfg) s actions = some s') :
    total (step ext cfg) ownCost s actions ≤ 4 * cfg.channelCap + 6 ∧
    (s'.pc ≠ .exited → ∃ a, OwnStep s' a ∧ (step ext cfg s' a).isSome) ∧
    (s'.pc = .exited →
      receivedMessages s'.log = sentMessages s.log ∧
      (∀ table, (takenVectors table s'.log).flatten = routed table s'.log) ∧
      (savedStates s'.log).getLast?.map TailState.offset =
        some (((sentMessages s.log).getLast?.map Message.offset).getD startOffset)) := by
  have hsound := sound_of_reachable run
  have hafter : s'.Closed ∧ sentMessages s'.log = sentMessages s.log := by
    refine (reachable_of_exec hexec).invariant
      (I := fun x => x.Closed ∧ sentMessages x.log = sentMessages s.log) ⟨hclosed, rfl⟩ ?_
    intro x a x' hx _ hstep
    obtain ⟨hstill, -, hsent⟩ := closed_of_step hx.1 hstep
    exact ⟨hstill, hsent.trans hx.2⟩
  refine ⟨?_, exists_own_step hafter.1, fun hexit => ?_⟩
  · have hpaid := workPotential.total_le hsound.loop (everyStep_of_forall (fun _ _ _ => trivial) s)
      hexec
    have hgain : total (step ext cfg) sendGain s actions = 0 := by
      refine total_eq_zero (everyStep_of_exec (I := LoopState.Closed) hclosed ?_ hexec)
      intro x a x' hx hstep
      obtain ⟨hstill, hgain, -⟩ := closed_of_step hx hstep
      exact ⟨hstill, hgain⟩
    have hwork := s.work_le
    have hroom := hsound.room
    omega
  · have hloop := loopInv_of_reachable (run.trans (reachable_of_exec hexec))
    have hchannel := (hloop.drained (.inr (.inr hexit))).1
    have hreceived : receivedMessages s'.log = sentMessages s.log := by
      rw [← hafter.2, ← hloop.channel, hchannel, List.append_nil]
    refine ⟨hreceived, fun table => ?_, ?_⟩
    · rw [← hloop.taken table, hloop.flushed (.inr hexit) table, List.append_nil]
    · rw [hloop.saved hexit, hloop.offset, hreceived]

/-- One line, and the signal. -/
def sampleSignal : List Action := [.send ⟨3, sampleLine, 0⟩, .shutdown]

/-- What the loop does then. -/
def sampleExit : List Action := [.recv default, .recv default, .flush default, .save 7 true]

theorem shutdown_terminates_line : ∃ s s',
    exec (step sampleExternals sampleConfig) (.initial default 0) sampleSignal = some s ∧
      exec (step sampleExternals sampleConfig) s sampleExit = some s' ∧ s'.pc = .exited ∧
      total (step sampleExternals sampleConfig) ownCost s sampleExit ≤ 4 * 8 + 6 ∧
      receivedMessages s'.log = sentMessages s.log := by
  have hsignal : (exec (step sampleExternals sampleConfig) (.initial default 0) sampleSignal).map
      LoopState.shuttingDown = some true := by
    decide +kernel
  have hexit : (exec (step sampleExternals sampleConfig) (.initial default 0)
      (sampleSignal ++ sampleExit)).map LoopState.pc = some .exited := by
    decide +kernel
  obtain ⟨s, hs, hclosed⟩ := Option.map_eq_some_iff.mp hsignal
  rw [exec_append, hs, Option.bind_some] at hexit
  obtain ⟨s', hs', hpc⟩ := Option.map_eq_some_iff.mp hexit
  have h := shutdown_terminates (reachable_of_exec hs) (.inl hclosed) hs'
  exact ⟨s, s', hs, hs', hpc, h.1, (h.2.2 hpc).1⟩

/-! ## The reader at a full channel -/

theorem senderGone_of_step {s s' : LoopState} {a : Action} (hstep : step ext cfg s a = some s')
    (hne : a ≠ .readerDone) : s'.senderGone = s.senderGone := by
  cases moves_of_step ext cfg hstep with
  | readerDone => exact absurd rfl hne
  | recv env m rest hpc hchannel =>
      cases hrow : (receive ext cfg env s m).row with
      | none => rfl
      | some row => rfl
  | _ => rfl

/-- The steps until the loop takes a line, if there is one. -/
def Pc.untilTaken (pending : ℕ) : Pc → ℕ
  | .selecting => if 0 < pending then 3 else 0
  | .flushing _ => 2
  | .saving _ => 1
  | .exited => 0

theorem Pc.untilTaken_le (pc : Pc) (pending : ℕ) : pc.untilTaken pending ≤ 3 := by
  unfold Pc.untilTaken
  split <;> (try split) <;> omega

/-- A line is taken, or nobody waits for it any more. -/
def LoopState.Free (cfg : AppConfig) (s : LoopState) : Prop :=
  s.channel.length < cfg.channelCap ∨ s.shuttingDown

section

variable {s s' : LoopState} {a : Action}

theorem free_of_step (h : s.Free cfg) (hsend : ∀ m, a ≠ .send m)
    (hstep : step ext cfg s a = some s') : s'.Free cfg := by
  cases moves_of_step ext cfg hstep with
  | send m hopen hroom => exact absurd rfl (hsend m)
  | recv env m rest hpc hchannel =>
      set next := bufferRow cfg _ _ with hnext
      have hrest : next.channel = rest := by rw [hnext, bufferRow_channel]
      have hsame : next.shuttingDown = s.shuttingDown := by
        rw [hnext]
        cases (receive ext cfg env s m).row <;> rfl
      refine h.imp (fun hroom => ?_) fun hclosed => hsame ▸ hclosed
      rw [hchannel, List.length_cons] at hroom
      rw [hrest]
      exact Nat.lt_of_succ_lt hroom
  | shutdown hpc => exact .inr rfl
  | _ => exact h

/-- The loop's own steps lead to the next line. -/
theorem untilTaken_of_step (h : Sound ext cfg startOffset s) (hcap : 0 < cfg.channelCap)
    (hstep : step ext cfg s a = some s') (hfull : ¬ s'.Free cfg) :
    s'.pc.untilTaken s'.pending + ownCost s a ≤ s.pc.untilTaken s.pending := by
  cases moves_of_step ext cfg hstep with
  | recv env m rest hpc hchannel =>
      refine absurd (.inl ?_) hfull
      have hroom := h.room
      rw [hchannel, List.length_cons] at hroom
      rw [bufferRow_channel]
      exact hroom
  | recvClosed env hpc hchannel hclosed =>
      refine absurd (.inl ?_) hfull
      show s.channel.length < cfg.channelCap
      rw [hchannel]
      exact hcap
  | tickFlush hpc hpending =>
      rw [hpc, Pc.untilTaken, if_pos hpending, ownCost, if_pos (show OwnStep s .tick from hpending)]
      exact le_rfl
  | tickIdle hpc hpending =>
      rw [ownCost, if_neg (show ¬ OwnStep s .tick from hpending)]
      exact le_rfl
  | flush env final hpc =>
      rw [hpc]
      exact le_rfl
  | save inode ok final hpc =>
      rw [hpc]
      cases final with
      | true => exact le_rfl
      | false =>
          have hpending : s.pending = 0 :=
            LoopState.pending_eq_zero (h.loop.flushed (.inl ⟨false, hpc⟩))
          show Pc.untilTaken s.pending .selecting + 1 ≤ 1
          rw [hpending]
          exact le_rfl
  | _ => exact le_rfl

end

namespace System

variable {start : TailState} {s s' : System} {a : System.Action}

/-- A step of the main loop that counts; an idle tick does not. -/
def OwnStep (s : System) : System.Action → Prop
  | .recv _ | .flush _ | .save _ => True
  | .tick => 0 < s.loop.pending
  | .write _ | .read | .deliver | .reload _ | .shutdown => False

instance (s : System) : (a : System.Action) → Decidable (OwnStep s a)
  | .recv _ | .flush _ | .save _ => .isTrue trivial
  | .tick => inferInstanceAs (Decidable (0 < s.loop.pending))
  | .write _ | .read | .deliver | .reload _ | .shutdown => .isFalse id

/-- What a step costs. -/
def ownCost (s : System) (a : System.Action) : ℕ := if s.OwnStep a then 1 else 0

/-- The reader ends when it drops its sender. -/
structure Sound (ext : Externals) (cfg : AppConfig) (startOffset : ℕ) (s : System) : Prop where
  loop : WazuhOcsf.Sound ext cfg startOffset s.loop
  sender : s.loop.senderGone → s.reader = .stopped

/-- What a step does to the loop. -/
inductive LoopMoves (ext : Externals) (cfg : AppConfig) (s : System) (a : System.Action)
    (loop : LoopState) : Prop
  | idle (hown : ¬ s.OwnStep a) (hloop : loop = s.loop) : LoopMoves ext cfg s a loop
  | step {a' : WazuhOcsf.Action} (hown : s.OwnStep a ↔ WazuhOcsf.OwnStep s.loop a')
      (hsend : a ≠ .deliver → ∀ m, a' ≠ .send m)
      (hstep : WazuhOcsf.step ext cfg s.loop a' = some loop) : LoopMoves ext cfg s a loop

/-- A step moves the loop or leaves it alone. -/
theorem loopMoves_of_step (hstep : s.step ext cfg start a = some s') :
    LoopMoves ext cfg s a s'.loop := by
  cases System.moves_of_step ext cfg start hstep with
  | write hwrite => exact .idle id rfl
  | read => exact .idle id rfl
  | readLast hloop => exact .step Iff.rfl (by simp) hloop
  | deliver hmessage hloop => exact .step Iff.rfl (by simp) hloop
  | deliverClosed hloop => exact .step Iff.rfl (by simp) hloop
  | loop ha hloop => cases ha <;> exact .step Iff.rfl (by simp) hloop
  | save hloop => exact .step Iff.rfl (by simp) hloop

/-- A reader that waits for the channel does nothing else. -/
theorem reader_of_step (hwaits : s.reader.message.isSome) (hne : a ≠ .deliver)
    (hstep : s.step ext cfg start a = some s') : s'.reader = s.reader := by
  have hread : a ≠ .read := by
    rintro rfl
    obtain ⟨hnone, -⟩ := Option.ite_none_right_eq_some.mp hstep
    rw [hnone] at hwaits
    exact absurd hwaits (by simp)
  cases System.moves_of_step ext cfg start hstep with
  | read => exact absurd rfl hread
  | readLast hloop => exact absurd rfl hread
  | deliver hmessage hloop => exact absurd rfl hne
  | deliverClosed hloop => exact absurd rfl hne
  | _ => rfl

theorem Sound.step (h : Sound ext cfg startOffset s) (hstep : s.step ext cfg start a = some s') :
    Sound ext cfg startOffset s' := by
  constructor
  case loop =>
    cases loopMoves_of_step hstep with
    | idle hown hloop => exact hloop ▸ h.loop
    | step hown hsend hmove => exact h.loop.step hmove
  case sender =>
    by_cases hread : a = .read
    · subst hread
      obtain ⟨-, hstep⟩ := Option.ite_none_right_eq_some.mp hstep
      split_ifs at hstep with hstopped
      · obtain ⟨loop, -, rfl⟩ := Option.map_eq_some_iff.mp hstep
        exact fun _ => hstopped
      · obtain rfl := Option.some.inj hstep
        intro hgone
        exact absurd (by rw [h.sender hgone]; rfl) hstopped
    · cases System.moves_of_step ext cfg start hstep with
      | write hwrite => exact h.sender
      | read => exact absurd rfl hread
      | readLast hloop => exact absurd rfl hread
      | deliver hmessage hloop =>
          intro hgone
          have hbefore := senderGone_of_step hloop (by simp)
          rw [h.sender (hbefore ▸ hgone)]
          rfl
      | deliverClosed hloop =>
          -- the reader drops its sender and stops in one step
          exact fun _ => rfl
      | loop ha hloop =>
          have hbefore := senderGone_of_step hloop (by cases ha <;> simp)
          exact fun hgone => h.sender (hbefore ▸ hgone)
      | save hloop =>
          have hbefore := senderGone_of_step hloop (by simp)
          exact fun hgone => h.sender (hbefore ▸ hgone)

theorem sound_of_reachable {path : AlertsPath} {mappings : CustomMappings}
    (run : Reachable (System.step ext cfg start) (.initial path start mappings) s) :
    Sound ext cfg start.offset s := by
  refine run.invariant ⟨⟨loopInv_initial mappings start.offset, Nat.zero_le _⟩, fun hgone => ?_⟩
    fun _ _ _ h _ hstep => h.step hstep
  cases hgone

/-- A reader that waits for the channel, and the loop that serves it. -/
def Waits (ext : Externals) (cfg : AppConfig) (startOffset : ℕ) (reader : Reader) (s : System) :
    Prop :=
  s.Sound ext cfg startOffset ∧ s.reader = reader

/-- While the reader waits, the loop's own steps lead to a free slot. -/
theorem leads_free {reader : Reader} (hwaits : reader.message.isSome) (hcap : 0 < cfg.channelCap) :
    Leads (System.step ext cfg start) (Waits ext cfg startOffset reader)
      (fun _ a => a ≠ .deliver) ownCost (fun s => s.loop.pc.untilTaken s.loop.pending)
      (fun s => s.loop.Free cfg) where
  keeps s a s' h hne hstep :=
    ⟨h.1.step hstep, (reader_of_step (by rw [h.2]; exact hwaits) hne hstep).trans h.2⟩
  stays s a s' h hne hstep hfree := by
    cases loopMoves_of_step hstep with
    | idle hown hloop => exact hloop ▸ hfree
    | step hown hsend hmove => exact free_of_step hfree (hsend hne) hmove
  pays s a s' h hne hstep hfull := by
    cases loopMoves_of_step hstep with
    | idle hown hloop =>
        rw [hloop, ownCost, if_neg hown]
        exact le_rfl
    | step hown hsend hmove =>
        have hpaid := untilTaken_of_step h.1.loop hcap hmove hfull
        rwa [ownCost, if_congr hown rfl rfl]

/-- A waiting reader moves on when a slot is free. -/
theorem deliver_of_free (h : s.Sound ext cfg startOffset) {m : Message}
    (hmessage : s.reader.message = some m) (hfree : s.loop.Free cfg) :
    (s.step ext cfg start .deliver).isSome := by
  have hsender : s.loop.senderGone = false := by
    cases hgone : s.loop.senderGone with
    | false => rfl
    | true =>
        rw [h.sender hgone] at hmessage
        cases hmessage
  cases hclosed : s.loop.shuttingDown with
  | true => simp [System.step, hmessage, hclosed, onLoop, WazuhOcsf.step]
  | false =>
      have hroom : s.loop.channel.length < cfg.channelCap :=
        hfree.resolve_right (by simp [hclosed])
      simp [System.step, hmessage, hclosed, onLoop, WazuhOcsf.step, hsender, hroom]

/-- A full channel leaves the loop something to do. -/
theorem exists_own_step (h : s.Sound ext cfg startOffset) (hcap : 0 < cfg.channelCap)
    (hfull : ¬ s.loop.Free cfg) : ∃ a, s.OwnStep a ∧ (s.step ext cfg start a).isSome := by
  have hne : s.loop.channel ≠ [] := by
    intro hnil
    exact hfull (.inl (by rw [hnil]; exact hcap))
  cases hat : s.loop.pc with
  | selecting =>
      obtain ⟨m, rest, hchannel⟩ := List.exists_cons_of_ne_nil hne
      refine ⟨.recv default, trivial, ?_⟩
      simp [System.step, onLoop, WazuhOcsf.step, hat, hchannel]
  | flushing final =>
      exact ⟨.flush default, trivial, by simp [System.step, onLoop, WazuhOcsf.step, hat]⟩
  | saving final =>
      exact ⟨.save true, trivial, by simp [System.step, onLoop, WazuhOcsf.step, hat]⟩
  | exited => exact absurd (h.loop.loop.drained (.inr (.inr hat))).1 hne

end System

/-- A reader that has a line for a channel of any capacity gets it through, or learns that
the channel is closed, as soon as the loop has taken four steps that count; until then it can
take one.  How many idle ticks fall in between, what the writer, the watcher and the database
do, and whether a flush is under way, does not matter. -/
theorem blocked_send_released {start : TailState} {path : AlertsPath} {mappings : CustomMappings}
    {s s' : System} {actions : List System.Action} (hcap : 0 < cfg.channelCap)
    (run : Reachable (System.step ext cfg start) (.initial path start mappings) s)
    (hmessage : s.reader.message.isSome) (hwaits : .deliver ∉ actions)
    (hexec : exec (System.step ext cfg start) s actions = some s') :
    s'.reader = s.reader ∧
    (4 ≤ total (System.step ext cfg start) System.ownCost s actions →
      (s'.step ext cfg start .deliver).isSome) ∧
    ((s'.step ext cfg start .deliver).isSome ∨
      ∃ a, s'.OwnStep a ∧ (s'.step ext cfg start a).isSome) := by
  have hleads : Leads (System.step ext cfg start) (System.Waits ext cfg start.offset s.reader)
      (fun _ a => a ≠ .deliver) System.ownCost (fun x => x.loop.pc.untilTaken x.loop.pending)
      (fun x => x.loop.Free cfg) := System.leads_free hmessage hcap
  have hevery : EveryStep (System.step ext cfg start) (fun _ a => a ≠ .deliver) s actions :=
    everyStep_of_forall (fun a ha _ => ne_of_mem_of_not_mem ha hwaits) s
  have hbefore : System.Waits ext cfg start.offset s.reader s :=
    ⟨System.sound_of_reachable run, rfl⟩
  have hafter : System.Waits ext cfg start.offset s.reader s' :=
    (runWhere_of_exec hexec hevery).invariant hbefore hleads.keeps
  obtain ⟨m, hm⟩ := Option.isSome_iff_exists.mp hmessage
  have hreleased (hfree : s'.loop.Free cfg) : (s'.step ext cfg start .deliver).isSome :=
    System.deliver_of_free hafter.1 (hafter.2 ▸ hm) hfree
  refine ⟨hafter.2, fun hsteps => hreleased ?_, ?_⟩
  · refine hleads.done hbefore hevery hexec (lt_of_lt_of_le ?_ hsteps)
    exact Nat.lt_succ_of_le (Pc.untilTaken_le _ _)
  · by_cases hfree : s'.loop.Free cfg
    · exact .inl (hreleased hfree)
    · exact .inr (System.exists_own_step hafter.1 hcap hfree)

/-- Three alerts. -/
def threeLines : AlertsPath where
  older := []
  newest := ⟨1, (sampleLine ++ "\n" ++ sampleLine ++ "\n" ++ sampleLine ++ "\n").toUTF8.data.toList⟩
  linked := true

/-- Room for one line. -/
def narrowConfig : AppConfig := { sampleConfig with channelCap := 1 }

/-- One line is in a buffer and one in the channel, and the reader has the third. -/
def fillChannel : List System.Action :=
  [.read, .read, .read, .deliver, .recv default, .read, .deliver, .read]

/-- A timer flush, and the next line. -/
def freeChannel : List System.Action := [.tick, .flush default, .save true, .recv default]

theorem blocked_send_released_line : ∃ s s',
    exec (System.step sampleExternals narrowConfig ⟨1, 0⟩) (.initial threeLines ⟨1, 0⟩ default)
        fillChannel = some s ∧
      s.reader.message = some ⟨9, sampleLine, 0⟩ ∧
      s.step sampleExternals narrowConfig ⟨1, 0⟩ .deliver = none ∧
      exec (System.step sampleExternals narrowConfig ⟨1, 0⟩) s freeChannel = some s' ∧
      (s'.step sampleExternals narrowConfig ⟨1, 0⟩ .deliver).isSome := by
  have hfull : (exec (System.step sampleExternals narrowConfig ⟨1, 0⟩)
      (.initial threeLines ⟨1, 0⟩ default) fillChannel).map (fun s => (s.reader.message,
        (s.step sampleExternals narrowConfig ⟨1, 0⟩ .deliver).isNone,
        total (System.step sampleExternals narrowConfig ⟨1, 0⟩) System.ownCost s freeChannel,
        (exec (System.step sampleExternals narrowConfig ⟨1, 0⟩) s freeChannel).isSome)) =
      some (some ⟨9, sampleLine, 0⟩, true, 4, true) := by
    decide +kernel
  obtain ⟨s, hs, hfull⟩ := Option.map_eq_some_iff.mp hfull
  simp only [Prod.mk.injEq, Option.isNone_iff_eq_none] at hfull
  obtain ⟨hmessage, hblocked, htotal, hexec⟩ := hfull
  obtain ⟨s', hs'⟩ := Option.isSome_iff_exists.mp hexec
  have h := blocked_send_released (by decide) (reachable_of_exec hs) (by rw [hmessage]; rfl)
    (by simp [freeChannel]) hs'
  exact ⟨s, s', hs, hmessage, hblocked, hs', h.2.1 htotal.ge⟩

end WazuhOcsf
