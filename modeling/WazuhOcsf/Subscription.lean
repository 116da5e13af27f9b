import WazuhOcsf.Ingest
import WazuhOcsf.Input.Zmq

/-!
# From the messages on the socket to rows

The process in ZeroMQ mode.  The subscriber meets the main loop in the channel only, and the
position it sends along is always 0.  However often it reconnects, the lines that reach the
loop are those of the messages the socket returned, each once and in order, up to the one
that waits in `send`: `message_rows`.
-/

namespace WazuhOcsf

open Transition Trace DbState

variable {ext : Externals} {cfg : AppConfig}

/-! ## Subscriber and main loop -/

/-- The ZeroMQ reader and the main loop. -/
structure Subscription where
  subscriber : Subscriber
  loop : LoopState
  /-- The messages the socket returned so far. -/
  heard : List (List (List UInt8))

namespace Subscription

/-- An answer of the socket, or a step of subscriber or loop. -/
inductive Action
  | answer (answer : ZmqAnswer)
  /-- The pending `send` of the subscriber returns. -/
  | deliver
  /-- A step of the main loop or of the config watcher. -/
  | loop (a : WazuhOcsf.Action)

/-- Before the first connection attempt. -/
def initial (mappings : CustomMappings) (start : TailState) : Subscription where
  subscriber := .connecting
  loop := .initial mappings start.offset
  heard := []

/-- The subscriber alone has the sending end of the channel. -/
def LoopsOwn : WazuhOcsf.Action → Prop
  | .send _ | .readerDone => False
  | _ => True

instance : DecidablePred LoopsOwn
  | .send _ | .readerDone => .isFalse id
  | .reload _ | .recv _ | .tick | .shutdown | .flush _ | .save _ _ => .isTrue trivial

/-- One step; the socket is asked for a message only while no line waits. -/
def step (ext : Externals) (cfg : AppConfig) (s : Subscription) : Action → Option Subscription
  | .answer answer =>
      (s.subscriber.next answer).map fun subscriber =>
        { s with subscriber := subscriber, heard := s.heard ++ answer.frames.toList }
  | .deliver =>
      match s.subscriber.line with
      | some line =>
          if s.loop.shuttingDown then
            (WazuhOcsf.step ext cfg s.loop .readerDone).map fun loop =>
              { s with subscriber := .stopped, loop := loop }
          else
            (WazuhOcsf.step ext cfg s.loop (.send (zmqMessage line))).map fun loop =>
              { s with subscriber := .receiving, loop := loop }
      | none => none
  | .loop a =>
      if LoopsOwn a then
        (WazuhOcsf.step ext cfg s.loop a).map fun loop => { s with loop := loop }
      else none

/-- Everything a step can do. -/
inductive Moves (ext : Externals) (cfg : AppConfig) (s : Subscription) :
    Action → Subscription → Prop
  | answer {answer : ZmqAnswer} {subscriber : Subscriber}
      (hnext : s.subscriber.next answer = some subscriber) :
      Moves ext cfg s (.answer answer)
        { s with subscriber := subscriber, heard := s.heard ++ answer.frames.toList }
  | deliver {line : String} {loop : LoopState} (hline : s.subscriber.line = some line)
      (hloop : WazuhOcsf.step ext cfg s.loop (.send (zmqMessage line)) = some loop) :
      Moves ext cfg s .deliver { s with subscriber := .receiving, loop := loop }
  | deliverClosed {line : String} {loop : LoopState} (hline : s.subscriber.line = some line)
      (hloop : WazuhOcsf.step ext cfg s.loop .readerDone = some loop) :
      Moves ext cfg s .deliver { s with subscriber := .stopped, loop := loop }
  | loop {a : WazuhOcsf.Action} {loop : LoopState} (hown : LoopsOwn a)
      (hloop : WazuhOcsf.step ext cfg s.loop a = some loop) :
      Moves ext cfg s (.loop a) { s with loop := loop }

theorem moves_of_step {s s' : Subscription} {a : Action} (h : s.step ext cfg a = some s') :
    Moves ext cfg s a s' := by
  cases a with
  | answer answer =>
      obtain ⟨subscriber, hnext, rfl⟩ := Option.map_eq_some_iff.mp h
      exact .answer hnext
  | deliver =>
      cases hline : s.subscriber.line with
      | none => simp [step, hline] at h
      | some line =>
          simp only [step, hline] at h
          split_ifs at h
          · obtain ⟨loop, hloop, rfl⟩ := Option.map_eq_some_iff.mp h
            exact .deliverClosed hline hloop
          · obtain ⟨loop, hloop, rfl⟩ := Option.map_eq_some_iff.mp h
            exact .deliver hline hloop
  | loop a =>
      obtain ⟨hown, h⟩ := Option.ite_none_right_eq_some.mp h
      obtain ⟨loop, hloop, rfl⟩ := Option.map_eq_some_iff.mp h
      exact .loop hown hloop

/-- The lines of the messages that have one. -/
def lines (s : Subscription) : List String := s.heard.filterMap zmqPayload

end Subscription

/-! ## The invariant -/

/-- The position that belongs to a ZeroMQ line names no byte of the alerts file. -/
def SavesNoPosition (startOffset : ℕ) (before : List Event) : Event → Prop
  | .saved state _ => state.offset = if receivedMessages before = [] then startOffset else 0
  | _ => True

/-- What was sent, and what waits, is what the socket returned. -/
structure SubscriptionInv (ext : Externals) (cfg : AppConfig) (start : TailState)
    (s : Subscription) : Prop where
  loop : LoopInv ext cfg start.offset s.loop
  sent : ∃ waiting : List String,
    sentMessages s.loop.log ++ waiting.map zmqMessage = s.lines.map zmqMessage ∧
      waiting.length ≤ 1 ∧ (s.subscriber ≠ .stopped → waiting = s.subscriber.line.toList)
  saved : Guarded (SavesNoPosition start.offset) s.loop.log

theorem subscriptionInv_initial (mappings : CustomMappings) (start : TailState) :
    SubscriptionInv ext cfg start (.initial mappings start) where
  loop := loopInv_initial mappings start.offset
  sent := ⟨[], rfl, Nat.zero_le _, fun _ => rfl⟩
  saved := guarded_nil

namespace SubscriptionInv

variable {start : TailState} {s s' : Subscription}

/-- Every message received so far has offset 0. -/
theorem offset_eq_zero (h : SubscriptionInv ext cfg start s) {m : Message}
    (hm : m ∈ receivedMessages s.loop.log) : m.offset = 0 := by
  obtain ⟨waiting, hsent, -⟩ := h.sent
  have hall : m ∈ s.lines.map zmqMessage := by
    rw [← hsent, ← h.loop.channel]
    exact List.mem_append_left _ (List.mem_append_left _ hm)
  obtain ⟨line, -, rfl⟩ := List.mem_map.mp hall
  rfl

theorem currentOffset_eq (h : SubscriptionInv ext cfg start s) :
    s.loop.currentOffset = if receivedMessages s.loop.log = [] then start.offset else 0 := by
  rw [h.loop.offset]
  split
  · next hnil => rw [hnil]; rfl
  · next hne =>
      rw [List.getLast?_eq_some_getLast hne, Option.map_some, Option.getD_some]
      exact h.offset_eq_zero (List.getLast_mem hne)

theorem savedBy (h : SubscriptionInv ext cfg start s) {a : Action} {loop : LoopState}
    (hloop : WazuhOcsf.step ext cfg s.loop a = some loop) :
    Guarded (SavesNoPosition start.offset) loop.log := by
  by_cases hsave : ∃ inode ok, a = .save inode ok
  · obtain ⟨inode, ok, rfl⟩ := hsave
    rw [(log_of_save hloop).2]
    exact guarded_concat.mpr ⟨h.saved, h.currentOffset_eq⟩
  · refine guarded_of_step hloop (fun e he before => ?_) h.saved
      fun inode ok heq => hsave ⟨inode, ok, heq⟩
    cases e <;> trivial

theorem step {a : Subscription.Action} (h : SubscriptionInv ext cfg start s)
    (hstep : s.step ext cfg a = some s') : SubscriptionInv ext cfg start s' := by
  obtain ⟨waiting, hsent, hshort, hwaiting⟩ := h.sent
  cases Subscription.moves_of_step hstep with
  | @answer answer subscriber hnext =>
      -- the socket is only asked while no line waits
      obtain ⟨hfree, hrunning, hline⟩ := Subscriber.line_of_next hnext
      have hbefore : s.subscriber ≠ .stopped := by
        intro hstopped
        rw [hstopped] at hnext
        cases hnext
      obtain rfl : waiting = [] := by rw [hwaiting hbefore, hfree]; rfl
      refine ⟨h.loop, ⟨subscriber.line.toList, ?_, Option.length_toList_le, fun _ => rfl⟩, h.saved⟩
      rw [Subscription.lines, List.filterMap_append, List.map_append, ← Subscription.lines, ← hsent,
        List.map_nil, List.append_nil, hline]
      cases answer.frames with
      | none => rfl
      | some frames => cases zmqPayload frames <;> rfl
  | @deliver line loop hline hloop =>
      have hbefore : s.subscriber ≠ .stopped := by
        intro hstopped
        rw [hstopped] at hline
        cases hline
      obtain rfl : waiting = [line] := by rw [hwaiting hbefore, hline]; rfl
      refine ⟨h.loop.step hloop, ⟨[], ?_, Nat.zero_le _, fun _ => rfl⟩, h.savedBy hloop⟩
      rw [sentMessages_of_send hloop, List.map_nil, List.append_nil]
      exact hsent
  | deliverClosed hline hloop =>
      -- the line that waited is dropped with the subscriber
      refine ⟨h.loop.step hloop, ⟨waiting, ?_, hshort, fun hne => absurd rfl hne⟩, h.savedBy hloop⟩
      rw [sentMessages_of_step hloop fun _ heq => nomatch heq]
      exact hsent
  | @loop a loop hown hloop =>
      refine ⟨h.loop.step hloop, ⟨waiting, ?_, hshort, hwaiting⟩, h.savedBy hloop⟩
      rw [sentMessages_of_step hloop fun m heq => ?_]
      · exact hsent
      · subst heq
        exact hown

end SubscriptionInv

/-- In every run in ZeroMQ mode, whatever the socket and the database answer: the lines
received, those in the channel, and at most one that waits in `send`, are the lines of the
messages the socket returned, in order; the rows taken for a table and the rows in its buffer
are the rows of the lines received, each made under the mapping table in force when its line
was received; and no position that is saved after a line names a byte of the alerts file. -/
theorem message_rows {mappings : CustomMappings} {start : TailState} {s : Subscription}
    (run : Reachable (Subscription.step ext cfg) (.initial mappings start) s) :
    (∃ waiting : List String,
      (receivedMessages s.loop.log).map Message.line ++ s.loop.channel.map Message.line ++
          waiting = s.lines ∧
        waiting.length ≤ 1 ∧
        (s.subscriber.line = none → s.subscriber ≠ .stopped → waiting = [])) ∧
      List.Forall₂ (IsRowOf ext) (texts (receivedMessages s.loop.log)) (receptions s.loop.log) ∧
      (∀ r ∈ receptions s.loop.log, r.cfg = cfg) ∧
      (∀ table, (takenVectors table s.loop.log).flatten ++ s.loop.batches.rows table =
        (receptions s.loop.log).filterMap fun r => r.rowFor table) ∧
      Guarded (SavesNoPosition start.offset) s.loop.log := by
  have h : SubscriptionInv ext cfg start s :=
    run.invariant (subscriptionInv_initial mappings start) fun _ _ _ h _ hstep => h.step hstep
  obtain ⟨waiting, hsent, hshort, hwaiting⟩ := h.sent
  refine ⟨⟨waiting, ?_, hshort, fun hfree hne => ?_⟩, h.loop.rowsOf,
    fun r hr => (h.loop.transformed r hr).1, fun table => ?_, h.saved⟩
  · have hlines := congrArg (List.map Message.line) hsent
    rw [← h.loop.channel] at hlines
    simpa [zmqMessage, Function.comp_def] using hlines
  · rw [hwaiting hne, hfree]
    rfl
  · rw [h.loop.taken table, routed_eq]

/-- The first connection attempt fails; then a message with a topic and an alert arrives. -/
def sampleSubscription : List Subscription.Action :=
  [.answer (.connected false), .answer .woke, .answer (.connected true), .answer (.subscribed true),
    .answer (.message ["ossec.alerts".toUTF8.data.toList, "\x7b\x7d\n".toUTF8.data.toList]),
    .deliver, .loop (.recv default)]

theorem message_rows_sample : ∃ s,
    Reachable (Subscription.step sampleExternals sampleConfig) (.initial default ⟨1, 7⟩) s ∧
      s.lines = [sampleLine] ∧ s.loop.currentOffset = 0 ∧
      (receptions s.loop.log).map (fun r => r.message.line) = [sampleLine] ∧
      (takenVectors sampleTable s.loop.log).flatten ++ s.loop.batches.rows sampleTable =
        (receptions s.loop.log).filterMap fun r => r.rowFor sampleTable := by
  have hend : (exec (Subscription.step sampleExternals sampleConfig) (.initial default ⟨1, 7⟩)
      sampleSubscription).map (fun s => (s.lines, s.loop.currentOffset,
        (receptions s.loop.log).map fun r => r.message.line)) =
      some ([sampleLine], 0, [sampleLine]) := by
    decide +kernel
  obtain ⟨s, hexec, hend⟩ := Option.map_eq_some_iff.mp hend
  simp only [Prod.mk.injEq] at hend
  obtain ⟨-, -, -, htables, -⟩ := message_rows (reachable_of_exec hexec)
  exact ⟨s, reachable_of_exec hexec, hend.1, hend.2.1, hend.2.2, htables sampleTable⟩

end WazuhOcsf
