import WazuhOcsf.Main.History

/-!
# The ZeroMQ subscriber

`zmq_reader_task`: connect, subscribe, and take one message after the other from the socket
until it fails or stays silent; then wait five seconds and begin again.  Every message is
turned into at most one line, which waits in `send` while the channel is full.
-/

namespace WazuhOcsf

open RustString

/-- What the socket or the clock answers. -/
inductive ZmqAnswer
  | connected (ok : Bool)
  | subscribed (ok : Bool)
  | message (frames : List (List UInt8))
  | failed
  /-- Nothing arrived for `RECV_TIMEOUT_SECS`. -/
  | timedOut
  | woke
  deriving DecidableEq

/-- The frames of a message that arrived. -/
def ZmqAnswer.frames : ZmqAnswer → Option (List (List UInt8))
  | .message frames => some frames
  | _ => none

/-- Where the ZeroMQ reader is. -/
inductive Subscriber
  /-- A new socket. -/
  | connecting
  | subscribing
  | receiving
  | sending (line : String)
  /-- Five seconds, until the next socket. -/
  | sleeping
  | stopped
  deriving DecidableEq

namespace Subscriber

/-- What the task does with an answer; `none` when it waits for another one. -/
def next : Subscriber → ZmqAnswer → Option Subscriber
  | connecting, .connected ok => some (if ok then subscribing else sleeping)
  | subscribing, .subscribed ok => some (if ok then receiving else sleeping)
  | receiving, .message frames =>
      match zmqPayload frames with
      | some line => some (sending line)
      | none => some receiving
  | receiving, .failed | receiving, .timedOut => some sleeping
  | sleeping, .woke => some connecting
  | _, _ => none

/-- The line that waits in `send`. -/
def line : Subscriber → Option String
  | sending line => some line
  | _ => none

/-- The task answers only while no line waits, and then a line waits exactly if a message
with one arrived. -/
theorem line_of_next {subscriber subscriber' : Subscriber} {answer : ZmqAnswer}
    (h : subscriber.next answer = some subscriber') :
    subscriber.line = none ∧ subscriber' ≠ stopped ∧
      subscriber'.line = answer.frames.bind zmqPayload := by
  unfold next at h
  split at h
  · obtain rfl := Option.some.inj h
    split <;> exact ⟨rfl, by simp, rfl⟩
  · obtain rfl := Option.some.inj h
    split <;> exact ⟨rfl, by simp, rfl⟩
  · split at h
    · next hpayload =>
        obtain rfl := Option.some.inj h
        exact ⟨rfl, by simp, hpayload.symm⟩
    · next hpayload =>
        obtain rfl := Option.some.inj h
        exact ⟨rfl, by simp, hpayload.symm⟩
  · obtain rfl := Option.some.inj h
    exact ⟨rfl, by simp, rfl⟩
  · obtain rfl := Option.some.inj h
    exact ⟨rfl, by simp, rfl⟩
  · obtain rfl := Option.some.inj h
    exact ⟨rfl, by simp, rfl⟩
  · cases h

end Subscriber

end WazuhOcsf
