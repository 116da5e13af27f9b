import WazuhOcsf.Input.AlertsPath
import WazuhOcsf.Input.State
import WazuhOcsf.Library.Lines
import WazuhOcsf.Library.RustString

/-!
# The file tailer

`input/tailer.rs`: `FileTailer`, and `reader_task` as a state machine.  Every access to
the file system is a step of its own, since the log writer may append, rename or
create between any two of them.
-/

namespace WazuhOcsf

open Lines RustString

/-! ## Reading a line -/

/-- An open file: `pos` is where the reader stands in the file, `offset` what the
tailer counts.  `file` is the generation behind the handle; the program does not know
it. -/
structure FileTailer where
  file : ℕ
  pos : ℕ
  offset : ℕ
  inode : ℕ
  deriving DecidableEq

/-- Past a chunk of `n` bytes that was counted. -/
def FileTailer.advance (t : FileTailer) (n : ℕ) : FileTailer :=
  { t with pos := t.pos + n, offset := t.offset + n }

section

variable (t : FileTailer) (n : ℕ)

@[simp] theorem FileTailer.advance_file : (t.advance n).file = t.file := rfl

@[simp] theorem FileTailer.advance_pos : (t.advance n).pos = t.pos + n := rfl

@[simp] theorem FileTailer.advance_offset : (t.advance n).offset = t.offset + n := rfl

end

/-- The byte `read_line` stops at. -/
def isNewline (b : UInt8) : Bool := b = 10

/-- The text of a chunk without its line ending, if it is UTF-8. -/
def decodeLine (chunk : List UInt8) : Option String :=
  (String.fromUTF8? ⟨chunk.toArray⟩).map fun text => trimEndMatches '\r' (trimEndMatches '\n' text)

/-- What `next_line` returns. -/
inductive ReadResult
  | line (text : String)
  | eof
  | error

/-- What the next `read_line` on the content of the file consumes. -/
def FileTailer.chunk (t : FileTailer) (bytes : List UInt8) : List UInt8 :=
  readUntil isNewline (bytes.drop t.pos)

/-- `FileTailer::next_line`.  A chunk that is not UTF-8 is consumed and not counted; an
unfinished line is given back by a seek to the counted offset.  It reads the file as it is
now: what the `BufReader` has read ahead matters only when a file is cut off in place with
lines unread, and is not modelled. -/
def FileTailer.nextLine (t : FileTailer) (bytes : List UInt8) : FileTailer × ReadResult :=
  let chunk := t.chunk bytes
  if chunk = [] then (t, .eof)
  else match decodeLine chunk with
    | none => ({ t with pos := t.pos + chunk.length }, .error)
    | some text =>
        if endsRecord isNewline chunk then (t.advance chunk.length, .line text)
        else ({ t with pos := t.offset }, .eof)

/-! ## The reader task -/

/-- Why `FileTailer::open` is running. -/
inductive Opening
  /-- The first open of the task, retried until it succeeds. -/
  | start
  /-- The reopen after an inode mismatch at the start; the task ends if it fails. -/
  | startRotated
  /-- The reopen of `check_rotation`; the old tailer stays if it fails. -/
  | rotation (old : FileTailer)
  deriving DecidableEq

/-- Where `reader_task` is; it looks at the file system only between two of these. -/
inductive Reader
  /-- `open` is about to look the inode up. -/
  | metadata (why : Opening)
  /-- `open` has the inode and is about to open the file. -/
  | opening (why : Opening) (inode : ℕ)
  /-- About to call `next_line`. -/
  | reading (t : FileTailer)
  /-- About to send a line. -/
  | sending (t : FileTailer) (line : String)
  /-- About to call `metadata` in `check_rotation`. -/
  | checking (t : FileTailer)
  | stopped
  deriving DecidableEq

namespace Reader

/-- The message the reader is about to send. -/
def message : Reader → Option Message
  | sending t line => some ⟨t.offset, line, t.file⟩
  | _ => none

/-- One step of the task on the file system; the channel moves a sending reader. -/
def next (initial : TailState) (path : AlertsPath) : Reader → Reader
  | metadata why => opening why ((path.current.map AlertsFile.inode).getD 0)
  | opening why inode =>
      match path.current, why with
      | some _, .start =>
          if initial.inode ≠ 0 ∧ inode ≠ initial.inode then metadata .startRotated
          else reading ⟨path.older.length, initial.offset, initial.offset, inode⟩
      | some _, _ => reading ⟨path.older.length, 0, 0, inode⟩
      | none, .start => metadata .start
      | none, .startRotated => stopped
      | none, .rotation old => reading old
  | reading t =>
      match t.nextLine (path.bytes t.file) with
      | (t, .line text) => if trim text ≠ "" then sending t text else reading t
      | (t, .eof) => checking t
      | (t, .error) => reading t
  | checking t =>
      match path.current with
      | some file =>
          if file.inode ≠ t.inode ∨ file.bytes.length < t.offset then metadata (.rotation t)
          else reading t
      | none => reading t
  | sending t line => sending t line
  | stopped => stopped

/-- What a call of `next_line` leads to. -/
inductive ReadsTo (path : AlertsPath) (t : FileTailer) : Reader → Prop
  | eof (hchunk : t.chunk (path.bytes t.file) = []) : ReadsTo path t (checking t)
  | invalid (hchunk : t.chunk (path.bytes t.file) ≠ [])
      (hdecode : decodeLine (t.chunk (path.bytes t.file)) = none) :
      ReadsTo path t (reading { t with pos := t.pos + (t.chunk (path.bytes t.file)).length })
  | unfinished (text : String) (hchunk : t.chunk (path.bytes t.file) ≠ [])
      (hdecode : decodeLine (t.chunk (path.bytes t.file)) = some text)
      (hends : ¬ endsRecord isNewline (t.chunk (path.bytes t.file))) :
      ReadsTo path t (checking { t with pos := t.offset })
  | blank (text : String) (hdecode : decodeLine (t.chunk (path.bytes t.file)) = some text)
      (hends : endsRecord isNewline (t.chunk (path.bytes t.file))) (hblank : trim text = "") :
      ReadsTo path t (reading (t.advance (t.chunk (path.bytes t.file)).length))
  | line (text : String) (hdecode : decodeLine (t.chunk (path.bytes t.file)) = some text)
      (hends : endsRecord isNewline (t.chunk (path.bytes t.file))) (hblank : trim text ≠ "") :
      ReadsTo path t (sending (t.advance (t.chunk (path.bytes t.file)).length) text)

theorem readsTo_next (initial : TailState) (path : AlertsPath) (t : FileTailer) :
    ReadsTo path t ((reading t).next initial path) := by
  simp only [next, FileTailer.nextLine]
  by_cases hchunk : t.chunk (path.bytes t.file) = []
  · rw [if_pos hchunk]
    exact .eof hchunk
  · rw [if_neg hchunk]
    cases hdecode : decodeLine (t.chunk (path.bytes t.file)) with
    | none => exact .invalid hchunk hdecode
    | some text =>
        by_cases hends : endsRecord isNewline (t.chunk (path.bytes t.file))
        · by_cases hblank : trim text = ""
          · simpa [hends, hblank] using ReadsTo.blank text hdecode hends hblank
          · simpa [hends, hblank] using ReadsTo.line text hdecode hends hblank
        · simpa [hends] using ReadsTo.unfinished text hchunk hdecode hends

/-- After the channel took the message. -/
def sent : Reader → Reader
  | sending t _ => reading t
  | r => r

end Reader

/-! ## The start position -/

/-- The state `main` hands to the reader task. -/
def startState (seekToEndOnFirstRun : Bool) (saved : TailState) (path : AlertsPath) : TailState :=
  let fileSize := (path.current.map fun file => file.bytes.length).getD 0
  let currentInode := (path.current.map AlertsFile.inode).getD 0
  let isFirstRun := saved.offset = 0 ∧ saved.inode = 0
  { inode := currentInode
    offset :=
      if ¬ isFirstRun then
        if saved.inode ≠ 0 ∧ saved.inode ≠ currentInode then saved.offset
        else if fileSize < saved.offset then 0
        else saved.offset
      else if seekToEndOnFirstRun then fileSize
      else 0 }

/-! ## A reader and a log writer -/

/-- The reader task with a receiver that takes every line. -/
structure Watch where
  path : AlertsPath
  reader : Reader
  emitted : List Message
  deriving DecidableEq

namespace Watch

/-- One step of the reader. -/
def read (initial : TailState) (w : Watch) : Watch :=
  match w.reader.message with
  | some m => { w with reader := w.reader.sent, emitted := w.emitted ++ [m] }
  | none => { w with reader := w.reader.next initial w.path }

/-- One step of the reader or of the log writer. -/
inductive Action
  | read
  | write (w : Write)

/-- The reader can always take a step; the writer only when the file is where it needs it. -/
def step (initial : TailState) (w : Watch) : Action → Option Watch
  | .read => some (w.read initial)
  | .write op => (w.path.write op).map fun path => { w with path := path }

end Watch

/-- The non-blank lines of a stream of bytes, `none` where one is not UTF-8. -/
def textLines (bytes : List UInt8) : List (Option String) :=
  ((completeLines isNewline bytes).map decodeLine).filter fun line =>
    line.all fun text => trim text ≠ ""

theorem textLines_append {l : List UInt8} (h : Terminated isNewline l) (m : List UInt8) :
    textLines (l ++ m) = textLines l ++ textLines m := by
  simp [textLines, completeLines_append h]

/-- The lines emitted so far. -/
def Watch.lines (w : Watch) : List (Option String) := w.emitted.map fun m => some m.line

end WazuhOcsf
