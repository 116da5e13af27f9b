import WazuhOcsf.Library.InfiniteRuns
import WazuhOcsf.Tailing

/-!
# A reader that was just started

The reader task from its first step on, beside a log writer that appends and does not
rotate, over runs that never end (`Resumption`).  The handed offset and what the first
look of `check_rotation` finds decide whether the reader comes to the start of the file
(`exists_atStart`).  From there on it reads everything the file ever holds, as long as
what it reads is text (`AtStart.readsAll`).
-/

namespace WazuhOcsf

open Lines RustString Transition Utf8 Watch

/-! ## Runs without a rotation -/

/-- The same path with other content in the newest file. -/
def AlertsPath.holding (path : AlertsPath) (bytes : List UInt8) : AlertsPath :=
  { path with newest := { path.newest with bytes := bytes } }

section

variable (path : AlertsPath) (bytes : List UInt8)

@[simp] theorem AlertsPath.holding_older : (path.holding bytes).older = path.older := rfl

@[simp] theorem AlertsPath.holding_linked : (path.holding bytes).linked = path.linked := rfl

@[simp] theorem AlertsPath.holding_bytes : (path.holding bytes).newest.bytes = bytes := rfl

@[simp] theorem AlertsPath.holding_inode :
    (path.holding bytes).newest.inode = path.newest.inode := rfl

@[simp] theorem AlertsPath.holding_holding (more : List UInt8) :
    (path.holding bytes).holding more = path.holding more := rfl

end

/-- A reader that `main` just started and a log writer that only appends, at any time and
as often as it likes.  The reader goes on for ever. -/
structure Resumption (initial : TailState) (path : AlertsPath) extends
    InfiniteRun (Watch.step initial) ⟨path, .metadata .start, []⟩ where
  appends : ∀ n op, action n = .write op → ∃ bytes, op = .append bytes
  goesOn : toInfiniteRun.Recurs (· = .read)

namespace Resumption

variable {initial : TailState} {path : AlertsPath} (r : Resumption initial path)

/-- The content of the new file. -/
def content (n : ℕ) : List UInt8 := (r.state n).path.newest.bytes

/-- The next step is a look of `check_rotation` at the path. -/
def Checks (n : ℕ) : Prop := r.action n = .read ∧ ∃ t, (r.state n).reader = .checking t

/-- The file is shorter than `offset` at the first look of `check_rotation`. -/
def FoundShort (offset : ℕ) : Prop :=
  ∃ n, r.Checks n ∧ (∀ i < n, ¬ r.Checks i) ∧ (r.content n).length < offset

/-- What the reader reads is text, but for an unfinished rest that the file keeps at its
end. -/
def ReadsText : Prop :=
  ∀ n t, r.action n = .read → (r.state n).reader = .reading t →
    Valid (t.chunk ((r.state n).path.bytes t.file)) ∨
      ¬ endsRecord isNewline (t.chunk ((r.state n).path.bytes t.file)) ∧
        ∀ m, n ≤ m → r.content m = r.content n

/-- The run emits the complete non-blank lines of the file, in order and however far it
grows, and no byte of it is skipped. -/
structure ReadsAll : Prop where
  inOrder : ∀ n, (r.state n).lines <+: textLines (r.content n)
  everyLine : ∀ n, ∃ m, textLines (r.content n) <+: (r.state m).lines
  everyByte : ∀ n, ∀ k < (r.content n).length, ∃ m, (r.state m).Covers path.older.length k

/-! ## One step, and the next one of the reader -/

/-- A step is one of the reader, or more text. -/
theorem step_cases (n : ℕ) :
    (r.action n = .read ∧ r.state (n + 1) = (r.state n).read initial) ∨
      (r.action n ≠ .read ∧ ∃ more, r.state (n + 1) =
        { r.state n with
          path := (r.state n).path.holding ((r.state n).path.newest.bytes ++ more) }) := by
  have htaken := r.taken n
  cases haction : r.action n with
  | read =>
      rw [haction] at htaken
      exact .inl ⟨rfl, (Option.some.inj htaken).symm⟩
  | write op =>
      obtain ⟨more, rfl⟩ := r.appends n op haction
      rw [haction] at htaken
      obtain ⟨path', hwrite, hstate⟩ := Option.map_eq_some_iff.mp htaken
      obtain ⟨-, hwrite⟩ := Option.ite_none_right_eq_some.mp hwrite
      cases hwrite
      exact .inr ⟨nofun, more, hstate.symm⟩

theorem read_path (w : Watch) : (w.read initial).path = w.path := by
  unfold Watch.read
  split <;> rfl

theorem path_eq (n : ℕ) : (r.state n).path = path.holding (r.content n) := by
  induction n with
  | zero =>
      rw [content, r.state_zero]
      rfl
  | succ n ih =>
      rw [content]
      rcases r.step_cases n with ⟨-, hstate⟩ | ⟨-, more, hstate⟩
      · rw [hstate, read_path, ← content]
        exact ih
      · rw [hstate]
        dsimp only
        rw [ih]
        rfl

theorem content_isPrefix {n m : ℕ} (hle : n ≤ m) : r.content n <+: r.content m := by
  refine r.rel_of_le (R := fun w w' => w.path.newest.bytes <+: w'.path.newest.bytes)
    (fun _ => List.prefix_rfl) (fun _ _ _ => List.IsPrefix.trans) (fun n => ?_) hle
  rcases r.step_cases n with ⟨-, hstate⟩ | ⟨-, more, hstate⟩
  · rw [hstate, read_path]
  · rw [hstate]
    exact List.prefix_append _ _

theorem emitted_isPrefix {n m : ℕ} (hle : n ≤ m) :
    (r.state n).emitted <+: (r.state m).emitted := by
  refine r.rel_of_le (R := fun w w' => w.emitted <+: w'.emitted) (fun _ => List.prefix_rfl)
    (fun _ _ _ => List.IsPrefix.trans) (fun n => ?_) hle
  rcases r.step_cases n with ⟨-, hstate⟩ | ⟨-, more, hstate⟩
  · rw [hstate, Watch.read]
    split
    · exact List.prefix_append _ _
    · exact List.prefix_rfl
  · rw [hstate]

/-- The next step of the reader finds it where it was, on a file that may have grown. -/
theorem exists_read (n : ℕ) :
    ∃ m, n ≤ m ∧ r.action m = .read ∧ (∀ i, n ≤ i → i < m → r.action i ≠ .read) ∧
      (∀ i, n ≤ i → i ≤ m → r.state i =
        ⟨path.holding (r.content i), (r.state n).reader, (r.state n).emitted⟩) ∧
      r.state (m + 1) = Watch.read initial
        ⟨path.holding (r.content m), (r.state n).reader, (r.state n).emitted⟩ := by
  obtain ⟨m, hle, hread, hbefore, hsame⟩ := r.exists_next r.goesOn
    (fun w => (w.reader, w.emitted)) (fun i hi => by
      rcases r.step_cases i with ⟨hread, -⟩ | ⟨-, more, hstate⟩
      · exact absurd hread hi
      · rw [hstate]) n
  have hstate (i : ℕ) (hi : n ≤ i) (him : i ≤ m) : r.state i =
      ⟨path.holding (r.content i), (r.state n).reader, (r.state n).emitted⟩ := by
    obtain ⟨hreader, hemitted⟩ := Prod.mk.inj (hsame i hi him)
    rw [← r.path_eq i, ← hreader, ← hemitted]
  refine ⟨m, hle, hread, hbefore, hstate, ?_⟩
  rcases r.step_cases m with ⟨-, hnext⟩ | ⟨hother, -⟩
  · rw [hnext, hstate m hle le_rfl]
  · exact absurd hread hother

theorem content_of_state {n : ℕ} {bytes : List UInt8} {reader : Reader} {emitted : List Message}
    (h : r.state n = ⟨path.holding bytes, reader, emitted⟩) : r.content n = bytes := by
  rw [content, h]
  rfl

/-- If any look of `check_rotation` finds the file short, the first one does. -/
theorem foundShort_of_checks {n offset : ℕ} (h : r.Checks n)
    (hshort : (r.content n).length < offset) : r.FoundShort offset := by
  classical
  have hex : ∃ n, r.Checks n := ⟨n, h⟩
  have hle := (r.content_isPrefix (Nat.find_le h : Nat.find hex ≤ n)).length_le
  exact ⟨Nat.find hex, Nat.find_spec hex, fun i hi => Nat.find_min hex hi, by omega⟩

/-! ## Up to the first read -/

/-- The tailer that `main` asks for, at the handed offset of the new file. -/
def handed (initial : TailState) (path : AlertsPath) : FileTailer :=
  ⟨path.older.length, initial.offset, initial.offset, path.newest.inode⟩

/-- `open` is running. -/
def Opens : Reader → Prop
  | .metadata _ | .opening _ _ => True
  | _ => False

theorem not_checks_of_opens {n : ℕ} (h : Opens (r.state n).reader) : ¬ r.Checks n := by
  rintro ⟨-, t, ht⟩
  rw [ht] at h
  exact h

/-- Past the end of the file nothing is read, and what comes next is a look at the path. -/
theorem exists_check {n : ℕ} (hstate : r.state n = ⟨path.holding (r.content n),
      .reading (handed initial path), []⟩) :
    ∃ m, n ≤ m ∧ (∀ i, n ≤ i → i ≤ m → ¬ r.Checks i) ∧
      ((r.content m).length ≤ initial.offset →
        ∃ k, m < k ∧ r.Checks k ∧ (∀ i, m < i → i < k → ¬ r.Checks i) ∧
          r.state (k + 1) = Watch.read initial
            ⟨path.holding (r.content k), .checking (handed initial path), []⟩) := by
  obtain ⟨m, hle, -, hbefore, hsame, hread⟩ := r.exists_read n
  simp only [hstate] at hsame hread
  refine ⟨m, hle, fun i hi him hchecks => ?_, fun hshort => ?_⟩
  · obtain ⟨t, ht⟩ := hchecks.2
    rw [hsame i hi him] at ht
    cases ht
  · have hchunk : (handed initial path).chunk (r.content m) = [] := by
      rw [FileTailer.chunk, handed, List.drop_eq_nil_of_le hshort]
      rfl
    have hbytes : (path.holding (r.content m)).bytes (handed initial path).file = r.content m :=
      (path.holding (r.content m)).bytes_newest
    simp only [Watch.read, Reader.message, Reader.next, FileTailer.nextLine, hbytes, hchunk,
      if_true] at hread
    obtain ⟨k, hk, hreadk, hbeforek, hsamek, hcheck⟩ := r.exists_read (m + 1)
    simp only [hread] at hsamek hcheck
    refine ⟨k, hk, ⟨hreadk, _, congrArg Watch.reader (hsamek k hk le_rfl)⟩, ?_, hcheck⟩
    exact fun i hi hik hchecks => hbeforek i hi hik hchecks.1

/-- The reader is about to read the new file from its start. -/
def AtStart (n : ℕ) : Prop :=
  r.state n = ⟨path.holding (r.content n),
    .reading ⟨path.older.length, 0, 0, path.newest.inode⟩, []⟩

section

variable (hlinked : path.linked)
include hlinked

/-- The reopen of `check_rotation` reads the file from its start. -/
theorem exists_atStart_of_metadata {n : ℕ} {old : FileTailer}
    (hreader : (r.state n).reader = .metadata (.rotation old))
    (hemitted : (r.state n).emitted = []) : ∃ m, r.AtStart m := by
  obtain ⟨i, -, -, -, -, hopening⟩ := r.exists_read n
  simp only [hreader, hemitted, Watch.read, Reader.message, Reader.next, AlertsPath.current,
    AlertsPath.holding_linked, hlinked, if_true, Option.map_some, Option.getD_some,
    AlertsPath.holding_inode] at hopening
  obtain ⟨m, -, -, -, -, hreading⟩ := r.exists_read (i + 1)
  simp only [hopening, Watch.read, Reader.message, Reader.next, AlertsPath.current,
    AlertsPath.holding_linked, hlinked, if_true, AlertsPath.holding_older] at hreading
  refine ⟨m + 1, ?_⟩
  rw [AtStart, r.content_of_state hreading]
  exact hreading

variable (hinode : initial.inode = path.newest.inode)
include hinode

/-- An inode that matches leads straight to the handed offset. -/
theorem exists_handed : ∃ n, r.state n = ⟨path.holding (r.content n),
    .reading (handed initial path), []⟩ ∧ ∀ i < n, Opens (r.state i).reader := by
  obtain ⟨i, -, -, -, hmetadata, hopening⟩ := r.exists_read 0
  simp only [r.state_zero] at hmetadata hopening
  simp only [Watch.read, Reader.message, Reader.next, AlertsPath.current,
    AlertsPath.holding_linked, hlinked, if_true, Option.map_some, Option.getD_some,
    AlertsPath.holding_inode] at hopening
  obtain ⟨m, hle, -, -, hsame, hreading⟩ := r.exists_read (i + 1)
  simp only [hopening] at hsame
  simp only [hopening, Watch.read, Reader.message, Reader.next, AlertsPath.current,
    AlertsPath.holding_linked, hlinked, if_true, AlertsPath.holding_older, hinode, ne_eq,
    not_true_eq_false, and_false, if_false] at hreading
  refine ⟨m + 1, ?_, fun k hk => ?_⟩
  · rw [r.content_of_state hreading, handed]
    exact hreading
  · rcases Nat.lt_or_ge i k with hki | hki
    · rw [hsame k hki (Nat.le_of_lt_succ hk)]
      trivial
    · rw [hmetadata k (Nat.zero_le k) hki]
      trivial

/-- From a handed offset of 0, and past the end of a file that stays short, the file is read
from its start. -/
theorem exists_atStart (h : initial.offset = 0 ∨ r.FoundShort initial.offset) :
    ∃ n, r.AtStart n := by
  obtain ⟨n, hstate, hopens⟩ := r.exists_handed hlinked hinode
  rcases h with hzero | ⟨first, hchecks, -, hshort⟩
  · refine ⟨n, ?_⟩
    rw [AtStart, hstate, handed, hzero, r.content_of_state hstate]
  · obtain ⟨m, hle, hnot, hcheck⟩ := r.exists_check hstate
    -- the first look comes after the first read, and the file has not shrunk in between
    have hlate : m < first := by
      by_contra hearly
      rcases Nat.lt_or_ge first n with hlt | hge
      · exact r.not_checks_of_opens (hopens first hlt) hchecks
      · exact hnot first hge (Nat.le_of_not_lt hearly) hchecks
    have hgrown := (r.content_isPrefix hlate.le).length_le
    obtain ⟨k, hk, hchecksk, hbetween, hnext⟩ := hcheck (by omega)
    have hkfirst : k ≤ first := by
      by_contra hlt
      exact hbetween first hlate (Nat.lt_of_not_le hlt) hchecks
    have hshortk := (r.content_isPrefix hkfirst).length_le
    have htruncated : (r.content k).length < (handed initial path).offset := by
      show (r.content k).length < initial.offset
      omega
    simp only [Watch.read, Reader.message, Reader.next, AlertsPath.current,
      AlertsPath.holding_linked, hlinked, if_true, AlertsPath.holding_bytes, htruncated,
      or_true] at hnext
    exact r.exists_atStart_of_metadata hlinked (congrArg Watch.reader hnext)
      (congrArg Watch.emitted hnext)

end

end Resumption

/-! ## Behind the lines that were read -/

theorem textLines_mono {bytes more : List UInt8} (h : bytes <+: more) :
    textLines bytes <+: textLines more := by
  obtain ⟨rest, rfl⟩ := h
  exact ((completeLines_isPrefix bytes rest).map decodeLine).filter _

theorem length_chunk_pos {chunk : List UInt8} (hends : endsRecord isNewline chunk) :
    0 < chunk.length := by
  refine List.length_pos_of_ne_nil ?_
  rintro rfl
  exact Bool.false_ne_true hends

/-- The tailer of the newest file stands behind a line, where it counts, and the lines before
it are `lines`. -/
structure Passed (path : AlertsPath) (lines : List (Option String)) (t : FileTailer) : Prop where
  file : t.file = path.older.length
  inode : t.inode = path.newest.inode
  counted : t.pos = t.offset
  size : t.pos ≤ path.newest.bytes.length
  whole : Terminated isNewline (path.newest.bytes.take t.pos)
  lines : lines = textLines (path.newest.bytes.take t.pos)

namespace Passed

variable {path : AlertsPath} {lines : List (Option String)} {t : FileTailer}

theorem bytes_file (h : Passed path lines t) : path.bytes t.file = path.newest.bytes := by
  rw [h.file, path.bytes_newest]

/-- The file may grow. -/
theorem grow (h : Passed path lines t) {bytes : List UInt8} (hgrown : path.newest.bytes <+: bytes) :
    Passed (path.holding bytes) lines t := by
  obtain ⟨more, rfl⟩ := hgrown
  have htake : (path.newest.bytes ++ more).take t.pos = path.newest.bytes.take t.pos :=
    List.take_append_of_le_length h.size
  refine ⟨h.file, h.inode, h.counted, h.size.trans (List.prefix_append _ _).length_le, ?_, ?_⟩
  · rw [AlertsPath.holding_bytes, htake]
    exact h.whole
  · rw [AlertsPath.holding_bytes, htake]
    exact h.lines

/-- What was read and what is left. -/
theorem textLines_eq (h : Passed path lines t) :
    textLines path.newest.bytes = lines ++ textLines (path.newest.bytes.drop t.pos) := by
  conv_lhs => rw [← List.take_append_drop t.pos path.newest.bytes]
  rw [textLines_append h.whole, ← h.lines]

/-- A line was read, blank or not. -/
theorem advance (h : Passed path lines t)
    (hends : endsRecord isNewline (t.chunk path.newest.bytes)) :
    Passed path (lines ++ textLines (t.chunk path.newest.bytes))
      (t.advance (t.chunk path.newest.bytes).length) := by
  have htake : path.newest.bytes.take (t.advance (t.chunk path.newest.bytes).length).pos =
      path.newest.bytes.take t.pos ++ t.chunk path.newest.bytes := by
    rw [FileTailer.advance_pos, List.take_add, t.take_chunk]
  refine ⟨h.file, h.inode, congrArg (· + _) h.counted, t.advance_le h.size, ?_, ?_⟩
  · rw [htake]
    exact h.whole.append (.of_endsRecord hends)
  · rw [htake, textLines_append h.whole, ← h.lines]

/-- At an unfinished rest there is nothing left to emit. -/
theorem settled (h : Passed path lines t)
    (hends : ¬ endsRecord isNewline (t.chunk path.newest.bytes)) :
    completeLines isNewline (path.newest.bytes.drop t.pos) = [] ∧
      lines = textLines path.newest.bytes := by
  have hnone := (completeLines_of_not_endsRecord hends).1
  refine ⟨hnone, ?_⟩
  rw [h.textLines_eq, textLines_eq_nil hnone, List.append_nil]

/-- Giving an unfinished line back changes nothing. -/
theorem seek_back (h : Passed path lines t) : ({ t with pos := t.offset } : FileTailer) = t := by
  obtain ⟨file, pos, offset, inode⟩ := t
  exact congrArg (fun p => FileTailer.mk file p offset inode) h.counted.symm

/-- The lines of a shorter content are read when no complete one is left of it. -/
theorem isPrefix_lines (h : Passed path lines t) {content : List UInt8}
    (hcontent : content <+: path.newest.bytes)
    (hnone : completeLines isNewline (content.drop t.pos) = []) : textLines content <+: lines := by
  obtain ⟨more, hmore⟩ := hcontent
  rw [h.lines, ← hmore]
  rcases Nat.le_total t.pos content.length with hle | hge
  · rw [List.take_append_of_le_length hle]
    have hwhole := h.whole
    rw [← hmore, List.take_append_of_le_length hle] at hwhole
    conv_lhs => rw [← List.take_append_drop t.pos content]
    rw [textLines_append hwhole, textLines_eq_nil hnone, List.append_nil]
  · rw [List.take_append, List.take_of_length_le hge]
    exact textLines_mono (List.prefix_append _ _)

end Passed

/-! ## The end of the file -/

/-- A reader with nothing left to emit. -/
structure Settled (path : AlertsPath) (t : FileTailer) : Prop where
  file : t.file = path.older.length
  inode : t.inode = path.newest.inode
  offset : t.offset ≤ path.newest.bytes.length
  rest : completeLines isNewline (path.newest.bytes.drop t.pos) = []
  counted : completeLines isNewline (path.newest.bytes.drop t.offset) = []

/-- Waiting for more to be written. -/
def Waiting (path : AlertsPath) (reader : Reader) : Prop :=
  ∃ t, Settled path t ∧ (reader = .reading t ∨ reader = .checking t)

theorem settled_next {initial : TailState} {path : AlertsPath} {t : FileTailer}
    (h : Settled path t) : Waiting path ((Reader.reading t).next initial path) := by
  have hbytes : path.bytes t.file = path.newest.bytes := by rw [h.file, path.bytes_newest]
  have hnot : ¬ endsRecord isNewline (t.chunk (path.bytes t.file)) := by
    intro hends
    have hlines := completeLines_of_endsRecord hends
    rw [hbytes, h.rest] at hlines
    exact List.cons_ne_nil _ _ hlines.symm
  have hnext := Reader.readsTo_next initial path t
  generalize (Reader.reading t).next initial path = reader at hnext
  cases hnext with
  | eof hchunk => exact ⟨t, h, .inr rfl⟩
  | invalid hchunk hdecode =>
      refine ⟨{ t with pos := t.pos + (t.chunk (path.bytes t.file)).length },
        ⟨h.file, h.inode, h.offset, ?_, h.counted⟩, .inl rfl⟩
      rw [completeLines_eq_nil_iff, ← List.drop_drop]
      exact fun a ha => completeLines_eq_nil_iff.mp h.rest a (List.mem_of_mem_drop ha)
  | unfinished text hchunk hdecode hends =>
      exact ⟨{ t with pos := t.offset }, ⟨h.file, h.inode, h.offset, h.counted, h.counted⟩,
        .inr rfl⟩
  | blank text hdecode hends hblank => exact absurd hends hnot
  | line text hdecode hends hblank => exact absurd hends hnot

theorem waiting_read (initial : TailState) {path : AlertsPath} {reader : Reader}
    (hlinked : path.linked) (h : Waiting path reader) (emitted : List Message) :
    ∃ reader', Watch.read initial ⟨path, reader, emitted⟩ = ⟨path, reader', emitted⟩ ∧
      Waiting path reader' := by
  obtain ⟨t, ht, rfl | rfl⟩ := h
  · exact ⟨_, rfl, settled_next ht⟩
  · refine ⟨.reading t, ?_, t, ht, .inl rfl⟩
    simp [Watch.read, Reader.message, Reader.next, AlertsPath.current, hlinked, ht.inode, ht.offset]

/-- Where a reader is that has emitted the lines before `t`, or is about to send the last of
them. -/
inductive Progress (path : AlertsPath) (lines : List (Option String)) (t : FileTailer) :
    Reader → Prop
  | reading (h : Passed path lines t) : Progress path lines t (.reading t)
  | checking (h : Passed path lines t) : Progress path lines t (.checking t)
  | sending {line : String} (h : Passed path (lines ++ [some line]) t) :
      Progress path lines t (.sending t line)

section

variable {path : AlertsPath} {lines : List (Option String)} {t : FileTailer} {reader : Reader}

theorem Progress.grow (h : Progress path lines t reader) {bytes : List UInt8}
    (hgrown : path.newest.bytes <+: bytes) : Progress (path.holding bytes) lines t reader := by
  cases h with
  | reading h => exact .reading (h.grow hgrown)
  | checking h => exact .checking (h.grow hgrown)
  | sending h => exact .sending (h.grow hgrown)

theorem Progress.lines_isPrefix (h : Progress path lines t reader) :
    lines <+: textLines path.newest.bytes := by
  cases h with
  | reading h | checking h => exact ⟨_, h.textLines_eq.symm⟩
  | @sending line h => exact (List.prefix_append lines [some line]).trans ⟨_, h.textLines_eq.symm⟩

end

namespace Resumption

variable {initial : TailState} {path : AlertsPath} (r : Resumption initial path)

/-- How far the reader is. -/
def StandsAt (n : ℕ) (t : FileTailer) : Prop :=
  Progress (path.holding (r.content n)) (r.state n).lines t (r.state n).reader

/-- The reader is about to read on. -/
structure ReadsOn (n : ℕ) (t : FileTailer) : Prop where
  reader : (r.state n).reader = .reading t
  passed : Passed (path.holding (r.content n)) (r.state n).lines t

theorem standsAt_of_state {n : ℕ} {t : FileTailer} {bytes : List UInt8} {reader : Reader}
    {emitted : List Message} (hstate : r.state n = ⟨path.holding bytes, reader, emitted⟩)
    (h : Progress (path.holding bytes) (emitted.map fun m => some m.line) t reader) :
    r.StandsAt n t := by
  rwa [StandsAt, r.content_of_state hstate, Watch.lines, hstate]

theorem readsOn_of_state {n : ℕ} {t : FileTailer} {bytes : List UInt8} {emitted : List Message}
    (hstate : r.state n = ⟨path.holding bytes, .reading t, emitted⟩)
    (hpassed : Passed (path.holding bytes) (emitted.map fun m => some m.line) t) :
    r.ReadsOn n t := by
  refine ⟨congrArg Watch.reader hstate, ?_⟩
  rwa [r.content_of_state hstate, Watch.lines, hstate]

theorem AtStart.readsOn {n : ℕ} (h : r.AtStart n) :
    r.ReadsOn n ⟨path.older.length, 0, 0, path.newest.inode⟩ :=
  r.readsOn_of_state h ⟨rfl, rfl, rfl, Nat.zero_le _, terminated_nil, rfl⟩

theorem ReadsOn.standsAt {n : ℕ} {t : FileTailer} (h : r.ReadsOn n t) : r.StandsAt n t := by
  rw [StandsAt, h.reader]
  exact .reading h.passed

/-- The next step finds the reader where it is, on a file that may have grown. -/
theorem StandsAt.exists_step {n : ℕ} {t : FileTailer} (h : r.StandsAt n t) :
    ∃ m, n ≤ m ∧ r.action m = .read ∧ r.StandsAt m t := by
  obtain ⟨m, hle, hread, -, hsame, -⟩ := r.exists_read n
  have hgrown := Progress.grow h (r.content_isPrefix hle)
  exact ⟨m, hle, hread, r.standsAt_of_state (hsame m hle le_rfl) hgrown⟩

/-- A reader that is not reading gets back to it: its line is sent, or the path looked at. -/
theorem StandsAt.readsOn_succ (hlinked : path.linked) {n : ℕ} {t : FileTailer}
    (h : r.StandsAt n t) (hread : r.action n = .read) :
    r.ReadsOn n t ∨ r.ReadsOn (n + 1) t := by
  have hnext : r.state (n + 1) = Watch.read initial
      ⟨path.holding (r.content n), (r.state n).reader, (r.state n).emitted⟩ := by
    rcases r.step_cases n with ⟨-, hstate⟩ | ⟨hother, -⟩
    · rw [hstate, ← r.path_eq n]
    · exact absurd hread hother
  rw [StandsAt] at h
  generalize hreader : (r.state n).reader = reader at h hnext
  cases h with
  | reading h => exact .inl ⟨hreader, h⟩
  | @sending line h =>
      refine .inr (r.readsOn_of_state hnext ?_)
      rwa [List.map_append]
  | checking h =>
      have hsame : ¬ ((path.holding (r.content n)).newest.inode ≠ t.inode ∨
          (path.holding (r.content n)).newest.bytes.length < t.offset) := by
        rintro (hne | hlt)
        · exact hne h.inode.symm
        · exact absurd (h.counted ▸ h.size) (Nat.not_le.mpr hlt)
      simp only [Watch.read, Reader.message, Reader.next, AlertsPath.current,
        AlertsPath.holding_linked, hlinked, if_true, if_neg hsame] at hnext
      exact .inr (r.readsOn_of_state hnext h)

theorem StandsAt.exists_readsOn (hlinked : path.linked) {n : ℕ} {t : FileTailer}
    (h : r.StandsAt n t) : ∃ i, n ≤ i ∧ r.ReadsOn i t := by
  obtain ⟨m, hle, hread, hm⟩ := h.exists_step
  rcases hm.readsOn_succ r hlinked hread with hreads | hreads
  · exact ⟨m, hle, hreads⟩
  · exact ⟨m + 1, Nat.le_succ_of_le hle, hreads⟩

/-! ## One call of `next_line` -/

/-- The next call finds the reader where it is, on a file that may have grown. -/
theorem ReadsOn.exists_call {n : ℕ} {t : FileTailer} (h : r.ReadsOn n t) :
    ∃ m, n ≤ m ∧ r.action m = .read ∧ r.ReadsOn m t := by
  obtain ⟨m, hle, hread, -, hsame, -⟩ := r.exists_read n
  have hstate := hsame m hle le_rfl
  rw [h.reader] at hstate
  exact ⟨m, hle, hread, r.readsOn_of_state hstate (h.passed.grow (r.content_isPrefix hle))⟩

section

variable {n : ℕ} {t : FileTailer} (h : r.ReadsOn n t) (hread : r.action n = .read)
include h

theorem ReadsOn.bytes_file : (path.holding (r.content n)).bytes t.file = r.content n :=
  h.passed.bytes_file

include hread

/-- What the call leads to. -/
theorem ReadsOn.exists_readsTo : ∃ reader,
    Reader.ReadsTo (path.holding (r.content n)) t reader ∧
      r.state (n + 1) = ⟨path.holding (r.content n), reader, (r.state n).emitted⟩ := by
  refine ⟨_, Reader.readsTo_next initial _ t, ?_⟩
  rcases r.step_cases n with ⟨-, hstate⟩ | ⟨hother, -⟩
  · rw [hstate, Watch.read, h.reader, ← r.path_eq n]
    rfl
  · exact absurd hread hother

/-- What is read is text, unless nothing will ever follow it. -/
theorem ReadsOn.valid_or (htext : r.ReadsText) : Valid (t.chunk (r.content n)) ∨
    ¬ endsRecord isNewline (t.chunk (r.content n)) ∧ ∀ m, n ≤ m → r.content m = r.content n := by
  have hchunk := htext n t hread h.reader
  rwa [r.path_eq n, h.bytes_file] at hchunk

/-- A complete line is left behind. -/
theorem ReadsOn.standsAt_of_line (htext : r.ReadsText)
    (hends : endsRecord isNewline (t.chunk (r.content n))) :
    r.StandsAt (n + 1) (t.advance (t.chunk (r.content n)).length) := by
  have hvalid := (h.valid_or r hread htext).resolve_right fun hrest => hrest.1 hends
  have hpassed := h.passed.advance hends
  rw [AlertsPath.holding_bytes] at hpassed
  obtain ⟨reader, hsteps, hnext⟩ := h.exists_readsTo r hread
  refine r.standsAt_of_state hnext ?_
  have hbytes := h.bytes_file
  cases hsteps with
  | eof hchunk =>
      rw [hbytes] at hchunk
      rw [hchunk] at hends
      exact absurd hends Bool.false_ne_true
  | invalid hchunk hdecode =>
      rw [hbytes] at hdecode
      exact absurd hdecode (decodeLine_ne_none_iff.mpr hvalid)
  | unfinished text hchunk hdecode hnot =>
      rw [hbytes] at hnot
      exact absurd hends hnot
  | blank text hdecode hends' hblank =>
      rw [hbytes] at hdecode ⊢
      refine .reading ?_
      rwa [FileTailer.chunk, textLines_chunk hends hdecode, if_pos hblank, List.append_nil,
        ← FileTailer.chunk] at hpassed
  | line text hdecode hends' hblank =>
      rw [hbytes] at hdecode ⊢
      refine .sending ?_
      rwa [FileTailer.chunk, textLines_chunk hends hdecode, if_neg hblank,
        ← FileTailer.chunk] at hpassed

/-- An unfinished rest that is text is given back. -/
theorem ReadsOn.standsAt_of_rest (hends : ¬ endsRecord isNewline (t.chunk (r.content n)))
    (hvalid : Valid (t.chunk (r.content n))) : r.StandsAt (n + 1) t := by
  obtain ⟨reader, hsteps, hnext⟩ := h.exists_readsTo r hread
  refine r.standsAt_of_state hnext ?_
  have hbytes := h.bytes_file
  cases hsteps with
  | eof hchunk => exact .checking h.passed
  | invalid hchunk hdecode =>
      rw [hbytes] at hdecode
      exact absurd hdecode (decodeLine_ne_none_iff.mpr hvalid)
  | unfinished text hchunk hdecode hnot =>
      rw [h.passed.seek_back]
      exact .checking h.passed
  | blank text hdecode hends' hblank | line text hdecode hends' hblank =>
      rw [hbytes] at hends'
      exact absurd hends' hends

end

/-! ## All lines and all bytes -/

section

variable (hlinked : path.linked) (htext : r.ReadsText)
include hlinked htext

/-- The lines the file contains by now are emitted in the end. -/
theorem ReadsOn.exists_lines {n : ℕ} {t : FileTailer} (h : r.ReadsOn n t) {content : List UInt8}
    (hcontent : content <+: r.content n) : ∃ m, textLines content <+: (r.state m).lines := by
  by_cases hrest : completeLines isNewline (content.drop t.pos) = []
  · exact ⟨n, h.passed.isPrefix_lines hcontent hrest⟩
  · obtain ⟨m, hle, hread, hm⟩ := h.exists_call
    have hgrown := hcontent.trans (r.content_isPrefix hle)
    have hends : endsRecord isNewline (t.chunk (r.content m)) := by
      by_contra hends
      obtain ⟨more, hmore⟩ := hgrown.drop t.pos
      have hnone := (completeLines_of_not_endsRecord hends).1
      rw [← hmore] at hnone
      exact hrest (List.prefix_nil.mp (hnone ▸ completeLines_isPrefix _ _))
    obtain ⟨i, hi, hadvanced⟩ :=
      (hm.standsAt_of_line r hread htext hends).exists_readsOn r hlinked
    have hinside : t.pos < content.length := by
      by_contra hpast
      rw [List.drop_eq_nil_of_le (Nat.le_of_not_lt hpast)] at hrest
      exact hrest rfl
    have hpositive := length_chunk_pos hends
    have hdecreases : content.length - (t.advance (t.chunk (r.content m)).length).pos <
        content.length - t.pos := by
      rw [FileTailer.advance_pos]
      omega
    exact hadvanced.exists_lines (hgrown.trans (r.content_isPrefix (by omega)))
termination_by content.length - t.pos

/-- A byte that is there by some time, and not yet behind the reader, is read in the end. -/
theorem ReadsOn.exists_covers {n : ℕ} {t : FileTailer} (h : r.ReadsOn n t) {k late : ℕ}
    (hpos : t.pos ≤ k) (hk : k < (r.content late).length) :
    ∃ m, (r.state m).Covers path.older.length k := by
  obtain ⟨m, hle, hread, hm⟩ := h.exists_call
  by_cases hin : k < t.pos + (t.chunk (r.content m)).length
  · refine ⟨m, t, hm.reader, hm.passed.file, hpos, ?_⟩
    rw [r.path_eq m]
    exact (path.holding (r.content m)).bytes_newest.symm ▸ hin
  rw [not_lt] at hin
  by_cases hends : endsRecord isNewline (t.chunk (r.content m))
  · obtain ⟨i, hi, hadvanced⟩ :=
      (hm.standsAt_of_line r hread htext hends).exists_readsOn r hlinked
    have hpositive := length_chunk_pos hends
    have hdecreases : k - (t.advance (t.chunk (r.content m)).length).pos + (late - i) <
        k - t.pos + (late - n) := by
      rw [FileTailer.advance_pos]
      omega
    exact hadvanced.exists_covers hin hk
  · -- the byte is not there yet
    have hsize : (r.content m).length ≤ k := by
      have hall := congrArg List.length (completeLines_of_not_endsRecord hends).2
      rw [← FileTailer.chunk, List.length_drop] at hall
      omega
    have hearly : m < late := by
      by_contra hlate
      have hshorter := (r.content_isPrefix (Nat.le_of_not_lt hlate)).length_le
      omega
    have hvalid : Valid (t.chunk (r.content m)) := by
      refine (hm.valid_or r hread htext).resolve_right fun hrest => ?_
      have hsame := hrest.2 late hearly.le
      rw [hsame] at hk
      omega
    obtain ⟨i, hi, hwaits⟩ := (hm.standsAt_of_rest r hread hends hvalid).exists_readsOn r hlinked
    exact hwaits.exists_covers hpos hk
termination_by k - t.pos + (late - n)

end

/-- The reader has emitted everything, and nothing more will come. -/
structure Done (n : ℕ) : Prop where
  same : ∀ m, n ≤ m → r.content m = r.content n
  waiting : Waiting (path.holding (r.content n)) (r.state n).reader
  lines : (r.state n).lines = textLines (r.content n)

theorem Done.succ (hlinked : path.linked) {n : ℕ} (h : r.Done n) : r.Done (n + 1) := by
  have hcontent := h.same (n + 1) (Nat.le_succ n)
  have hsame (m : ℕ) (hm : n + 1 ≤ m) : r.content m = r.content (n + 1) := by
    rw [h.same m (Nat.le_of_succ_le hm), hcontent]
  rcases r.step_cases n with ⟨-, hstate⟩ | ⟨-, more, hstate⟩
  · obtain ⟨reader, hread, hwaiting⟩ :=
      @waiting_read initial (path.holding (r.content n)) _ hlinked h.waiting (r.state n).emitted
    rw [← r.path_eq n] at hread
    rw [hread] at hstate
    refine ⟨hsame, ?_, ?_⟩
    · rw [hcontent, hstate]
      exact hwaiting
    · rw [hcontent, Watch.lines, hstate, ← h.lines]
      rfl
  · refine ⟨hsame, ?_, ?_⟩
    · rw [hcontent, hstate]
      exact h.waiting
    · rw [hcontent, Watch.lines, hstate, ← h.lines]
      rfl

section

variable (hlinked : path.linked) (htext : r.ReadsText)
include hlinked htext

/-- One step on: the reader keeps its place, gets past a line, or is done. -/
theorem StandsAt.succ {n : ℕ} {t : FileTailer} (h : r.StandsAt n t) :
    (∃ t', r.StandsAt (n + 1) t') ∨ r.Done (n + 1) := by
  have hprefix := r.content_isPrefix (Nat.le_succ n)
  rcases r.step_cases n with ⟨hread, -⟩ | ⟨-, more, hstate⟩
  · rcases h.readsOn_succ r hlinked hread with hreads | hreads
    · by_cases hends : endsRecord isNewline (t.chunk (r.content n))
      · exact .inl ⟨_, hreads.standsAt_of_line r hread htext hends⟩
      · rcases hreads.valid_or r hread htext with hvalid | ⟨-, hsame⟩
        · exact .inl ⟨t, hreads.standsAt_of_rest r hread hends hvalid⟩
        · -- what is left will never be a line
          obtain ⟨hrest, hlines⟩ := hreads.passed.settled hends
          have hsettled : Settled (path.holding (r.content n)) t :=
            ⟨hreads.passed.file, hreads.passed.inode, hreads.passed.counted ▸ hreads.passed.size,
              hrest, hreads.passed.counted ▸ hrest⟩
          have hdone : r.Done n := ⟨hsame, ⟨t, hsettled, .inl hreads.reader⟩, hlines⟩
          exact .inr (hdone.succ r hlinked)
    · exact .inl ⟨t, hreads.standsAt⟩
  · have hgrown := Progress.grow h hprefix
    rw [AlertsPath.holding_holding] at hgrown
    refine .inl ⟨t, ?_⟩
    rw [StandsAt, Watch.lines, hstate]
    exact hgrown

/-- From its start on the file is read line by line. -/
theorem AtStart.standsAt_or_done {start : ℕ} (h : r.AtStart start) {n : ℕ} (hle : start ≤ n) :
    (∃ t, r.StandsAt n t) ∨ r.Done n := by
  induction n, hle using Nat.le_induction with
  | base => exact .inl ⟨_, h.readsOn.standsAt⟩
  | succ n _ ih =>
      rcases ih with ⟨t, hstands⟩ | hdone
      · exact hstands.succ r hlinked htext
      · exact .inr (hdone.succ r hlinked)

/-- A run that comes to the start of the file reads all of it. -/
theorem AtStart.readsAll {start : ℕ} (h : r.AtStart start) : r.ReadsAll := by
  have hlines (n : ℕ) (hle : start ≤ n) : (r.state n).lines <+: textLines (r.content n) := by
    rcases h.standsAt_or_done r hlinked htext hle with ⟨t, hstands⟩ | hdone
    · exact hstands.lines_isPrefix
    · rw [hdone.lines]
  constructor
  case inOrder =>
    intro n
    rcases Nat.le_total start n with hle | hge
    · exact hlines n hle
    · -- nothing was emitted before
      have hempty := r.emitted_isPrefix hge
      rw [congrArg Watch.emitted h, List.prefix_nil] at hempty
      rw [Watch.lines, hempty]
      exact List.nil_prefix
  case everyLine =>
    intro n
    have hgrown := r.content_isPrefix (Nat.le_max_right start n)
    rcases h.standsAt_or_done r hlinked htext (Nat.le_max_left start n) with ⟨t, hstands⟩ | hdone
    · obtain ⟨i, hi, hreads⟩ := hstands.exists_readsOn r hlinked
      exact hreads.exists_lines r hlinked htext (hgrown.trans (r.content_isPrefix hi))
    · refine ⟨max start n, ?_⟩
      rw [hdone.lines]
      exact textLines_mono hgrown
  case everyByte =>
    intro n k hk
    exact h.readsOn.exists_covers r hlinked htext (Nat.zero_le k) hk

end

end Resumption

end WazuhOcsf
