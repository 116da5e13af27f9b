import WazuhOcsf.Main.History
import WazuhOcsf.Positions
import WazuhOcsf.Rotation

/-!
# Truncation while running

Some log rotations copy the alerts file and cut it off in place.  `check_rotation` notices
by the size: a file that is smaller than the counted offset is read again from its start.  So
a cut is noticed as long as the file has not grown back to the offset when the reader looks.

`Truncating` is the reader with a writer that appends and cuts.  Between a cut and the reopen
the reader stands beyond the end of the file; `TruncInv` says what it has emitted in either
case.  `truncation_lossless` is about the runs in which everything was read before a cut and
the cut is noticed, `truncation_loses` is a run in which the file grows back first.
-/

namespace WazuhOcsf

open Lines RustString Transition Watch

/-! ## A writer that cuts the file off -/

/-- Reader and log writer, of a file that is emptied in place. -/
structure Truncating where
  watch : Watch
  /-- What was cut off so far. -/
  removed : List UInt8
  /-- The reader stands in a file that was cut off since it was opened. -/
  cut : Bool

namespace Truncating

/-- The log writer appends or empties the file, or the reader takes a step. -/
inductive Action
  | append (bytes : List UInt8)
  | truncate
  | read

/-- The file is about to be opened anew. -/
def reopens : Reader → Bool
  | .opening _ _ => true
  | _ => false

/-- A step of the reader. -/
def read (initial : TailState) (s : Truncating) : Truncating :=
  { s with
    watch := s.watch.read initial
    cut := s.cut && !reopens s.watch.reader }

/-- The file is emptied under the reader, which keeps its handle. -/
def step (initial : TailState) (s : Truncating) : Action → Option Truncating
  | .append bytes =>
      (s.watch.path.write (.append bytes)).map fun path =>
        { s with watch := { s.watch with path := path } }
  | .truncate => some
      { watch := { s.watch with path := s.watch.path.truncate 0 }
        removed := s.removed ++ s.watch.path.newest.bytes
        -- an empty file is as good as new
        cut := s.cut || s.watch.path.newest.bytes ≠ [] }
  | .read => some (s.read initial)

/-- A reader somewhere in the only file. -/
def tailing (file : AlertsFile) (start : ℕ) : Truncating :=
  ⟨⟨⟨[], file, true⟩, .reading ⟨0, start, start, file.inode⟩, []⟩, [], false⟩

variable (s : Truncating) (t : FileTailer) (start : ℕ)

/-- The content of the file now. -/
abbrev bytes : List UInt8 := s.watch.path.newest.bytes

/-- All that was written, after the first `start` bytes. -/
def written : List UInt8 := (s.removed ++ s.bytes).drop start

/-- The bytes the reader has passed. -/
def passed : List UInt8 := if s.cut then s.removed else s.removed ++ s.bytes.take t.pos

/-- The bytes it has still to read; of a file that was cut off, all there are. -/
def unread : List UInt8 := if s.cut then s.bytes else s.bytes.drop t.pos

theorem passed_append_unread : s.passed t ++ s.unread t = s.removed ++ s.bytes := by
  unfold passed unread
  split
  · rfl
  · rw [List.append_assoc, List.take_append_drop]

variable {s t start}

theorem written_eq (h : start ≤ (s.passed t).length) :
    s.written start = (s.passed t).drop start ++ s.unread t := by
  rw [written, ← passed_append_unread, List.drop_append_of_le_length h]

end Truncating

/-- The reader finds a file that was cut off shorter than its offset. -/
def Notices (s : Truncating) : Prop :=
  match s.watch.reader with
  | .reading t | .sending t _ | .checking t => s.cut → s.bytes.length < t.offset
  | _ => True

instance (s : Truncating) : Decidable (Notices s) := by
  unfold Notices
  split <;> infer_instance

/-- The writer appends whole lines of text and cuts off what was read, and the reader notices. -/
def KeepsPace (s : Truncating) : Truncating.Action → Prop
  | .append bytes => Terminated isNewline bytes ∧ none ∉ textLines bytes
  | .truncate => ∀ t ∈ s.watch.reader.tailer, s.unread t = []
  | .read => Notices s

instance (s : Truncating) : (a : Truncating.Action) → Decidable (KeepsPace s a)
  | .append bytes =>
      inferInstanceAs (Decidable (Terminated isNewline bytes ∧ none ∉ textLines bytes))
  | .truncate => inferInstanceAs (Decidable (∀ t ∈ s.watch.reader.tailer, s.unread t = []))
  | .read => inferInstanceAs (Decidable (Notices s))

/-! ## The invariant -/

/-- A tailer between two reads. -/
structure Stands (start : ℕ) (s : Truncating) (t : FileTailer) : Prop where
  file : t.file = 0
  inode : t.inode = s.watch.path.newest.inode
  counted : t.pos = t.offset
  size : s.cut = false → t.pos ≤ s.bytes.length
  after : start ≤ (s.passed t).length
  whole : Terminated isNewline ((s.passed t).drop start)

/-- What the reader has emitted, by where it is. -/
inductive Emitted (start : ℕ) (s : Truncating) : Reader → Prop
  | reading {t : FileTailer} (h : Stands start s t)
      (hlines : s.watch.lines = textLines ((s.passed t).drop start)) : Emitted start s (.reading t)
  | sending {t : FileTailer} {line : String} (h : Stands start s t)
      (hlines : s.watch.lines ++ [some line] = textLines ((s.passed t).drop start)) :
      Emitted start s (.sending t line)
  | checking {t : FileTailer} (h : Stands start s t)
      (hlines : s.watch.lines = textLines ((s.passed t).drop start)) :
      Emitted start s (.checking t)
  | metadata {t : FileTailer} (h : Stands start s t) (hcut : s.cut)
      (hlines : s.watch.lines = textLines ((s.passed t).drop start)) :
      Emitted start s (.metadata (.rotation t))
  | opening {t : FileTailer} {inode : ℕ} (h : Stands start s t) (hcut : s.cut)
      (hinode : inode = s.watch.path.newest.inode)
      (hlines : s.watch.lines = textLines ((s.passed t).drop start)) :
      Emitted start s (.opening (.rotation t) inode)

/-- What a run keeps: the lines sent are the first ones of all that was ever written. -/
structure TruncInv (start : ℕ) (s : Truncating) : Prop where
  single : s.watch.path.older = []
  linked : s.watch.path.linked
  whole : Terminated isNewline (s.written start)
  valid : none ∉ textLines (s.written start)
  reader : Emitted start s s.watch.reader

section

variable {initial : TailState} {start : ℕ} {s s' : Truncating} {t : FileTailer}

theorem TruncInv.bytes_zero (h : TruncInv start s) : s.watch.path.bytes 0 = s.bytes := by
  have hnewest := s.watch.path.bytes_newest
  rwa [h.single] at hnewest

theorem truncInv_tailing {file : AlertsFile} (hsize : start ≤ file.bytes.length)
    (hwhole : Terminated isNewline (file.bytes.drop start))
    (hvalid : none ∉ textLines (file.bytes.drop start)) : TruncInv start (.tailing file start) := by
  have hpassed : (Truncating.tailing file start).passed ⟨0, start, start, file.inode⟩ =
      file.bytes.take start := rfl
  have hlength : (file.bytes.take start).length = start := List.length_take_of_le hsize
  have hnil : (file.bytes.take start).drop start = [] := List.drop_eq_nil_of_le hlength.le
  refine ⟨rfl, rfl, hwhole, hvalid, .reading ⟨rfl, rfl, rfl, fun _ => hsize, ?_, ?_⟩ ?_⟩
  · rw [hpassed, hlength]
  · rw [hpassed, hnil]
    exact terminated_nil
  · rw [hpassed, hnil]
    rfl

/-! ## Steps of the writer -/

theorem Truncating.passed_append (more : List UInt8)
    (hsize : s.cut = false → t.pos ≤ s.bytes.length) :
    ({ s with watch := { s.watch with path := { s.watch.path with newest :=
      { s.watch.path.newest with bytes := s.bytes ++ more } } } } : Truncating).passed t =
      s.passed t := by
  unfold Truncating.passed
  split
  · rfl
  · next hcut =>
      dsimp only [Truncating.bytes]
      rw [List.take_append_of_le_length (hsize (Bool.eq_false_iff.mpr hcut))]

/-- Where the bytes passed stay the same, so does what was emitted. -/
theorem Emitted.congr {reader : Reader} (h : Emitted start s reader)
    (hcut : s.cut → s'.cut) (hinode : s'.watch.path.newest.inode = s.watch.path.newest.inode)
    (hlines : s'.watch.lines = s.watch.lines)
    (hpassed : ∀ t ∈ reader.tailer, Stands start s t →
      s'.passed t = s.passed t ∧ (s'.cut = false → t.pos ≤ s'.bytes.length)) :
    Emitted start s' reader := by
  have hstands {t : FileTailer} (ht : t ∈ reader.tailer) (h : Stands start s t) :
      Stands start s' t ∧ s'.passed t = s.passed t := by
    obtain ⟨hsame, hsize⟩ := hpassed t ht h
    exact ⟨⟨h.file, h.inode.trans hinode.symm, h.counted, hsize, hsame ▸ h.after, hsame ▸ h.whole⟩,
      hsame⟩
  cases h with
  | reading h hemitted =>
      obtain ⟨h, hsame⟩ := hstands rfl h
      exact .reading h (by rw [hlines, hsame, hemitted])
  | sending h hemitted =>
      obtain ⟨h, hsame⟩ := hstands rfl h
      exact .sending h (by rw [hlines, hsame, hemitted])
  | checking h hemitted =>
      obtain ⟨h, hsame⟩ := hstands rfl h
      exact .checking h (by rw [hlines, hsame, hemitted])
  | metadata h hbefore hemitted =>
      obtain ⟨h, hsame⟩ := hstands rfl h
      exact .metadata h (hcut hbefore) (by rw [hlines, hsame, hemitted])
  | opening h hbefore hopened hemitted =>
      obtain ⟨h, hsame⟩ := hstands rfl h
      exact .opening h (hcut hbefore) (hopened.trans hinode.symm) (by rw [hlines, hsame, hemitted])

theorem Emitted.exists_stands {reader : Reader} (h : Emitted start s reader) :
    ∃ t ∈ reader.tailer, Stands start s t := by
  cases h with
  | reading h | sending h | checking h | metadata h | opening h => exact ⟨_, rfl, h⟩

theorem TruncInv.reached (h : TruncInv start s) : start ≤ (s.removed ++ s.bytes).length := by
  obtain ⟨t, -, ht⟩ := h.reader.exists_stands
  rw [← Truncating.passed_append_unread s t, List.length_append]
  exact Nat.le_add_right_of_le ht.after

theorem TruncInv.append (h : TruncInv start s) {more : List UInt8}
    (hwhole : Terminated isNewline more) (hvalid : none ∉ textLines more) :
    TruncInv start { s with watch := { s.watch with path := { s.watch.path with newest :=
      { s.watch.path.newest with bytes := s.bytes ++ more } } } } := by
  have hwritten : ({ s with watch := { s.watch with path := { s.watch.path with newest :=
      { s.watch.path.newest with bytes := s.bytes ++ more } } } } : Truncating).written start =
      s.written start ++ more := by
    rw [Truncating.written, Truncating.written, ← List.append_assoc,
      List.drop_append_of_le_length h.reached]
  refine ⟨h.single, h.linked, ?_, ?_, ?_⟩
  · rw [hwritten]
    exact h.whole.append hwhole
  · rw [hwritten, textLines_append h.whole, List.mem_append, not_or]
    exact ⟨h.valid, hvalid⟩
  · refine h.reader.congr id rfl rfl fun t _ ht => ⟨s.passed_append more ht.size, fun hcut => ?_⟩
    rw [List.length_append]
    exact Nat.le_add_right_of_le (ht.size hcut)

/-- Where everything was read, a cut takes nothing away. -/
theorem TruncInv.truncate (h : TruncInv start s)
    (hread : ∀ t ∈ s.watch.reader.tailer, s.unread t = []) :
    TruncInv start
      { watch := { s.watch with path := s.watch.path.truncate 0 }
        removed := s.removed ++ s.bytes
        cut := s.cut || s.bytes ≠ [] } := by
  set cut : Bool := s.cut || s.bytes ≠ [] with hcut
  have hwritten : (⟨{ s.watch with path := s.watch.path.truncate 0 }, s.removed ++ s.bytes, cut⟩ :
      Truncating).written start = s.written start := by
    simp [Truncating.written, Truncating.bytes, AlertsPath.truncate]
  refine ⟨h.single, h.linked, hwritten ▸ h.whole, hwritten ▸ h.valid, ?_⟩
  refine h.reader.congr (fun hbefore => ?_) rfl rfl fun t ht hstands => ⟨?_, fun hfresh => ?_⟩
  · rw [hcut, hbefore, Bool.true_or]
  · have hall := s.passed_append_unread t
    rw [hread t ht, List.append_nil] at hall
    rw [hall, Truncating.passed]
    split
    · rfl
    · simp [Truncating.bytes, AlertsPath.truncate]
  · rw [hcut, Bool.or_eq_false_iff] at hfresh
    have hempty : s.bytes = [] := by simpa using hfresh.2
    have hsize := hstands.size hfresh.1
    rw [hempty] at hsize
    exact hsize.trans (Nat.zero_le _)

/-! ## Steps of the reader -/

theorem Stands.terminated_unread (h : Stands start s t) (hs : TruncInv start s) :
    Terminated isNewline (s.unread t) := by
  have hwhole := hs.whole
  rw [Truncating.written_eq h.after] at hwhole
  exact hwhole.of_append

theorem textLines_written_eq (h : Stands start s t) :
    textLines (s.written start) =
      textLines ((s.passed t).drop start) ++ textLines (s.unread t) := by
  rw [Truncating.written_eq h.after, textLines_append h.whole]

theorem Stands.none_not_mem_unread (h : Stands start s t) (hs : TruncInv start s) :
    none ∉ textLines (s.unread t) := by
  have hvalid := hs.valid
  rw [textLines_written_eq h, List.mem_append, not_or] at hvalid
  exact hvalid.2

/-- What the next `read_line` sees of a file that was not cut off is what is unread. -/
theorem Stands.drop_bytes (h : Stands start s t) (hs : TruncInv start s) (hcut : s.cut = false) :
    (s.watch.path.bytes t.file).drop t.pos = s.unread t := by
  rw [h.file, hs.bytes_zero, Truncating.unread, hcut]
  rfl

/-- Past a chunk that ends a line. -/
theorem Stands.advance (h : Stands start s t) (hs : TruncInv start s) (hcut : s.cut = false)
    (hends : endsRecord isNewline (t.chunk (s.watch.path.bytes t.file))) :
    Stands start s (t.advance (t.chunk (s.watch.path.bytes t.file)).length) ∧
      s.passed (t.advance (t.chunk (s.watch.path.bytes t.file)).length) =
        s.passed t ++ t.chunk (s.watch.path.bytes t.file) := by
  have hbytes : s.watch.path.bytes t.file = s.bytes := by rw [h.file, hs.bytes_zero]
  rw [hbytes] at hends ⊢
  have hpassed : s.passed (t.advance (t.chunk s.bytes).length) = s.passed t ++ t.chunk s.bytes := by
    rw [Truncating.passed, Truncating.passed, hcut, t.advance_pos, List.take_add, t.take_chunk]
    exact (List.append_assoc _ _ _).symm
  refine ⟨⟨h.file, h.inode, ?_, fun _ => t.advance_le (h.size hcut), ?_, ?_⟩, hpassed⟩
  · rw [t.advance_pos, t.advance_offset, h.counted]
  · rw [hpassed, List.length_append]
    exact Nat.le_add_right_of_le h.after
  · rw [hpassed, List.drop_append_of_le_length h.after]
    exact h.whole.append (.of_endsRecord hends)

/-- Before a cut the reader takes line after line; after it, it turns to the path. -/
theorem Emitted.next {reader : Reader} (h : Emitted start s reader) (hs : TruncInv start s)
    (hnotices : ∀ t, reader = .reading t ∨ reader = .checking t → s.cut → s.bytes.length < t.offset)
    (hopen : Truncating.reopens reader = false) :
    Emitted start s (reader.next initial s.watch.path) := by
  cases h with
  | @reading t h hlines =>
      cases hcut : s.cut with
      | true =>
          -- beyond the end of the file there is nothing to read
          have hend : (s.watch.path.bytes t.file).drop t.pos = [] := by
            rw [h.file, hs.bytes_zero, h.counted]
            exact List.drop_eq_nil_of_le (hnotices t (.inl rfl) hcut).le
          have hnext : (Reader.reading t).next initial s.watch.path = .checking t := by
            simp [Reader.next, FileTailer.nextLine, FileTailer.chunk, hend, readUntil]
          rw [hnext]
          exact .checking h hlines
      | false =>
          have hread := Reader.readsTo_next initial s.watch.path t
          generalize (Reader.reading t).next initial s.watch.path = reader at hread
          have hrest := h.drop_bytes hs hcut
          have hwhole (hchunk : t.chunk (s.watch.path.bytes t.file) ≠ []) :
              endsRecord isNewline (t.chunk (s.watch.path.bytes t.file)) := by
            refine (hrest ▸ h.terminated_unread hs).endsRecord_readUntil fun hnil => hchunk ?_
            rw [FileTailer.chunk, hnil]
            rfl
          cases hread with
          | eof hchunk => exact .checking h hlines
          | invalid hchunk hdecode =>
              have hnone := none_mem_textLines (hwhole hchunk) hdecode
              exact absurd (hrest ▸ hnone) (h.none_not_mem_unread hs)
          | unfinished text hchunk hdecode hends => exact absurd (hwhole hchunk) hends
          | blank text hdecode hends hblank =>
              obtain ⟨hadvance, hpassed⟩ := h.advance hs hcut hends
              refine .reading hadvance ?_
              rw [hpassed, List.drop_append_of_le_length h.after, textLines_append h.whole, hlines,
                FileTailer.chunk, textLines_chunk hends hdecode, if_pos hblank, List.append_nil]
          | line text hdecode hends hblank =>
              obtain ⟨hadvance, hpassed⟩ := h.advance hs hcut hends
              refine .sending hadvance ?_
              rw [hpassed, List.drop_append_of_le_length h.after, textLines_append h.whole, hlines,
                FileTailer.chunk, textLines_chunk hends hdecode, if_neg hblank]
  | sending h hlines => exact .sending h hlines
  | @checking t h hlines =>
      rw [Reader.next, s.watch.path.current_of_linked hs.linked]
      dsimp only
      cases hcut : s.cut with
      | true =>
          rw [if_pos (.inr (hnotices t (.inr rfl) hcut))]
          exact .metadata h hcut hlines
      | false =>
          rw [if_neg]
          · exact .reading h hlines
          · rw [not_or, not_not, Nat.not_lt, ← h.counted]
            exact ⟨h.inode.symm, h.size hcut⟩
  | metadata h hcut hlines =>
      rw [Reader.next, s.watch.path.current_of_linked hs.linked]
      exact .opening h hcut rfl hlines
  | opening h hcut hinode hlines => exact absurd hopen (by simp [Truncating.reopens])

theorem Watch.path_read (initial : TailState) (w : Watch) : (w.read initial).path = w.path := by
  unfold Watch.read
  split <;> rfl

theorem Watch.read_of_message_none {w : Watch} (h : w.reader.message = none) :
    w.read initial = { w with reader := w.reader.next initial w.path } := by
  simp [Watch.read, h]

theorem Truncating.bytes_read : (s.read initial).bytes = s.bytes := by
  rw [Truncating.bytes, Truncating.read, Watch.path_read]

variable (initial) in
theorem Truncating.written_read : (s.read initial).written start = s.written start := by
  rw [Truncating.written, Truncating.bytes_read]
  rfl

variable (initial) in
theorem Truncating.reader_read (h : s.watch.reader.message = none) :
    (s.read initial).watch.reader = s.watch.reader.next initial s.watch.path :=
  congrArg Watch.reader (Watch.read_of_message_none h)

variable (initial) in
/-- A step of the reader that opens no file leaves what was passed alone. -/
theorem Stands.of_read (h : Stands start s t) (hopen : Truncating.reopens s.watch.reader = false) :
    Stands start (s.read initial) t ∧ (s.read initial).passed t = s.passed t := by
  have hcut : (s.read initial).cut = s.cut := by
    rw [Truncating.read, hopen, Bool.not_false, Bool.and_true]
  have hpassed : (s.read initial).passed t = s.passed t := by
    rw [Truncating.passed, Truncating.passed, hcut, Truncating.bytes_read]
    rfl
  refine ⟨⟨h.file, ?_, h.counted, fun hfresh => ?_, hpassed ▸ h.after, hpassed ▸ h.whole⟩, hpassed⟩
  · rw [Truncating.read, Watch.path_read]
    exact h.inode
  · rw [Truncating.bytes_read]
    exact h.size (hcut ▸ hfresh)

theorem Emitted.of_read {reader : Reader} (h : Emitted start s reader)
    (hopen : Truncating.reopens s.watch.reader = false)
    (hlines : (s.watch.read initial).lines = s.watch.lines) :
    Emitted start (s.read initial) reader := by
  have hcut : (s.read initial).cut = s.cut := by
    rw [Truncating.read, hopen, Bool.not_false, Bool.and_true]
  refine h.congr (fun hbefore => hcut.trans hbefore) ?_ hlines fun t _ ht => ?_
  · rw [Truncating.read, Watch.path_read]
  · obtain ⟨hstands, hpassed⟩ := ht.of_read initial hopen
    exact ⟨hpassed, hstands.size⟩

variable (initial) in
/-- The file is read from its start. -/
theorem Stands.reopen {inode : ℕ} (h : Stands start s t) (hs : TruncInv start s) (hcut : s.cut)
    (hreader : s.watch.reader = .opening (.rotation t) inode)
    (hinode : inode = s.watch.path.newest.inode)
    (hlines : s.watch.lines = textLines ((s.passed t).drop start)) :
    (s.read initial).cut = false ∧ (s.read initial).watch.reader = .reading ⟨0, 0, 0, inode⟩ ∧
      Emitted start (s.read initial) (.reading ⟨0, 0, 0, inode⟩) := by
  have hread : s.watch.read initial = { s.watch with reader := .reading ⟨0, 0, 0, inode⟩ } := by
    rw [Watch.read_of_message_none (by rw [hreader]; rfl), hreader]
    simp [Reader.next, s.watch.path.current_of_linked hs.linked, hs.single]
  have hfresh : (s.read initial).cut = false := by
    rw [Truncating.read, hreader]
    exact Bool.and_false _
  have hpassed : (s.read initial).passed ⟨0, 0, 0, inode⟩ = s.passed t := by
    rw [Truncating.passed, Truncating.passed, hfresh, hcut, List.take_zero]
    exact List.append_nil _
  refine ⟨hfresh, by rw [Truncating.read, hread], .reading ⟨rfl, ?_, rfl, fun _ => Nat.zero_le _,
    hpassed ▸ h.after, hpassed ▸ h.whole⟩ ?_⟩
  · rw [Truncating.read, Watch.path_read]
    exact hinode
  · rw [hpassed, ← hlines, Truncating.read, hread]
    rfl

variable (initial) in
theorem TruncInv.read (h : TruncInv start s) (hnotices : Notices s) :
    TruncInv start (s.read initial) := by
  have hpath : (s.read initial).watch.path = s.watch.path := Watch.path_read initial s.watch
  have hwritten : (s.read initial).written start = s.written start :=
    Truncating.written_read initial
  refine ⟨hpath ▸ h.single, hpath ▸ h.linked, hwritten ▸ h.whole, hwritten ▸ h.valid, ?_⟩
  have hreader := h.reader
  have hquiet (hmessage : s.watch.reader.message = none)
      (hopen : Truncating.reopens s.watch.reader = false)
      (hseen : ∀ t, s.watch.reader = .reading t ∨ s.watch.reader = .checking t → s.cut →
        s.bytes.length < t.offset) :
      Emitted start (s.read initial) (s.read initial).watch.reader := by
    have hlines : (s.watch.read initial).lines = s.watch.lines := by
      rw [Watch.read_of_message_none hmessage]
      rfl
    rw [Truncating.reader_read initial hmessage]
    exact (hreader.next h hseen hopen).of_read hopen hlines
  cases hat : s.watch.reader with
  | sending t line =>
      rw [hat] at hreader
      cases hreader with
      | sending ht hlines =>
          have hread : s.watch.read initial = { s.watch with
              reader := .reading t, emitted := s.watch.emitted ++ [⟨t.offset, line, t.file⟩] } := by
            simp [Watch.read, hat, Reader.message, Reader.sent]
          obtain ⟨hstands, hpassed⟩ := ht.of_read initial (by rw [hat]; rfl)
          have hnow : (s.read initial).watch.reader = .reading t := congrArg Watch.reader hread
          rw [hnow]
          refine .reading hstands ?_
          rw [hpassed, ← hlines, Truncating.read, hread]
          simp [Watch.lines]
  | opening why inode =>
      rw [hat] at hreader
      cases hreader with
      | opening ht hcut hinode hlines =>
          obtain ⟨-, hnow, hreopened⟩ := ht.reopen initial h hcut hat hinode hlines
          exact hnow ▸ hreopened
  | reading t =>
      rw [Notices, hat] at hnotices
      refine hquiet (by rw [hat]; rfl) (by rw [hat]; rfl) fun t' ht' => ?_
      obtain rfl : t = t' := by simpa [hat] using ht'
      exact hnotices
  | checking t =>
      rw [Notices, hat] at hnotices
      refine hquiet (by rw [hat]; rfl) (by rw [hat]; rfl) fun t' ht' => ?_
      obtain rfl : t = t' := by simpa [hat] using ht'
      exact hnotices
  | metadata why => exact hquiet (by rw [hat]; rfl) (by rw [hat]; rfl) (by simp [hat])
  | stopped => exact hquiet (by rw [hat]; rfl) (by rw [hat]; rfl) (by simp [hat])

theorem TruncInv.step {a : Truncating.Action} (h : TruncInv start s) (hkeeps : KeepsPace s a)
    (hstep : s.step initial a = some s') : TruncInv start s' := by
  cases a with
  | append more =>
      obtain ⟨path, hwrite, rfl⟩ := Option.map_eq_some_iff.mp hstep
      obtain ⟨-, hwrite⟩ := Option.ite_none_right_eq_some.mp hwrite
      cases hwrite
      exact h.append hkeeps.1 hkeeps.2
  | truncate =>
      cases hstep
      exact h.truncate hkeeps
  | read =>
      cases hstep
      exact h.read initial hkeeps

/-! ## The reader alone -/

/-- Left alone, the reader emits every line that was written. -/
def Finishes (initial : TailState) (start : ℕ) (s : Truncating) : Prop :=
  ∃ n, ((Watch.read initial)^[n] s.watch).lines = textLines (s.written start)

theorem finishes_of_read (h : Finishes initial start (s.read initial)) :
    Finishes initial start s := by
  obtain ⟨n, hn⟩ := h
  exact ⟨n + 1, Truncating.written_read initial ▸ hn⟩

/-- In a file that was not cut off, the reader comes to the end. -/
theorem finishes_fresh (h : TruncInv start s) (hcut : s.cut = false)
    (hat : s.watch.reader = .reading t) : Finishes initial start s := by
  have hreader := h.reader
  rw [hat] at hreader
  cases hreader with
  | reading ht hlines =>
      have hunread := ht.drop_bytes h hcut
      obtain ⟨t', msgs, hdrains⟩ :
          ∃ t' msgs, Drains initial s.watch.path t s.watch.emitted t' msgs :=
        exists_drains t s.watch.emitted ht.counted (hunread ▸ ht.none_not_mem_unread h)
      obtain ⟨n, hn⟩ := hdrains.run
      have hwatch : s.watch = ⟨s.watch.path, .reading t, s.watch.emitted⟩ := by rw [← hat]
      refine ⟨n, ?_⟩
      rw [hwatch, hn, textLines_written_eq ht, ← hlines, ← hunread, ← hdrains.lines]
      simp [Watch.lines]

theorem finishes_opening {inode : ℕ} (h : TruncInv start s)
    (hat : s.watch.reader = .opening (.rotation t) inode) : Finishes initial start s := by
  have hreader := h.reader
  rw [hat] at hreader
  cases hreader with
  | opening ht hcut hinode hlines =>
      obtain ⟨hfresh, hnow, -⟩ := ht.reopen initial h hcut hat hinode hlines
      have hnotices : Notices s := by
        rw [Notices, hat]
        trivial
      exact finishes_of_read (finishes_fresh (h.read initial hnotices) hfresh hnow)

theorem finishes_metadata (h : TruncInv start s)
    (hat : s.watch.reader = .metadata (.rotation t)) : Finishes initial start s := by
  have hnotices : Notices s := by
    rw [Notices, hat]
    trivial
  have hnow : (s.read initial).watch.reader =
      .opening (.rotation t) ((s.watch.path.current.map AlertsFile.inode).getD 0) := by
    rw [Truncating.reader_read initial (by rw [hat]; rfl), hat]
    rfl
  exact finishes_of_read (finishes_opening (h.read initial hnotices) hnow)

/-- A cut that has been noticed stays noticed. -/
theorem Notices.of_read (hseen : s.cut → s.bytes.length < t.offset)
    (hnow : (s.read initial).watch.reader = .reading t ∨
      (s.read initial).watch.reader = .checking t) :
    Notices (s.read initial) := by
  have hafter : (s.read initial).cut → (s.read initial).bytes.length < t.offset := by
    intro hcut
    rw [Truncating.bytes_read]
    exact hseen (Bool.and_eq_true_iff.mp hcut).1
  rcases hnow with hnow | hnow <;> rw [Notices, hnow] <;> exact hafter

theorem finishes_checking (h : TruncInv start s) (hnotices : Notices s)
    (hat : s.watch.reader = .checking t) : Finishes initial start s := by
  have hafter := h.read initial hnotices
  have hreader := h.reader
  rw [hat] at hreader
  rw [Notices, hat] at hnotices
  have hnext : (s.read initial).watch.reader = s.watch.reader.next initial s.watch.path :=
    Truncating.reader_read initial (by rw [hat]; rfl)
  rw [hat, Reader.next, s.watch.path.current_of_linked h.linked] at hnext
  dsimp only at hnext
  cases hreader with
  | checking ht hlines =>
      cases hcut : s.cut with
      | true =>
          rw [if_pos (.inr (hnotices hcut))] at hnext
          exact finishes_of_read (finishes_metadata hafter hnext)
      | false =>
          have hsame : ¬ (s.watch.path.newest.inode ≠ t.inode ∨ s.bytes.length < t.offset) := by
            rw [not_or, not_not, Nat.not_lt, ← ht.counted]
            exact ⟨ht.inode.symm, ht.size hcut⟩
          rw [if_neg hsame] at hnext
          have hfresh : (s.read initial).cut = false := by
            rw [Truncating.read, hcut]
            rfl
          exact finishes_of_read (finishes_fresh hafter hfresh hnext)

theorem finishes_reading (h : TruncInv start s) (hnotices : Notices s)
    (hat : s.watch.reader = .reading t) : Finishes initial start s := by
  cases hcut : s.cut with
  | false => exact finishes_fresh h hcut hat
  | true =>
      have hafter := h.read initial hnotices
      have hreader := h.reader
      rw [hat] at hreader
      rw [Notices, hat] at hnotices
      cases hreader with
      | reading ht hlines =>
          have hend : (s.watch.path.bytes t.file).drop t.pos = [] := by
            rw [ht.file, h.bytes_zero, ht.counted]
            exact List.drop_eq_nil_of_le (hnotices hcut).le
          have hnow : (s.read initial).watch.reader = .checking t := by
            rw [Truncating.reader_read initial (by rw [hat]; rfl), hat]
            simp [Reader.next, FileTailer.nextLine, FileTailer.chunk, hend, readUntil]
          exact finishes_of_read (finishes_checking hafter (.of_read hnotices (.inr hnow)) hnow)

theorem finishes (h : TruncInv start s) (hnotices : Notices s) : Finishes initial start s := by
  have hreader := h.reader
  cases hat : s.watch.reader with
  | reading t => exact finishes_reading h hnotices hat
  | checking t => exact finishes_checking h hnotices hat
  | sending t line =>
      have hafter := h.read initial hnotices
      have hnow : (s.read initial).watch.reader = .reading t := by
        simp [Truncating.read, Watch.read, hat, Reader.message, Reader.sent]
      rw [Notices, hat] at hnotices
      exact finishes_of_read (finishes_reading hafter (.of_read hnotices (.inl hnow)) hnow)
  | metadata why =>
      rw [hat] at hreader
      cases hreader with
      | metadata ht hcut hlines => exact finishes_metadata h hat
  | opening why inode =>
      rw [hat] at hreader
      cases hreader with
      | opening ht hcut hinode hlines => exact finishes_opening h hat
  | stopped =>
      rw [hat] at hreader
      cases hreader

/-- What was emitted comes first among the lines that were written. -/
theorem TruncInv.lines_isPrefix (h : TruncInv start s) :
    s.watch.lines <+: textLines (s.written start) := by
  have hpassed : ∀ t, Stands start s t →
      textLines ((s.passed t).drop start) <+: textLines (s.written start) := by
    intro t ht
    rw [textLines_written_eq ht]
    exact List.prefix_append _ _
  have hreader := h.reader
  generalize s.watch.reader = reader at hreader
  cases hreader with
  | sending ht hlines => exact (List.prefix_append _ _).trans (hlines ▸ hpassed _ ht)
  | reading ht hlines | checking ht hlines | metadata ht _ hlines | opening ht _ _ hlines =>
      exact hlines ▸ hpassed _ ht

end

/-- In every run in which the writer appends whole lines and cuts the file off only when all of
it was read, and no read finds a file that has grown back to the offset since it was cut: the
lines come out in the order they were written, each once, and the reader alone emits the
rest. -/
theorem truncation_lossless {initial : TailState} {start : ℕ} {file : AlertsFile} {s : Truncating}
    (hsize : start ≤ file.bytes.length) (hwhole : Terminated isNewline (file.bytes.drop start))
    (hvalid : none ∉ textLines (file.bytes.drop start))
    (run : RunWhere (Truncating.step initial) KeepsPace (.tailing file start) s) :
    s.watch.lines <+: textLines (s.written start) ∧
      (Notices s → Finishes initial start s) := by
  have h : TruncInv start s :=
    run.invariant (truncInv_tailing hsize hwhole hvalid)
      fun _ _ _ h hkeeps hstep => h.step hkeeps hstep
  exact ⟨h.lines_isPrefix, finishes h⟩

/-- Two lines, a cut that is noticed, and one line more. -/
def noticedCut : List Truncating.Action :=
  [.append (lineBytes "a"), .append (lineBytes "b"), .read, .read, .read, .read, .truncate,
   .append (lineBytes "c"), .read, .read, .read, .read, .read, .read]

theorem truncation_lossless_noticed : ∃ s,
    RunWhere (Truncating.step default) KeepsPace (.tailing ⟨1, []⟩ 0) s ∧
      s.watch.lines = [some "a", some "b", some "c"] ∧
      s.watch.lines <+: textLines (s.written 0) := by
  have hend : (exec (Truncating.step default) (.tailing ⟨1, []⟩ 0) noticedCut).map
      (fun s => s.watch.lines) = some [some "a", some "b", some "c"] := by
    decide +kernel
  obtain ⟨s, hexec, hend⟩ := Option.map_eq_some_iff.mp hend
  have run : RunWhere (Truncating.step default) KeepsPace (.tailing ⟨1, []⟩ 0) s :=
    runWhere_of_exec hexec (by decide +kernel)
  exact ⟨s, run, hend, (truncation_lossless (Nat.zero_le _) terminated_nil List.not_mem_nil run).1⟩

/-- The file grows back before the reader looks. -/
def missedCut : List Truncating.Action :=
  [.append (lineBytes "a"), .read, .read, .truncate, .append (lineBytes "b"),
   .append (lineBytes "c"), .read, .read, .read]

/-- The line behind the cut is lost: the reader goes on at its old offset. -/
theorem truncation_loses : ∃ s,
    exec (Truncating.step default) (.tailing ⟨1, []⟩ 0) missedCut = some s ∧
      s.watch.lines = [some "a", some "c"] ∧
      textLines (s.written 0) = [some "a", some "b", some "c"] := by
  have hend : (exec (Truncating.step default) (.tailing ⟨1, []⟩ 0) missedCut).map
      (fun s => (s.watch.lines, textLines (s.written 0))) =
      some ([some "a", some "c"], [some "a", some "b", some "c"]) := by
    decide +kernel
  obtain ⟨s, hexec, hend⟩ := Option.map_eq_some_iff.mp hend
  exact ⟨s, hexec, (Prod.mk.inj hend).1, (Prod.mk.inj hend).2⟩

end WazuhOcsf
