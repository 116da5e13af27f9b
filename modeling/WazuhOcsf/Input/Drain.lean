import WazuhOcsf.Input.Tailer

/-!
# The reader on a file nobody writes to

What one `read_line` takes off the front of the unread text, and, by induction on the
unread text, what the reader does on its own: it emits every complete non-blank line
that is left and passes over every byte.
-/

namespace WazuhOcsf

open Lines RustString

/-! ## One line -/

section

variable {unread : List UInt8} (hends : endsRecord isNewline (readUntil isNewline unread))
include hends

theorem textLines_chunk {text : String}
    (hdecode : decodeLine (readUntil isNewline unread) = some text) :
    textLines (readUntil isNewline unread) = if trim text = "" then [] else [some text] := by
  rw [textLines, completeLines_readUntil hends]
  by_cases hblank : trim text = "" <;> simp [hdecode, hblank]

theorem textLines_split :
    textLines unread = textLines (readUntil isNewline unread) ++
      textLines (unread.drop (readUntil isNewline unread).length) := by
  conv_lhs => rw [← readUntil_append_drop (p := isNewline) unread]
  exact textLines_append (.of_endsRecord hends) _

theorem none_mem_textLines (hdecode : decodeLine (readUntil isNewline unread) = none) :
    none ∈ textLines unread := by
  rw [textLines, completeLines_of_endsRecord hends]
  simp [hdecode]

end

theorem textLines_eq_nil {bytes : List UInt8} (h : completeLines isNewline bytes = []) :
    textLines bytes = [] := by
  simp [textLines, h]

theorem FileTailer.take_chunk (t : FileTailer) (bytes : List UInt8) :
    (bytes.drop t.pos).take (t.chunk bytes).length = t.chunk bytes :=
  (List.prefix_iff_eq_take.mp (readUntil_isPrefix (bytes.drop t.pos))).symm

theorem FileTailer.drop_advance (t : FileTailer) (bytes : List UInt8) :
    bytes.drop (t.advance (t.chunk bytes).length).pos =
      (bytes.drop t.pos).drop (t.chunk bytes).length :=
  List.drop_drop.symm

/-- A line is found inside the file only. -/
theorem FileTailer.pos_le_of_endsRecord {t : FileTailer} {bytes : List UInt8}
    (hends : endsRecord isNewline (t.chunk bytes)) : t.pos ≤ bytes.length := by
  by_contra hpast
  have hnil : bytes.drop t.pos = [] := List.drop_eq_nil_of_le (Nat.le_of_not_le hpast)
  rw [FileTailer.chunk, hnil] at hends
  exact Bool.false_ne_true hends

theorem FileTailer.advance_le {t : FileTailer} {bytes : List UInt8} (h : t.pos ≤ bytes.length) :
    t.pos + (t.chunk bytes).length ≤ bytes.length := by
  have hchunk := length_readUntil_le (p := isNewline) (bytes.drop t.pos)
  rw [List.length_drop] at hchunk
  rw [FileTailer.chunk]
  omega

/-! ## Reading on -/

namespace Watch

variable {initial : TailState} {path : AlertsPath}

theorem read_reading (t : FileTailer) (emitted : List Message) :
    read initial ⟨path, .reading t, emitted⟩ =
      ⟨path, (Reader.reading t).next initial path, emitted⟩ := rfl

theorem read_sending (t : FileTailer) (line : String) (emitted : List Message) :
    read initial ⟨path, .sending t line, emitted⟩ =
      ⟨path, .reading t, emitted ++ [⟨t.offset, line, t.file⟩]⟩ := rfl

/-- The next `read_line` consumes a byte of a generation. -/
def Covers (w : Watch) (file k : ℕ) : Prop :=
  ∃ t, w.reader = .reading t ∧ t.file = file ∧ t.pos ≤ k ∧
    k < t.pos + (t.chunk (w.path.bytes file)).length

/-- What reading on from `t` amounts to: the lines of the unread text are emitted, and
every byte of it is passed over. -/
structure Drains (initial : TailState) (path : AlertsPath) (t : FileTailer)
    (emitted : List Message) (t' : FileTailer) (msgs : List Message) : Prop where
  run : ∃ n, (read initial)^[n] ⟨path, .reading t, emitted⟩ = ⟨path, .reading t', emitted ++ msgs⟩
  file : t'.file = t.file
  inode : t'.inode = t.inode
  counted : t'.pos = t'.offset
  le : t.pos ≤ (path.bytes t.file).length → t'.pos ≤ (path.bytes t.file).length
  rest : completeLines isNewline ((path.bytes t.file).drop t'.pos) = []
  lines : msgs.map (fun m => some m.line) = textLines ((path.bytes t.file).drop t.pos)
  covers : ∀ k, t.pos ≤ k → k < (path.bytes t.file).length →
    ∃ n, ((read initial)^[n] ⟨path, .reading t, emitted⟩).Covers t.file k

/-- A step that consumes a counted chunk and emits its line, if there is one. -/
theorem Drains.step {t t' : FileTailer} {emitted msgs first : List Message}
    (hread : ∃ n, (read initial)^[n] ⟨path, .reading t, emitted⟩ =
      ⟨path, .reading (t.advance (t.chunk (path.bytes t.file)).length), emitted ++ first⟩)
    (hlines : textLines ((path.bytes t.file).drop t.pos) = first.map (fun m => some m.line) ++
      textLines (((path.bytes t.file).drop t.pos).drop (t.chunk (path.bytes t.file)).length))
    (h : Drains initial path (t.advance (t.chunk (path.bytes t.file)).length) (emitted ++ first)
      t' msgs) :
    Drains initial path t emitted t' (first ++ msgs) := by
  obtain ⟨n, hn⟩ := hread
  constructor
  case run =>
    obtain ⟨m, hm⟩ := h.run
    exact ⟨m + n, by rw [Function.iterate_add_apply, hn, hm, List.append_assoc]⟩
  case file => exact h.file
  case inode => exact h.inode
  case counted => exact h.counted
  case le => exact fun hpos => h.le (t.advance_le hpos)
  case rest => exact h.rest
  case lines =>
    rw [List.map_append, h.lines, hlines, ← t.drop_advance]
    rfl
  case covers =>
    intro k hk hsize
    by_cases hfirst : k < t.pos + (t.chunk (path.bytes t.file)).length
    · exact ⟨0, t, rfl, rfl, hk, hfirst⟩
    · obtain ⟨m, hm⟩ := h.covers k (by simpa [FileTailer.advance] using hfirst) hsize
      exact ⟨m + n, by rw [Function.iterate_add_apply, hn]; exact hm⟩

/-- From a counted position the reader, left alone, emits the complete lines of its
file and passes over all of it. -/
theorem exists_drains (t : FileTailer) (emitted : List Message) (hcounted : t.pos = t.offset)
    (hvalid : none ∉ textLines ((path.bytes t.file).drop t.pos)) :
    ∃ t' msgs, Drains initial path t emitted t' msgs := by
  by_cases hends : endsRecord isNewline (t.chunk (path.bytes t.file))
  case neg =>
    -- what is left is an unfinished line or nothing
    obtain ⟨hnone, hall⟩ := completeLines_of_not_endsRecord hends
    refine ⟨t, [], ⟨0, by simp⟩, rfl, rfl, hcounted, id, hnone, (textLines_eq_nil hnone).symm, ?_⟩
    intro k hk hsize
    refine ⟨0, t, rfl, rfl, hk, ?_⟩
    show k < t.pos + (readUntil isNewline ((path.bytes t.file).drop t.pos)).length
    rw [hall, List.length_drop]
    omega
  case pos =>
    have hshorter : (path.bytes t.file).length - (t.pos + (t.chunk (path.bytes t.file)).length) <
        (path.bytes t.file).length - t.pos := by
      have hne : t.chunk (path.bytes t.file) ≠ [] := by
        intro hnil
        simp [hnil, endsRecord] at hends
      have hlength := List.length_pos_of_ne_nil hne
      have hle := length_readUntil_le (p := isNewline) ((path.bytes t.file).drop t.pos)
      rw [List.length_drop, ← FileTailer.chunk] at hle
      omega
    have hcounted' : (t.advance (t.chunk (path.bytes t.file)).length).pos =
        (t.advance (t.chunk (path.bytes t.file)).length).offset := by
      simp [FileTailer.advance, hcounted]
    have hnext := Reader.readsTo_next initial path t
    generalize hreader : (Reader.reading t).next initial path = reader at hnext
    cases hnext with
    | eof hchunk => simp [hchunk, endsRecord] at hends
    | invalid hchunk hdecode => exact absurd (none_mem_textLines hends hdecode) hvalid
    | unfinished text hchunk hdecode hnot => exact absurd hends hnot
    | blank text hdecode hends hblank =>
        have hlines := textLines_split hends
        rw [textLines_chunk hends hdecode, if_pos hblank, List.nil_append] at hlines
        obtain ⟨t', msgs, hrest⟩ := exists_drains _ (emitted ++ []) hcounted'
          (by rw [hlines, ← FileTailer.chunk, ← t.drop_advance] at hvalid; exact hvalid)
        refine ⟨t', [] ++ msgs, .step ⟨1, ?_⟩ hlines hrest⟩
        rw [Function.iterate_one, read_reading, hreader, List.append_nil]
    | line text hdecode hends hblank =>
        have hlines := textLines_split hends
        rw [textLines_chunk hends hdecode, if_neg hblank, List.singleton_append] at hlines
        set first : Message := ⟨t.offset + (t.chunk (path.bytes t.file)).length, text, t.file⟩
        obtain ⟨t', msgs, hrest⟩ := exists_drains _ (emitted ++ [first]) hcounted'
          (by rw [hlines, ← FileTailer.chunk, ← t.drop_advance, List.mem_cons, not_or] at hvalid
              exact hvalid.2)
        refine ⟨t', [first] ++ msgs, .step ⟨2, ?_⟩ hlines hrest⟩
        rw [Function.iterate_succ_apply, Function.iterate_one, read_reading, hreader, read_sending]
        rfl
termination_by (path.bytes t.file).length - t.pos

end Watch

end WazuhOcsf
