import WazuhOcsf.Resumption

/-!
# Resuming after a rotation while stopped

The saved inode is not the one of the file at the path.  `main` then hands the saved
offset on, together with the inode it just looked up, so `reader_task` sees no
mismatch and starts in the middle of the new file; only a file that is still shorter
than the offset when `check_rotation` looks at it first is read from its start, as if it
had been truncated.  The log writer may append at any time, before the reader's first
step as well as later, so this depends on the run: `resume_iff` says in which runs the
whole file is read.
-/

namespace WazuhOcsf

open Lines RustString Transition Utf8 Watch

namespace Resumption

variable {initial : TailState} {path : AlertsPath} (r : Resumption initial path)

/-! ## A start in the middle -/

/-- The reader tails the new file from the handed offset on.  Until it has read something it
may stand past the end. -/
structure Skips (n : ℕ) (t : FileTailer) : Prop where
  file : t.file = path.older.length
  inode : t.inode = path.newest.inode
  start : initial.offset ≤ t.offset
  counted : t.offset ≤ t.pos
  size : t.offset ≤ (r.content n).length ∨ t.offset = initial.offset
  reader : (r.state n).reader = .reading t ∨ (∃ line, (r.state n).reader = .sending t line) ∨
    (r.state n).reader = .checking t

/-- A call of `next_line` gets further, or back to the counted offset. -/
theorem Skips.succ_of_reading {n : ℕ} {t : FileTailer} (h : r.Skips n t)
    (hread : r.action n = .read) (hreader : (r.state n).reader = .reading t) :
    ∃ t', r.Skips (n + 1) t' := by
  have hbytes : (path.holding (r.content n)).bytes t.file = r.content n := by
    rw [h.file]
    exact (path.holding (r.content n)).bytes_newest
  have hinside (hchunk : t.chunk (r.content n) ≠ []) :
      t.pos + (t.chunk (r.content n)).length ≤ (r.content n).length := by
    refine t.advance_le ?_
    by_contra hpast
    rw [FileTailer.chunk, List.drop_eq_nil_of_le (Nat.le_of_not_le hpast)] at hchunk
    exact hchunk rfl
  have hcounted := h.counted
  obtain ⟨reader, hsteps, hnext⟩ : ∃ reader,
      Reader.ReadsTo (path.holding (r.content n)) t reader ∧
        r.state (n + 1) = ⟨path.holding (r.content n), reader, (r.state n).emitted⟩ := by
    refine ⟨_, Reader.readsTo_next initial _ t, ?_⟩
    rcases r.step_cases n with ⟨-, hstate⟩ | ⟨hother, -⟩
    · rw [hstate, Watch.read, hreader, ← r.path_eq n]
      rfl
    · exact absurd hread hother
  have hcontent := r.content_of_state hnext
  have hreader' := congrArg Watch.reader hnext
  cases hsteps with
  | eof hchunk =>
      exact ⟨t, h.file, h.inode, h.start, hcounted, hcontent ▸ h.size, .inr (.inr hreader')⟩
  | invalid hchunk hdecode =>
      rw [hbytes] at hchunk hreader'
      have hle := hinside hchunk
      refine ⟨{ t with pos := t.pos + (t.chunk (r.content n)).length }, h.file, h.inode, h.start,
        Nat.le_add_right_of_le hcounted, .inl ?_, .inl hreader'⟩
      rw [hcontent]
      exact hcounted.trans (by omega)
  | unfinished text hchunk hdecode hends =>
      rw [hbytes] at hchunk
      have hle := hinside hchunk
      refine ⟨{ t with pos := t.offset }, h.file, h.inode, h.start, le_rfl, .inl ?_,
        .inr (.inr hreader')⟩
      rw [hcontent]
      exact hcounted.trans (by omega)
  | blank text hdecode hends hblank | line text hdecode hends hblank =>
      rw [hbytes] at hends hreader'
      have hpositive := length_chunk_pos hends
      have hle := hinside (List.ne_nil_of_length_pos hpositive)
      refine ⟨t.advance (t.chunk (r.content n)).length, h.file, h.inode,
        Nat.le_add_right_of_le h.start, Nat.add_le_add_right hcounted _, .inl ?_, ?_⟩
      · rw [hcontent, FileTailer.advance_offset]
        omega
      · first | exact .inl hreader' | exact .inr (.inl ⟨_, hreader'⟩)

section

variable (hlinked : path.linked) (hnot : ¬ r.FoundShort initial.offset)
include hlinked hnot

/-- A file that is not found short is tailed from there on. -/
theorem Skips.succ {n : ℕ} {t : FileTailer} (h : r.Skips n t) : ∃ t', r.Skips (n + 1) t' := by
  have hgrown := (r.content_isPrefix (Nat.le_succ n)).length_le
  have hsize : t.offset ≤ (r.content (n + 1)).length ∨ t.offset = initial.offset :=
    h.size.imp_left fun hle => hle.trans hgrown
  rcases r.step_cases n with ⟨hread, hstate⟩ | ⟨-, more, hstate⟩
  · rcases h.reader with hreader | ⟨line, hreader⟩ | hreader
    · exact h.succ_of_reading r hread hreader
    · simp only [Watch.read, hreader, Reader.message, Reader.sent] at hstate
      exact ⟨t, h.file, h.inode, h.start, h.counted, hsize, .inl (congrArg Watch.reader hstate)⟩
    · have hlong : t.offset ≤ (r.content n).length := by
        refine h.size.elim id fun hhanded => ?_
        rw [hhanded]
        by_contra hshort
        exact hnot (r.foundShort_of_checks ⟨hread, t, hreader⟩ (Nat.lt_of_not_le hshort))
      have hsame : ¬ ((path.holding (r.content n)).newest.inode ≠ t.inode ∨
          (path.holding (r.content n)).newest.bytes.length < t.offset) := by
        rintro (hne | hlt)
        · exact hne h.inode.symm
        · exact absurd hlong (Nat.not_le.mpr hlt)
      rw [Watch.read, r.path_eq n] at hstate
      simp only [hreader, Reader.message, Reader.next, AlertsPath.current,
        AlertsPath.holding_linked, hlinked, if_true, if_neg hsame] at hstate
      exact ⟨t, h.file, h.inode, h.start, h.counted, hsize, .inl (congrArg Watch.reader hstate)⟩
  · refine ⟨t, h.file, h.inode, h.start, h.counted, hsize, ?_⟩
    rw [hstate]
    exact h.reader

/-- What lies before the handed offset is never read. -/
theorem not_readsAll (hinode : initial.inode = path.newest.inode) (hoffset : 0 < initial.offset) :
    ¬ r.ReadsAll := by
  intro h
  obtain ⟨n, hstate, hopens⟩ := r.exists_handed hlinked hinode
  have hskips (m : ℕ) (hle : n ≤ m) : ∃ t, r.Skips m t := by
    induction m, hle using Nat.le_induction with
    | base =>
        exact ⟨handed initial path, rfl, rfl, le_rfl, le_rfl, .inr rfl,
          .inl (congrArg Watch.reader hstate)⟩
    | succ m _ ih =>
        obtain ⟨t, ht⟩ := ih
        exact ht.succ r hlinked hnot
  -- an empty file would be found short
  obtain ⟨late, hlate⟩ : ∃ late, 0 < (r.content late).length := by
    by_contra hempty
    simp only [not_exists, Nat.not_lt, Nat.le_zero] at hempty
    obtain ⟨m, -, -, hcheck⟩ := r.exists_check hstate
    obtain ⟨k, -, hchecks, -⟩ := hcheck (by rw [hempty]; exact Nat.zero_le _)
    exact hnot (r.foundShort_of_checks hchecks (by rwa [hempty]))
  obtain ⟨m, t, hreader, -, hpos, -⟩ := h.everyByte late 0 hlate
  rcases Nat.lt_or_ge m n with hlt | hge
  · have hopening := hopens m hlt
    rw [hreader] at hopening
    exact hopening
  · obtain ⟨t', ht'⟩ := hskips m hge
    have hsame := ht'.reader
    simp only [hreader, Reader.reading.injEq, reduceCtorEq, exists_false, or_false] at hsame
    have hstart := ht'.start.trans ht'.counted
    rw [← hsame] at hstart
    omega

end

end Resumption

/-! ## Which runs read the whole file -/

/-- `main` hands on the saved offset with the inode it finds. -/
theorem startState_of_rotated {saved : TailState} {path : AlertsPath} (seekToEndOnFirstRun : Bool)
    (hsaved : saved.inode ≠ 0) (hlinked : path.linked)
    (hrotated : path.newest.inode ≠ saved.inode) :
    startState seekToEndOnFirstRun saved path = ⟨path.newest.inode, saved.offset⟩ := by
  have hcurrent : path.current = some path.newest := if_pos hlinked
  simp [startState, hcurrent, hsaved, hrotated.symm]

/-- For a saved inode that is not the one at the path, a run whose reads are of text reads the
whole new file exactly when the saved offset is 0 or the first look of `check_rotation` finds
the file shorter than it.  Whatever the reads are of, a run that reads the whole file is one
of these, and all complete lines of the file are text. -/
theorem resume_iff {saved : TailState} {path : AlertsPath} (seekToEndOnFirstRun : Bool)
    (hsaved : saved.inode ≠ 0) (hlinked : path.linked)
    (hrotated : path.newest.inode ≠ saved.inode)
    (r : Resumption (startState seekToEndOnFirstRun saved path) path) :
    (r.ReadsText → (r.ReadsAll ↔ saved.offset = 0 ∨ r.FoundShort saved.offset)) ∧
      (r.ReadsAll → (saved.offset = 0 ∨ r.FoundShort saved.offset) ∧
        ∀ n, none ∉ textLines (r.content n)) := by
  have hstate := startState_of_rotated seekToEndOnFirstRun hsaved hlinked hrotated
  have hinode := congrArg TailState.inode hstate
  have hoffset := congrArg TailState.offset hstate
  have hneeded (h : r.ReadsAll) : saved.offset = 0 ∨ r.FoundShort saved.offset := by
    by_contra hneither
    rw [not_or] at hneither
    exact r.not_readsAll hlinked (hoffset ▸ hneither.2) hinode
      (hoffset ▸ Nat.pos_of_ne_zero hneither.1) h
  refine ⟨fun htext => ⟨hneeded, fun h => ?_⟩, fun h => ⟨hneeded h, fun n hnone => ?_⟩⟩
  · obtain ⟨start, hstart⟩ := r.exists_atStart hlinked hinode (hoffset ▸ h)
    exact hstart.readsAll r hlinked htext
  · obtain ⟨m, hlines⟩ := h.everyLine n
    have hemitted := hlines.subset hnone
    simp [Watch.lines] at hemitted

/-- A run is given by what is appended between the reader's steps. -/
def Resumption.through {initial : TailState} {path : AlertsPath} (hlinked : path.linked)
    (appended : ℕ → Option (List UInt8)) (hgoesOn : ∀ n, ∃ m, n ≤ m ∧ appended m = none) :
    Resumption initial path where
  toInfiniteRun :=
    .ofActions (fun n => (appended n).elim .read fun bytes => .write (.append bytes))
      (fun w => w.path.linked) hlinked fun w n hw => by
        cases appended n with
        | none => exact ⟨_, rfl, (congrArg AlertsPath.linked (Resumption.read_path w)).trans hw⟩
        | some bytes =>
            refine ⟨{ w with path := w.path.holding (w.path.newest.bytes ++ bytes) }, ?_, hw⟩
            simp only [Option.elim_some, Watch.step, AlertsPath.write]
            rw [if_pos hw]
            rfl
  appends n op hop := by
    simp only [InfiniteRun.ofActions] at hop
    cases hbytes : appended n with
    | none => simp [hbytes] at hop
    | some bytes =>
        rw [hbytes] at hop
        cases hop
        exact ⟨bytes, rfl⟩
  goesOn n := by
    obtain ⟨m, hle, hnone⟩ := hgoesOn n
    refine ⟨m, hle, ?_⟩
    simp [InfiniteRun.ofActions, hnone]

/-- A new file with two lines. -/
def rotatedPath : AlertsPath where
  older := []
  newest := ⟨2, "one\ntwo\n".toUTF8.data.toList⟩
  linked := true

/-- A third line, which comes when the reader has found the file short. -/
def lateLine (n : ℕ) : Option (List UInt8) :=
  if n = 4 then some "three\n".toUTF8.data.toList else none

/-- The saved offset lies past the end of the two lines. -/
def lateRun : Resumption (startState false ⟨1, 9⟩ rotatedPath) rotatedPath :=
  .through rfl lateLine fun n => ⟨n + 5, by omega, if_neg (by omega)⟩

/-- At the end of the file the reader goes to and fro between two states. -/
theorem exists_lateRun_state (n : ℕ) : ∃ i < 15, lateRun.state n = lateRun.state i := by
  have hperiod (k : ℕ) : lateRun.state (15 + k) = lateRun.state (13 + k) := by
    refine lateRun.state_add (by decide +kernel) (fun k => ?_) k
    simp only [lateRun, Resumption.through, InfiniteRun.ofActions, lateLine]
    rw [if_neg (by omega), if_neg (by omega)]
  induction n using Nat.strong_induction_on with
  | _ n ih =>
      rcases Nat.lt_or_ge n 15 with hlt | hge
      · exact ⟨n, hlt, rfl⟩
      · obtain ⟨k, rfl⟩ := Nat.exists_eq_add_of_le hge
        obtain ⟨i, hi, hsame⟩ := ih (13 + k) (by omega)
        exact ⟨i, hi, (hperiod k).trans hsame⟩

/-- The tailer of a reader that is about to read. -/
def Reader.aboutToRead : Reader → Option FileTailer
  | reading t => some t
  | _ => none

/-- `check_rotation` is about to look at the path. -/
def Reader.aboutToCheck : Reader → Bool
  | checking _ => true
  | _ => false

theorem lateRun_readsText : lateRun.ReadsText := by
  intro n t _ hreader
  obtain ⟨i, hi, hsame⟩ := exists_lateRun_state n
  rw [hsame] at hreader ⊢
  have hall : ∀ i < 15, ∀ t ∈ (lateRun.state i).reader.aboutToRead,
      Valid (t.chunk ((lateRun.state i).path.bytes t.file)) := by
    decide +kernel
  exact .inl (hall i hi t (by rw [hreader]; rfl))

/-- The offset 9 lies past the end of the two lines, and the third comes late enough. -/
theorem resume_past_end : lateRun.ReadsAll := by
  refine ((resume_iff false (by decide) rfl (by decide) lateRun).1 lateRun_readsText).mpr
    (.inr ⟨3, ⟨rfl, ⟨0, 9, 9, 2⟩, by decide +kernel⟩, ?_, by decide +kernel⟩)
  rintro i hi ⟨-, t, hreader⟩
  have hnone : ∀ i < 3, (lateRun.state i).reader.aboutToCheck = false := by decide +kernel
  exact Bool.false_ne_true ((hnone i hi).symm.trans (congrArg Reader.aboutToCheck hreader))

/-- Nothing is appended at all. -/
def quietRun : Resumption (startState false ⟨1, 4⟩ rotatedPath) rotatedPath :=
  .through rfl (fun _ => none) fun n => ⟨n, le_rfl, rfl⟩

theorem content_quietRun (n : ℕ) : quietRun.content n = rotatedPath.newest.bytes := by
  induction n with
  | zero => rfl
  | succ n ih =>
      rcases quietRun.step_cases n with ⟨-, hstate⟩ | ⟨hother, -⟩
      · rw [Resumption.content, hstate, Resumption.read_path]
        exact ih
      · exact absurd rfl hother

/-- With offset 4 saved, the first line of the new file is skipped. -/
theorem resume_skips :
    ¬ ∀ (seekToEndOnFirstRun : Bool) (saved : TailState) (path : AlertsPath)
      (r : Resumption (startState seekToEndOnFirstRun saved path) path), saved.inode ≠ 0 →
      path.linked → path.newest.inode ≠ saved.inode → (∀ n, Valid (r.content n)) →
      r.ReadsAll := by
  intro h
  have hvalid (n : ℕ) : Valid (quietRun.content n) := by
    rw [content_quietRun]
    decide +kernel
  have hreadsAll := h false ⟨1, 4⟩ rotatedPath quietRun (by decide) rfl (by decide) hvalid
  refine quietRun.not_readsAll rfl ?_ rfl (by decide) hreadsAll
  rintro ⟨n, -, -, hshort⟩
  rw [content_quietRun] at hshort
  exact absurd hshort (by decide)

/-- With offset 9 saved the two lines are skipped as well, if the third is there when the
reader looks. -/
example (r : Resumption (startState false ⟨1, 9⟩ rotatedPath) rotatedPath)
    (hgrown : ∀ n, r.Checks n → 9 ≤ (r.content n).length) : ¬ r.ReadsAll := by
  refine r.not_readsAll rfl ?_ rfl (by decide)
  rintro ⟨n, hchecks, -, hshort⟩
  exact absurd hshort (Nat.not_lt.mpr (hgrown n hchecks))

end WazuhOcsf
