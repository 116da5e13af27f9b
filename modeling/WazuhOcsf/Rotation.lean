import WazuhOcsf.Input.Drain
import WazuhOcsf.Library.Runs

/-!
# Rotation while running

The log writer appends whole lines, renames the file away and creates the next one,
in between any two steps of the reader.  Wherever the reader stands, the bytes written
while it runs split into those it has passed and those it has not, and what it emitted
are the lines of the first part: this is `TailInv`.  The one step that can break it
is an `open` that leaves unread lines of older generations behind, or one that goes
back to the start of a generation it already read from.  `rotation_lossless` is about
the runs without such an `open`, `rotation_loses` is a run with one.
-/

namespace WazuhOcsf

open Lines RustString Transition Watch

/-! ## What was written -/

/-- The bytes of all generations in order, after the first `start` of the first one. -/
def AlertsPath.written (path : AlertsPath) (start : ℕ) : List UInt8 :=
  (path.files.map AlertsFile.bytes).flatten.drop start

/-- The content of the files before one of them, of it, and of those after it. -/
theorem contents_split {files : List AlertsFile} {k : ℕ} (h : k < files.length) :
    ((files.take k).map AlertsFile.bytes).flatten ++ (files[k].bytes ++
      ((files.drop (k + 1)).map AlertsFile.bytes).flatten) =
      (files.map AlertsFile.bytes).flatten := by
  conv_rhs => rw [← List.take_append_drop k files, List.drop_eq_getElem_cons h]
  simp only [List.map_append, List.map_cons, List.flatten_append, List.flatten_cons]

namespace FileTailer

variable (t : FileTailer) (path : AlertsPath)

/-- The bytes up to where the tailer stands. -/
def passed : List UInt8 :=
  ((path.files.take t.file).map AlertsFile.bytes).flatten ++ (path.bytes t.file).take t.pos

/-- The bytes after it. -/
def unread : List UInt8 :=
  (path.bytes t.file).drop t.pos ++
    ((path.files.drop (t.file + 1)).map AlertsFile.bytes).flatten

/-- The unread bytes an `open` of the newest file leaves behind. -/
def abandoned : List UInt8 :=
  (path.bytes t.file).drop t.pos ++
    ((path.older.drop (t.file + 1)).map AlertsFile.bytes).flatten

variable {t path}

theorem passed_append_unread (h : t.file ≤ path.older.length) :
    t.passed path ++ t.unread path = (path.files.map AlertsFile.bytes).flatten := by
  have hlt : t.file < path.files.length := by
    rw [AlertsPath.length_files]
    omega
  have hbytes : path.bytes t.file = (path.files[t.file]).bytes := by
    rw [AlertsPath.bytes, List.getElem?_eq_getElem hlt]
    rfl
  rw [passed, unread, hbytes, List.append_assoc, ← List.append_assoc (List.take _ _),
    List.take_append_drop]
  exact contents_split hlt

theorem passed_append_abandoned (h : t.file < path.older.length) :
    t.passed path ++ t.abandoned path = (path.older.map AlertsFile.bytes).flatten := by
  have hbytes : path.bytes t.file = (path.older[t.file]).bytes := by
    rw [AlertsPath.bytes, AlertsPath.files, List.getElem?_append_left h,
      List.getElem?_eq_getElem h]
    rfl
  have htake : path.files.take t.file = path.older.take t.file :=
    List.take_append_of_le_length h.le
  rw [passed, abandoned, hbytes, htake, List.append_assoc, ← List.append_assoc (List.take _ _),
    List.take_append_drop]
  exact contents_split h

/-- The writer does not touch what was passed. -/
theorem passed_of_extends {path' : AlertsPath} (h : path.Extends path')
    (hfile : t.file ≤ path.older.length) (hpos : t.pos ≤ (path.bytes t.file).length) :
    t.passed path' = t.passed path := by
  obtain ⟨more, hmore⟩ := h.bytes_isPrefix t.file
  rw [passed, passed, h.take_files hfile, ← hmore, List.take_append_of_le_length hpos]

end FileTailer

/-! ## The writer and the reader -/

/-- A reader at the end of the only generation. -/
def tailing (file : AlertsFile) : Watch where
  path := ⟨[], file, true⟩
  reader := .reading ⟨0, file.bytes.length, file.bytes.length, file.inode⟩
  emitted := []

/-- An `open` of `check_rotation` that succeeds leaves no unread line of an older
generation behind, and does not go back over a line of the newest one. -/
def CleanOpen (path : AlertsPath) : Reader → Prop
  | .opening (.rotation old) _ => path.linked →
      if old.file = path.older.length then textLines ((path.bytes old.file).take old.pos) = []
      else textLines (old.abandoned path) = []
  | _ => True

instance (path : AlertsPath) : (reader : Reader) → Decidable (CleanOpen path reader)
  | .opening (.rotation old) _ => inferInstanceAs (Decidable (path.linked →
      if old.file = path.older.length then textLines ((path.bytes old.file).take old.pos) = []
      else textLines (old.abandoned path) = []))
  | .opening .start _ | .opening .startRotated _ => .isTrue trivial
  | .metadata _ | .reading _ | .sending _ _ | .checking _ | .stopped => .isTrue trivial

/-- The writer appends whole lines of text, and the reader opens cleanly. -/
def KeepsUp (w : Watch) : Action → Prop
  | .write (.append bytes) => Terminated isNewline bytes ∧ none ∉ textLines bytes
  | .write _ => True
  | .read => CleanOpen w.path w.reader

instance (w : Watch) : (a : Action) → Decidable (KeepsUp w a)
  | .write (.append bytes) =>
      inferInstanceAs (Decidable (Terminated isNewline bytes ∧ none ∉ textLines bytes))
  | .write .rename | .write (.create _) => .isTrue trivial
  | .read => inferInstanceAs (Decidable (CleanOpen w.path w.reader))

/-- What the writer keeps. -/
structure PathInv (start : ℕ) (path : AlertsPath) : Prop where
  reached : start ≤ (path.bytes 0).length
  first : Terminated isNewline ((path.bytes 0).drop start)
  others : ∀ k, 0 < k → Terminated isNewline (path.bytes k)
  valid : none ∉ textLines (path.written start)
  fresh : path.newest.inode ∉ path.older.map AlertsFile.inode
  real : path.older ≠ [] → path.newest.inode ≠ 0

/-- A tailer between two reads. -/
structure Tails (start : ℕ) (path : AlertsPath) (t : FileTailer) : Prop where
  file : t.file ≤ path.older.length
  counted : t.pos = t.offset
  size : t.pos ≤ (path.bytes t.file).length
  after : start ≤ (t.passed path).length
  whole : Terminated isNewline ((t.passed path).drop start)
  inode : t.inode = 0 ∨ t.inode ∈ (path.files.take (t.file + 1)).map AlertsFile.inode
  first : t.file = 0 → path.files[0]?.map AlertsFile.inode = some t.inode

/-- What the reader has emitted, by where it is. -/
inductive ReaderInv (start : ℕ) (path : AlertsPath) (lines : List (Option String)) :
    Reader → Prop
  | reading {t : FileTailer} (h : Tails start path t)
      (hlines : lines = textLines ((t.passed path).drop start)) :
      ReaderInv start path lines (.reading t)
  | checking {t : FileTailer} (h : Tails start path t)
      (hlines : lines = textLines ((t.passed path).drop start)) :
      ReaderInv start path lines (.checking t)
  | sending {t : FileTailer} {line : String} (h : Tails start path t)
      (hlines : lines ++ [some line] = textLines ((t.passed path).drop start)) :
      ReaderInv start path lines (.sending t line)
  | metadata {t : FileTailer} (h : Tails start path t) (hrotated : path.older ≠ [])
      (hlines : lines = textLines ((t.passed path).drop start)) :
      ReaderInv start path lines (.metadata (.rotation t))
  | opening {t : FileTailer} {inode : ℕ} (h : Tails start path t) (hrotated : path.older ≠ [])
      (hinode : inode = 0 ∨ inode ∈ path.files.map AlertsFile.inode)
      (hlines : lines = textLines ((t.passed path).drop start)) :
      ReaderInv start path lines (.opening (.rotation t) inode)

/-- What reader and log writer keep together: whole lines in every generation, and a reader that has
sent those before it. -/
structure TailInv (start : ℕ) (w : Watch) : Prop where
  path : PathInv start w.path
  reader : ReaderInv start w.path w.lines w.reader

theorem tailInv_tailing (file : AlertsFile) : TailInv file.bytes.length (tailing file) := by
  have hwritten : (tailing file).path.written file.bytes.length = [] := by
    simp [AlertsPath.written, AlertsPath.files, tailing]
  have hfirst : (tailing file).path.bytes 0 = file.bytes := rfl
  have hpassed : FileTailer.passed ⟨0, file.bytes.length, file.bytes.length, file.inode⟩
      (tailing file).path = file.bytes := by
    rw [FileTailer.passed, hfirst]
    simp
  constructor
  case path =>
    refine ⟨le_rfl, ?_, fun k hk => ?_, ?_, List.not_mem_nil, fun hne => absurd rfl hne⟩
    · rw [hfirst, List.drop_length]
      exact terminated_nil
    · have hnone : (tailing file).path.files[k]? = none := List.getElem?_eq_none hk
      rw [AlertsPath.bytes, hnone]
      exact terminated_nil
    · rw [hwritten]
      exact List.not_mem_nil
  case reader =>
    have htails : Tails file.bytes.length (tailing file).path
        ⟨0, file.bytes.length, file.bytes.length, file.inode⟩ := by
      refine ⟨le_rfl, rfl, le_rfl, by rw [hpassed], ?_, .inr (List.mem_singleton.mpr rfl),
        fun _ => rfl⟩
      rw [hpassed, List.drop_length]
      exact terminated_nil
    refine .reading htails ?_
    rw [hpassed, List.drop_length]
    rfl

/-! ## Steps of the writer -/

section

variable {start : ℕ} {path path' : AlertsPath}

theorem exists_files_eq_cons (path : AlertsPath) :
    ∃ file rest, path.files = file :: rest ∧ path.bytes 0 = file.bytes ∧
      ∀ other ∈ rest, ∃ k, 0 < k ∧ path.bytes k = other.bytes := by
  have hne : path.files ≠ [] := List.append_ne_nil_of_right_ne_nil _ (List.cons_ne_nil _ _)
  obtain ⟨file, rest, hfiles⟩ := List.exists_cons_of_ne_nil hne
  refine ⟨file, rest, hfiles, by simp [AlertsPath.bytes, hfiles], fun other hother => ?_⟩
  obtain ⟨k, hk, hget⟩ := List.mem_iff_getElem.mp hother
  exact ⟨k + 1, Nat.succ_pos k, by simp [AlertsPath.bytes, hfiles, hk, hget]⟩

namespace PathInv

/-- The content of the first generations. -/
theorem take_files (h : PathInv start path) {n : ℕ} (hn : 0 < n) :
    start ≤ (((path.files.take n).map AlertsFile.bytes).flatten).length ∧
      Terminated isNewline (((path.files.take n).map AlertsFile.bytes).flatten.drop start) := by
  obtain ⟨file, rest, hfiles, hfirst, hothers⟩ := exists_files_eq_cons path
  obtain ⟨m, rfl⟩ := Nat.exists_eq_succ_of_ne_zero hn.ne'
  have hreached := hfirst ▸ h.reached
  rw [hfiles, List.take_succ_cons, List.map_cons, List.flatten_cons]
  refine ⟨?_, ?_⟩
  · rw [List.length_append]
    omega
  · rw [List.drop_append_of_le_length hreached]
    refine (hfirst ▸ h.first).append (terminated_flatten fun l hl => ?_)
    obtain ⟨other, hother, rfl⟩ := List.mem_map.mp hl
    obtain ⟨k, hk, hbytes⟩ := hothers other (List.mem_of_mem_take hother)
    exact hbytes ▸ h.others k hk

theorem terminated_written (h : PathInv start path) :
    Terminated isNewline (path.written start) := by
  have hall := (h.take_files (Nat.add_one_pos path.older.length)).2
  rwa [← path.length_files, List.take_length] at hall

theorem reached_written (h : PathInv start path) :
    start ≤ ((path.files.map AlertsFile.bytes).flatten).length := by
  have hall := (h.take_files (Nat.add_one_pos path.older.length)).1
  rwa [← path.length_files, List.take_length] at hall

theorem append (h : PathInv start path) {more : List UInt8} (hmore : Terminated isNewline more)
    (hvalid : none ∉ textLines more) :
    PathInv start
      { path with newest := { path.newest with bytes := path.newest.bytes ++ more } } := by
  have hlast (k : ℕ) : Terminated isNewline (if k = path.older.length then more else []) := by
    split
    · exact hmore
    · exact terminated_nil
  constructor
  case reached =>
    rw [AlertsPath.bytes_append, List.length_append]
    exact Nat.le_add_right_of_le h.reached
  case first =>
    rw [AlertsPath.bytes_append, List.drop_append_of_le_length h.reached]
    exact h.first.append (hlast 0)
  case others =>
    intro k hk
    rw [AlertsPath.bytes_append]
    exact (h.others k hk).append (hlast k)
  case valid =>
    have hwritten : ({ path with newest := { path.newest with
        bytes := path.newest.bytes ++ more } } : AlertsPath).written start =
        path.written start ++ more := by
      have hreached := h.reached_written
      simp only [AlertsPath.files, List.map_append, List.map_cons, List.map_nil,
        List.flatten_append, List.flatten_cons, List.flatten_nil, List.append_nil] at hreached
      simp only [AlertsPath.written, AlertsPath.files, List.map_append, List.map_cons,
        List.map_nil, List.flatten_append, List.flatten_cons, List.flatten_nil, List.append_nil]
      rw [← List.append_assoc, List.drop_append_of_le_length hreached]
    rw [hwritten, textLines_append h.terminated_written, List.mem_append, not_or]
    exact ⟨h.valid, hvalid⟩
  case fresh => exact h.fresh
  case real => exact h.real

theorem create (h : PathInv start path) {inode : ℕ} (hreal : inode ≠ 0)
    (hfresh : inode ∉ path.files.map AlertsFile.inode) :
    PathInv start ⟨path.files, ⟨inode, []⟩, true⟩ := by
  constructor
  case reached => exact (path.bytes_create inode 0).symm ▸ h.reached
  case first => exact (path.bytes_create inode 0).symm ▸ h.first
  case others => exact fun k hk => (path.bytes_create inode k).symm ▸ h.others k hk
  case valid =>
    have hwritten : (⟨path.files, ⟨inode, []⟩, true⟩ : AlertsPath).written start =
        path.written start := by
      rw [AlertsPath.written, AlertsPath.files]
      simp [AlertsPath.written]
    exact hwritten ▸ h.valid
  case fresh => exact hfresh
  case real => exact fun _ => hreal

theorem write (h : PathInv start path) {w : Watch} {op : Write}
    (hkeeps : KeepsUp w (.write op)) (hwrite : path.write op = some path') :
    PathInv start path' := by
  cases op with
  | append bytes =>
      obtain ⟨-, hwrite⟩ := Option.ite_none_right_eq_some.mp hwrite
      cases hwrite
      exact h.append hkeeps.1 hkeeps.2
  | rename =>
      obtain ⟨-, hwrite⟩ := Option.ite_none_right_eq_some.mp hwrite
      cases hwrite
      exact ⟨h.reached, h.first, h.others, h.valid, h.fresh, h.real⟩
  | create inode =>
      obtain ⟨hguard, hwrite⟩ := Option.ite_none_right_eq_some.mp hwrite
      cases hwrite
      exact h.create hguard.2.1 hguard.2.2

end PathInv

theorem Tails.of_extends {t : FileTailer} (h : Tails start path t) (hext : path.Extends path') :
    Tails start path' t := by
  have hpassed := t.passed_of_extends hext h.file h.size
  have hsize := h.size.trans (hext.bytes_isPrefix t.file).length_le
  refine ⟨h.file.trans hext.length_le, h.counted, hsize, by rw [hpassed]; exact h.after,
    by rw [hpassed]; exact h.whole, ?_, fun hzero => ?_⟩
  · rw [hext.take_inodes (Nat.succ_le_succ h.file)]
    exact h.inode
  · rw [hext.inode (Nat.zero_le _)]
    exact h.first hzero

theorem ReaderInv.of_extends {lines : List (Option String)} {reader : Reader}
    (h : ReaderInv start path lines reader) (hext : path.Extends path') :
    ReaderInv start path' lines reader := by
  have hrotated' : path.older ≠ [] → path'.older ≠ [] := by
    intro hne hnil
    have hle := hext.length_le
    rw [hnil, List.length_nil, Nat.le_zero, List.length_eq_zero_iff] at hle
    exact hne hle
  cases h with
  | reading h hlines =>
      rw [← FileTailer.passed_of_extends hext h.file h.size] at hlines
      exact .reading (h.of_extends hext) hlines
  | checking h hlines =>
      rw [← FileTailer.passed_of_extends hext h.file h.size] at hlines
      exact .checking (h.of_extends hext) hlines
  | sending h hlines =>
      rw [← FileTailer.passed_of_extends hext h.file h.size] at hlines
      exact .sending (h.of_extends hext) hlines
  | metadata h hrotated hlines =>
      rw [← FileTailer.passed_of_extends hext h.file h.size] at hlines
      exact .metadata (h.of_extends hext) (hrotated' hrotated) hlines
  | opening h hrotated hinode hlines =>
      rw [← FileTailer.passed_of_extends hext h.file h.size] at hlines
      refine .opening (h.of_extends hext) (hrotated' hrotated) (hinode.imp_right fun hmem => ?_)
        hlines
      have hinodes := hext.take_inodes le_rfl
      rw [← path.length_files, List.take_length] at hinodes
      rw [← hinodes] at hmem
      exact (List.map_subset _ (List.take_subset _ _)) hmem

end

/-! ## Steps of the reader -/

section

variable {start : ℕ} {path : AlertsPath} {t : FileTailer}

/-- What is left of the tailed file. -/
theorem Tails.terminated_rest (h : Tails start path t) (hpath : PathInv start path) :
    Terminated isNewline ((path.bytes t.file).drop t.pos) := by
  obtain hzero | hpos := Nat.eq_zero_or_pos t.file
  · have hafter := h.after
    have hsize := h.size
    rw [FileTailer.passed, hzero, List.take_zero, List.map_nil, List.flatten_nil, List.nil_append,
      List.length_take] at hafter
    rw [hzero] at hsize ⊢
    obtain ⟨n, hn⟩ := Nat.exists_eq_add_of_le (hafter.trans (Nat.min_le_left _ _))
    rw [hn, ← List.drop_drop]
    exact hpath.first.drop n
  · exact (hpath.others _ hpos).drop _

theorem written_eq (h : Tails start path t) :
    path.written start = (t.passed path).drop start ++ t.unread path := by
  rw [AlertsPath.written, ← FileTailer.passed_append_unread h.file,
    List.drop_append_of_le_length h.after]

theorem textLines_written (h : Tails start path t) :
    textLines (path.written start) =
      textLines ((t.passed path).drop start) ++ textLines (t.unread path) := by
  rw [written_eq h, textLines_append h.whole]

theorem Tails.none_not_mem (h : Tails start path t) (hpath : PathInv start path) :
    none ∉ textLines ((path.bytes t.file).drop t.pos) := by
  intro hnone
  have hvalid := hpath.valid
  rw [textLines_written h, FileTailer.unread, textLines_append (h.terminated_rest hpath)] at hvalid
  exact hvalid (List.mem_append_right _ (List.mem_append_left _ hnone))

/-- Past a chunk that ends a line. -/
theorem Tails.advance (h : Tails start path t)
    (hends : endsRecord isNewline (t.chunk (path.bytes t.file))) :
    Tails start path (t.advance (t.chunk (path.bytes t.file)).length) ∧
      (t.advance (t.chunk (path.bytes t.file)).length).passed path =
        t.passed path ++ t.chunk (path.bytes t.file) := by
  have hpassed : (t.advance (t.chunk (path.bytes t.file)).length).passed path =
      t.passed path ++ t.chunk (path.bytes t.file) := by
    rw [FileTailer.passed, t.advance_file, t.advance_pos, List.take_add, t.take_chunk,
      ← List.append_assoc]
    rfl
  refine ⟨⟨h.file, ?_, t.advance_le h.size, ?_, ?_, h.inode, h.first⟩, hpassed⟩
  · simp [FileTailer.advance, h.counted]
  · rw [hpassed, List.length_append]
    exact Nat.le_add_right_of_le h.after
  · rw [hpassed, List.drop_append_of_le_length h.after]
    exact h.whole.append (.of_endsRecord hends)

/-- The reader goes back only when there is more than one generation. -/
theorem Tails.not_reopened (h : Tails start path t) (hnil : path.older = []) :
    path.newest.inode = t.inode ∧ t.offset ≤ path.newest.bytes.length := by
  have hzero : t.file = 0 := by
    have hfile := h.file
    rw [hnil] at hfile
    exact Nat.le_zero.mp hfile
  have hnewest : path.files[0]? = some path.newest := by simp [AlertsPath.files, hnil]
  have hinode := h.first hzero
  have hsize := h.size
  rw [hnewest, Option.map_some, Option.some.injEq] at hinode
  rw [hzero, AlertsPath.bytes, hnewest, h.counted] at hsize
  exact ⟨hinode, hsize⟩

/-- The newest generation from its start. -/
theorem Tails.reopen (hpath : PathInv start path) (hrotated : path.older ≠ []) {inode : ℕ}
    (hinode : inode = 0 ∨ inode ∈ path.files.map AlertsFile.inode) :
    Tails start path ⟨path.older.length, 0, 0, inode⟩ ∧
      FileTailer.passed ⟨path.older.length, 0, 0, inode⟩ path =
        (path.older.map AlertsFile.bytes).flatten := by
  have hpassed : FileTailer.passed ⟨path.older.length, 0, 0, inode⟩ path =
      (path.older.map AlertsFile.bytes).flatten := by
    simp [FileTailer.passed, AlertsPath.files]
  have hpos : 0 < path.older.length := List.length_pos_of_ne_nil hrotated
  have htake := hpath.take_files hpos
  rw [show path.files.take path.older.length = path.older from List.take_left' rfl] at htake
  refine ⟨⟨le_rfl, rfl, Nat.zero_le _, hpassed ▸ htake.1, hpassed ▸ htake.2, ?_, ?_⟩, hpassed⟩
  · rwa [← path.length_files, List.take_length]
  · exact fun hzero => absurd hzero hpos.ne'

/-- A clean open has emitted what precedes the newest generation. -/
theorem textLines_older (h : Tails start path t) (hpath : PathInv start path)
    (hrotated : path.older ≠ [])
    (hclean : if t.file = path.older.length then textLines ((path.bytes t.file).take t.pos) = []
      else textLines (t.abandoned path) = []) :
    textLines ((t.passed path).drop start) =
      textLines ((path.older.map AlertsFile.bytes).flatten.drop start) := by
  obtain ⟨hreopen, hpassed⟩ := Tails.reopen hpath hrotated (.inl rfl)
  split at hclean
  · next hsame =>
      have hold : t.passed path = (path.older.map AlertsFile.bytes).flatten ++
          (path.bytes t.file).take t.pos := by
        rw [FileTailer.passed, hsame]
        simp [AlertsPath.files]
      rw [hold, List.drop_append_of_le_length (hpassed ▸ hreopen.after),
        textLines_append (hpassed ▸ hreopen.whole), hclean, List.append_nil]
  · next hne =>
      have hlt := Nat.lt_of_le_of_ne h.file hne
      rw [← FileTailer.passed_append_abandoned hlt, List.drop_append_of_le_length h.after,
        textLines_append h.whole, hclean, List.append_nil]

theorem ReaderInv.next (initial : TailState) {lines : List (Option String)} {reader : Reader}
    (h : ReaderInv start path lines reader) (hpath : PathInv start path)
    (hclean : CleanOpen path reader) :
    ReaderInv start path lines (reader.next initial path) := by
  cases h with
  | @reading t h hlines =>
      have hwhole (hchunk : t.chunk (path.bytes t.file) ≠ []) :
          endsRecord isNewline (t.chunk (path.bytes t.file)) := by
        refine (h.terminated_rest hpath).endsRecord_readUntil fun hnil => hchunk ?_
        rw [FileTailer.chunk, hnil]
        rfl
      have hnext := Reader.readsTo_next initial path t
      generalize (Reader.reading t).next initial path = reader at hnext
      cases hnext with
      | eof hchunk => exact .checking h hlines
      | invalid hchunk hdecode =>
          exact absurd (none_mem_textLines (hwhole hchunk) hdecode) (h.none_not_mem hpath)
      | unfinished text hchunk hdecode hends => exact absurd (hwhole hchunk) hends
      | blank text hdecode hends hblank =>
          obtain ⟨hadvance, hpassed⟩ := h.advance hends
          refine .reading hadvance ?_
          rw [hpassed, List.drop_append_of_le_length h.after, textLines_append h.whole, hlines,
            FileTailer.chunk, textLines_chunk hends hdecode, if_pos hblank, List.append_nil]
      | line text hdecode hends hblank =>
          obtain ⟨hadvance, hpassed⟩ := h.advance hends
          refine .sending hadvance ?_
          rw [hpassed, List.drop_append_of_le_length h.after, textLines_append h.whole, hlines,
            FileTailer.chunk, textLines_chunk hends hdecode, if_neg hblank]
  | sending h hlines => exact .sending h hlines
  | @checking t h hlines =>
      by_cases hlinked : path.linked
      · simp only [Reader.next, path.current_of_linked hlinked]
        split_ifs with hchanged
        · refine .metadata h (fun hnil => ?_) hlines
          obtain ⟨hinode, hsize⟩ := h.not_reopened hnil
          exact hchanged.elim (· hinode) (Nat.not_lt.mpr hsize)
        · exact .reading h hlines
      · simp only [Reader.next, path.current_of_not_linked hlinked]
        exact .reading h hlines
  | @metadata t h hrotated hlines =>
      refine .opening h hrotated ?_ hlines
      by_cases hlinked : path.linked
      · rw [path.current_of_linked hlinked]
        exact .inr (List.mem_map_of_mem (List.mem_append_right _ (List.mem_singleton_self _)))
      · rw [path.current_of_not_linked hlinked]
        exact .inl rfl
  | @opening t inode h hrotated hinode hlines =>
      by_cases hlinked : path.linked
      · obtain ⟨hreopen, hpassed⟩ := Tails.reopen hpath hrotated hinode
        simp only [Reader.next, path.current_of_linked hlinked]
        refine .reading hreopen ?_
        rw [hlines, textLines_older h hpath hrotated (hclean hlinked), hpassed]
      · simp only [Reader.next, path.current_of_not_linked hlinked]
        exact .reading h hlines

end

namespace TailInv

variable {initial : TailState} {start : ℕ} {w w' : Watch}

theorem read (h : TailInv start w) (hclean : CleanOpen w.path w.reader) :
    TailInv start (w.read initial) := by
  obtain ⟨path, reader, emitted⟩ := w
  cases reader with
  | sending t line =>
      refine ⟨h.path, ?_⟩
      cases h.reader with
      | sending htails hlines =>
          refine .reading htails ?_
          refine Eq.trans ?_ hlines
          simp [Watch.lines, Watch.read, Reader.message]
  | _ => exact ⟨h.path, h.reader.next initial h.path hclean⟩

theorem step {a : Action} (h : TailInv start w) (hkeeps : KeepsUp w a)
    (hstep : Watch.step initial w a = some w') : TailInv start w' := by
  cases a with
  | read =>
      cases hstep
      exact h.read hkeeps
  | write op =>
      obtain ⟨path', hwrite, rfl⟩ := Option.map_eq_some_iff.mp hstep
      exact ⟨h.path.write hkeeps hwrite, h.reader.of_extends (AlertsPath.extends_of_write hwrite)⟩

/-- Lines come out once and in the order they were written. -/
theorem lines_isPrefix (h : TailInv start w) : w.lines <+: textLines (w.path.written start) := by
  have hpassed : ∀ t, Tails start w.path t →
      textLines ((t.passed w.path).drop start) <+: textLines (w.path.written start) := by
    intro t ht
    rw [textLines_written ht]
    exact List.prefix_append _ _
  have hreader := h.reader
  generalize w.reader = reader at hreader
  cases hreader with
  | sending ht hlines => exact (List.prefix_append _ _).trans (hlines ▸ hpassed _ ht)
  | reading ht hlines | checking ht hlines | metadata ht _ hlines | opening ht _ _ hlines =>
      exact hlines ▸ hpassed _ ht

end TailInv

/-! ## The reader alone -/

/-- Left alone, the reader emits every line, or it comes to an `open` that is not
clean. -/
def Completes (initial : TailState) (start : ℕ) (w : Watch) : Prop :=
  ∃ n, let after := (Watch.read initial)^[n] w
    after.lines = textLines (after.path.written start) ∨ ¬ CleanOpen after.path after.reader

section

variable {initial : TailState} {start : ℕ}

/-- Some steps further the invariant still holds, or an `open` was not clean. -/
theorem completes_after {w : Watch} (h : TailInv start w) (n : ℕ)
    (hafter : TailInv start ((Watch.read initial)^[n] w) →
      Completes initial start ((Watch.read initial)^[n] w)) : Completes initial start w := by
  induction n generalizing w with
  | zero => exact hafter h
  | succ n ih =>
      by_cases hclean : CleanOpen w.path w.reader
      · obtain ⟨m, hm⟩ := ih (h.read hclean) hafter
        exact ⟨m + 1, hm⟩
      · exact ⟨0, .inr hclean⟩

/-- The reader takes one step, to a state that completes. -/
theorem completes_of_read {w w' : Watch} (h : TailInv start w) (hread : Watch.read initial w = w')
    (hafter : TailInv start w' → Completes initial start w') : Completes initial start w := by
  apply completes_after h 1
  rw [Function.iterate_one, hread]
  exact hafter

variable {path : AlertsPath} {t : FileTailer} {emitted : List Message} (hlinked : path.linked)

/-- While it reads, the reader comes to the end of its file. -/
theorem TailInv.drains (h : TailInv start ⟨path, .reading t, emitted⟩) :
    ∃ t' msgs, Drains initial path t emitted t' msgs := by
  have hpath := h.path
  have hreader := h.reader
  dsimp only at hpath hreader
  cases hreader with
  | reading ht hlines => exact exists_drains t emitted ht.counted (ht.none_not_mem hpath)

theorem completes_newest (h : TailInv start ⟨path, .reading t, emitted⟩)
    (hfile : t.file = path.older.length) : Completes initial start ⟨path, .reading t, emitted⟩ := by
  obtain ⟨t', msgs, hdrains⟩ : ∃ t' msgs, Drains initial path t emitted t' msgs := h.drains
  obtain ⟨n, hn⟩ := hdrains.run
  have hreader := h.reader
  dsimp only at hreader
  cases hreader with
  | reading ht hlines =>
      have hunread : t.unread path = (path.bytes t.file).drop t.pos := by
        simp [FileTailer.unread, hfile, AlertsPath.files]
      refine ⟨n, .inl ?_⟩
      rw [hn, textLines_written ht, hunread, ← hlines, ← hdrains.lines]
      simp [Watch.lines]

include hlinked

theorem completes_opening {inode : ℕ}
    (h : TailInv start ⟨path, .opening (.rotation t) inode, emitted⟩) :
    Completes initial start ⟨path, .opening (.rotation t) inode, emitted⟩ := by
  have hopened : Watch.read initial ⟨path, .opening (.rotation t) inode, emitted⟩ =
      ⟨path, .reading ⟨path.older.length, 0, 0, inode⟩, emitted⟩ := by
    simp [Watch.read, Reader.message, Reader.next, path.current_of_linked hlinked]
  apply completes_of_read h hopened
  intro hafter
  exact completes_newest hafter rfl

theorem completes_metadata (h : TailInv start ⟨path, .metadata (.rotation t), emitted⟩) :
    Completes initial start ⟨path, .metadata (.rotation t), emitted⟩ :=
  completes_of_read h rfl fun hafter => completes_opening hlinked hafter

theorem completes_checking (h : TailInv start ⟨path, .checking t, emitted⟩)
    (hfile : t.file ≠ path.older.length) :
    Completes initial start ⟨path, .checking t, emitted⟩ := by
  have hpath := h.path
  have hreader := h.reader
  dsimp only at hpath hreader
  cases hreader with
  | checking ht hlines =>
      -- the inode of the newest generation is no older one, and not 0
      have hchanged : path.newest.inode ≠ t.inode := by
        have hlt := Nat.lt_of_le_of_ne ht.file hfile
        intro hsame
        rcases ht.inode with hzero | hmem
        · exact hpath.real (List.ne_nil_of_length_pos (by omega)) (hsame.trans hzero)
        · rw [AlertsPath.files, List.take_append_of_le_length hlt] at hmem
          exact hpath.fresh (hsame ▸ List.map_subset _ (List.take_subset _ _) hmem)
      have hnext : Watch.read initial ⟨path, .checking t, emitted⟩ =
          ⟨path, .metadata (.rotation t), emitted⟩ := by
        simp [Watch.read, Reader.message, Reader.next, path.current_of_linked hlinked, hchanged]
      apply completes_of_read h hnext
      intro hafter
      exact completes_metadata hlinked hafter

theorem completes_reading (h : TailInv start ⟨path, .reading t, emitted⟩) :
    Completes initial start ⟨path, .reading t, emitted⟩ := by
  by_cases hfile : t.file = path.older.length
  · exact completes_newest h hfile
  obtain ⟨t', msgs, hdrains⟩ : ∃ t' msgs, Drains initial path t emitted t' msgs := h.drains
  obtain ⟨n, hn⟩ := hdrains.run
  apply completes_after h n
  rw [hn]
  intro hafter
  -- at the end of its file the reader turns to the path
  have hend : (path.bytes t'.file).drop t'.pos = [] := by
    have hpath := hafter.path
    have hreader := hafter.reader
    dsimp only at hpath hreader
    cases hreader with
    | reading ht' _ =>
        by_contra hne
        exact completeLines_ne_nil (ht'.terminated_rest hpath) hne (hdrains.file ▸ hdrains.rest)
  have hnext : Watch.read initial ⟨path, .reading t', emitted ++ msgs⟩ =
      ⟨path, .checking t', emitted ++ msgs⟩ := by
    simp [Watch.read, Reader.message, Reader.next, FileTailer.nextLine, FileTailer.chunk, hend,
      readUntil]
  apply completes_of_read hafter hnext
  intro hchecking
  exact completes_checking hlinked hchecking (hdrains.file.trans_ne hfile)

end

theorem completes {initial : TailState} {start : ℕ} {w : Watch} (h : TailInv start w)
    (hlinked : w.path.linked) : Completes initial start w := by
  obtain ⟨path, reader, emitted⟩ := w
  have hreader := h.reader
  dsimp only at hreader hlinked
  cases hreader with
  | reading ht hlines => exact completes_reading hlinked h
  | @sending t line ht hlines =>
      apply completes_of_read h (read_sending t line emitted)
      intro hafter
      exact completes_reading hlinked hafter
  | @checking t ht hlines =>
      have hnext : Watch.read initial ⟨path, .checking t, emitted⟩ = ⟨path,
          if path.newest.inode ≠ t.inode ∨ path.newest.bytes.length < t.offset then
            .metadata (.rotation t) else .reading t, emitted⟩ := by
        simp only [Watch.read, Reader.message, Reader.next, path.current_of_linked hlinked]
      apply completes_of_read h hnext
      intro hafter
      split_ifs at hafter ⊢
      · exact completes_metadata hlinked hafter
      · exact completes_reading hlinked hafter
  | metadata ht hrotated hlines => exact completes_metadata hlinked h
  | opening ht hrotated hinode hlines => exact completes_opening hlinked h

/-- In every run in which the reader opens cleanly, what it emitted is a prefix of the
lines written to the generations, in order; and once there is a file at the path, the
reader alone emits the rest, unless an `open` that is not clean comes first. -/
theorem rotation_lossless {initial : TailState} {file : AlertsFile} {w : Watch}
    (run : RunWhere (Watch.step initial) KeepsUp (tailing file) w) :
    w.lines <+: textLines (w.path.written file.bytes.length) ∧
      (w.path.linked → Completes initial file.bytes.length w) := by
  have h : TailInv file.bytes.length w :=
    run.invariant (tailInv_tailing file) fun _ _ _ h hkeeps hstep => h.step hkeeps hstep
  exact ⟨h.lines_isPrefix, completes h⟩

/-- A line as the log writer appends it. -/
def lineBytes (line : String) : List UInt8 := (line ++ "\n").toUTF8.data.toList

/-- The reader has seen the end of the first generation when the file is rotated. -/
def cleanRotation : List Action :=
  [.write (.append (lineBytes "a")), .read, .read, .write .rename, .write (.create 2),
   .write (.append (lineBytes "b")), .read, .read, .read, .read]

theorem rotation_lossless_clean : ∃ w,
    RunWhere (Watch.step default) KeepsUp (tailing ⟨1, []⟩) w ∧ w.lines = [some "a"] ∧
      textLines (w.path.written 0) = [some "a", some "b"] ∧ Completes default 0 w := by
  have hend : (exec (Watch.step default) (tailing ⟨1, []⟩) cleanRotation).map
      (fun w => (w.lines, textLines (w.path.written 0), w.path.linked)) =
      some ([some "a"], [some "a", some "b"], true) := by
    decide +kernel
  obtain ⟨w, hexec, hend⟩ := Option.map_eq_some_iff.mp hend
  simp only [Prod.mk.injEq] at hend
  have run : RunWhere (Watch.step default) KeepsUp (tailing ⟨1, []⟩) w :=
    runWhere_of_exec hexec (by decide +kernel)
  exact ⟨w, run, hend.1, hend.2.1, (rotation_lossless run).2 hend.2.2⟩

/-- A line is appended after the reader saw the end of the file, and the file is
rotated before the reader looks at the path. -/
def lateAppend : List Action :=
  [.read, .write (.append (lineBytes "a")), .write .rename, .write (.create 2),
   .write (.append (lineBytes "b")), .read, .read, .read, .read, .read]

/-- The late line is lost: the first line of the next generation comes out without it. -/
theorem rotation_loses : ∃ w,
    exec (Watch.step default) (tailing ⟨1, []⟩) lateAppend = some w ∧ w.lines = [some "b"] ∧
      textLines (w.path.written 0) = [some "a", some "b"] ∧
      ¬ w.lines <+: textLines (w.path.written 0) := by
  have hend : (exec (Watch.step default) (tailing ⟨1, []⟩) lateAppend).map
      (fun w => (w.lines, textLines (w.path.written 0))) =
      some ([some "b"], [some "a", some "b"]) := by
    decide +kernel
  obtain ⟨w, hexec, hend⟩ := Option.map_eq_some_iff.mp hend
  simp only [Prod.mk.injEq] at hend
  obtain ⟨hlines, hwritten⟩ := hend
  refine ⟨w, hexec, hlines, hwritten, ?_⟩
  rw [hlines, hwritten]
  decide

end WazuhOcsf
