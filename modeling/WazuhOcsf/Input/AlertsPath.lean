import Mathlib.Data.List.Basic
import Mathlib.Data.List.Infix

/-!
# The alerts file

The alerts file as its writer sees it: one generation after the other, the newest at
the path.  `Extends` is what a step of the writer, and so any number of them, leaves
unchanged.
-/

namespace WazuhOcsf

/-- A file the log writer created; renaming it changes neither inode nor content. -/
structure AlertsFile where
  inode : ℕ
  bytes : List UInt8
  deriving DecidableEq

/-- The generations of the alerts file, the newest at the path unless it was renamed
away and its successor is not there yet. -/
structure AlertsPath where
  older : List AlertsFile
  newest : AlertsFile
  linked : Bool
  deriving DecidableEq

/-- What the log writer does. -/
inductive Write
  | append (bytes : List UInt8)
  | rename
  /-- An empty file appears at the path, under an inode no other file has. -/
  | create (inode : ℕ)

namespace AlertsPath

/-- All generations, oldest first. -/
def files (path : AlertsPath) : List AlertsFile := path.older ++ [path.newest]

/-- The content of a generation. -/
def bytes (path : AlertsPath) (file : ℕ) : List UInt8 :=
  (path.files[file]?.map AlertsFile.bytes).getD []

/-- The file an `open` or a `metadata` call finds. -/
def current (path : AlertsPath) : Option AlertsFile :=
  if path.linked then some path.newest else none

/-- One step of the log writer; it can only append to or rename a file that is at the path. -/
def write (path : AlertsPath) : Write → Option AlertsPath
  | .append bytes =>
      if path.linked then
        some { path with
          newest := { path.newest with bytes := path.newest.bytes ++ bytes } }
      else none
  | .rename => if path.linked then some { path with linked := false } else none
  | .create inode =>
      if path.linked = false ∧ inode ≠ 0 ∧ inode ∉ path.files.map AlertsFile.inode then
        some ⟨path.files, ⟨inode, []⟩, true⟩
      else none

end AlertsPath

namespace AlertsPath

variable {path path' : AlertsPath}

theorem current_of_linked (path : AlertsPath) (h : path.linked) :
    path.current = some path.newest := if_pos h

theorem current_of_not_linked (path : AlertsPath) (h : ¬ path.linked) : path.current = none :=
  if_neg h

@[simp] theorem bytes_newest (path : AlertsPath) :
    path.bytes path.older.length = path.newest.bytes := by
  simp [bytes, files]

@[simp] theorem length_files (path : AlertsPath) : path.files.length = path.older.length + 1 := by
  simp [files]

@[simp] theorem getElem?_files_newest (path : AlertsPath) :
    path.files[path.older.length]? = some path.newest := by
  simp [files]

theorem bytes_eq_nil {k : ℕ} (hk : path.older.length < k) : path.bytes k = [] := by
  have hnone : path.files[k]? = none := List.getElem?_eq_none (path.length_files ▸ hk)
  rw [bytes, hnone]
  rfl

/-- Renamed files are left alone, and the newest one only grows. -/
structure Extends (path path' : AlertsPath) : Prop where
  frozen : ∀ k < path.older.length, path'.files[k]? = path.files[k]?
  newest : ∃ more, path'.files[path.older.length]? =
    some ⟨path.newest.inode, path.newest.bytes ++ more⟩

theorem extends_of_write {op : Write} (h : path.write op = some path') : Extends path path' := by
  cases op with
  | append bytes =>
      obtain ⟨-, h⟩ := Option.ite_none_right_eq_some.mp h
      cases h
      refine ⟨fun k hk => ?_, bytes, getElem?_files_newest _⟩
      simp [files, List.getElem?_append_left hk]
  | rename =>
      obtain ⟨-, h⟩ := Option.ite_none_right_eq_some.mp h
      cases h
      exact ⟨fun _ _ => rfl, [], by rw [List.append_nil]; exact getElem?_files_newest path⟩
  | create inode =>
      obtain ⟨-, h⟩ := Option.ite_none_right_eq_some.mp h
      cases h
      have hold : ∀ k < path.files.length,
          (⟨path.files, ⟨inode, []⟩, true⟩ : AlertsPath).files[k]? = path.files[k]? :=
        fun k hk => List.getElem?_append_left hk
      refine ⟨fun k hk => hold k (by rw [length_files]; omega), [], ?_⟩
      rw [hold _ (by rw [length_files]; omega), getElem?_files_newest, List.append_nil]

namespace Extends

theorem inode (h : Extends path path') {k : ℕ} (hk : k ≤ path.older.length) :
    path'.files[k]?.map AlertsFile.inode = path.files[k]?.map AlertsFile.inode := by
  obtain hlt | rfl := Nat.lt_or_eq_of_le hk
  · rw [h.frozen k hlt]
  · obtain ⟨more, hmore⟩ := h.newest
    rw [hmore, getElem?_files_newest]
    rfl

theorem bytes_frozen (h : Extends path path') {k : ℕ} (hk : k < path.older.length) :
    path'.bytes k = path.bytes k := by
  rw [bytes, bytes, h.frozen k hk]

theorem bytes_newest (h : Extends path path') :
    path.newest.bytes <+: path'.bytes path.older.length := by
  obtain ⟨more, hmore⟩ := h.newest
  rw [bytes, hmore]
  exact List.prefix_append _ _

theorem bytes_isPrefix (h : Extends path path') (k : ℕ) : path.bytes k <+: path'.bytes k := by
  obtain hlt | rfl | hgt := Nat.lt_trichotomy k path.older.length
  · rw [h.bytes_frozen hlt]
  · rw [AlertsPath.bytes_newest]
    exact h.bytes_newest
  · rw [bytes_eq_nil hgt]
    exact List.nil_prefix

theorem length_le (h : Extends path path') : path.older.length ≤ path'.older.length := by
  obtain ⟨more, hmore⟩ := h.newest
  have hlt := (List.getElem?_eq_some_iff.mp hmore).1
  rw [length_files] at hlt
  omega

/-- The generations before a tailed one are the same. -/
theorem take_files (h : Extends path path') {n : ℕ} (hn : n ≤ path.older.length) :
    path'.files.take n = path.files.take n := by
  refine List.ext_getElem? fun k => ?_
  rw [List.getElem?_take, List.getElem?_take]
  split
  · next hk => exact h.frozen k (by omega)
  · rfl

theorem take_inodes (h : Extends path path') {n : ℕ} (hn : n ≤ path.older.length + 1) :
    (path'.files.take n).map AlertsFile.inode = (path.files.take n).map AlertsFile.inode := by
  refine List.ext_getElem? fun k => ?_
  rw [List.getElem?_map, List.getElem?_map, List.getElem?_take, List.getElem?_take]
  split
  · next hk => exact h.inode (by omega)
  · rfl

end Extends

/-! ## The content after a step -/

theorem bytes_append (path : AlertsPath) (more : List UInt8) (k : ℕ) :
    ({ path with newest := { path.newest with bytes := path.newest.bytes ++ more } } :
      AlertsPath).bytes k = path.bytes k ++ if k = path.older.length then more else [] := by
  obtain hlt | rfl | hgt := Nat.lt_trichotomy k path.older.length
  · simp [bytes, files, List.getElem?_append_left hlt, hlt.ne]
  · simp [bytes, files]
  · rw [if_neg hgt.ne', bytes_eq_nil hgt, List.append_nil]
    exact bytes_eq_nil hgt

theorem bytes_create (path : AlertsPath) (inode k : ℕ) :
    (⟨path.files, ⟨inode, []⟩, true⟩ : AlertsPath).bytes k = path.bytes k := by
  obtain hlt | rfl | hgt := Nat.lt_trichotomy k path.files.length
  · rw [bytes, files, List.getElem?_append_left hlt, ← bytes]
  · simp [bytes, files]
  · have hbefore : path.older.length < k := by
      rw [length_files] at hgt
      omega
    rw [bytes_eq_nil hbefore]
    exact @bytes_eq_nil ⟨path.files, ⟨inode, []⟩, true⟩ k hgt

end AlertsPath

end WazuhOcsf
