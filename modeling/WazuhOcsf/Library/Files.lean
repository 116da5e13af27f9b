import Mathlib.Logic.Function.Basic
import WazuhOcsf.Library.Utf8

/-!
# Files

The contents of the files of a file system, and the calls that change them when they
succeed.  `rename` is the atomic replacement a program relies on to swap a file: the
target holds what the source held, and no other file changes (`rename_apply`).
-/

/-- The bytes of every file there is. -/
abbrev Files (Path : Type*) := Path → Option (List UInt8)

namespace Files

variable {Path : Type*}

/-- The text of a file, if it exists and is UTF-8. -/
def readToString (files : Files Path) (path : Path) : Option String :=
  (files path).bind fun bytes => String.fromUTF8? ⟨bytes.toArray⟩

theorem readToString_of_encode {files : Files Path} {path : Path} {text : String}
    (h : files path = some (Utf8.encode text.toList)) : files.readToString path = some text := by
  rw [readToString, h, Option.bind_some, Utf8.fromUTF8_encode, String.ofList_toList]

variable [DecidableEq Path]

/-- The whole contents of a file are replaced; the file is created if need be. -/
def write (files : Files Path) (path : Path) (bytes : List UInt8) : Files Path :=
  Function.update files path (some bytes)

/-- A file moves over whatever the target was, unless there is no such file. -/
def rename (files : Files Path) (source target : Path) : Option (Files Path) :=
  (files source).map fun bytes =>
    Function.update (Function.update files source none) target (some bytes)

@[simp] theorem write_self (files : Files Path) (path : Path) (bytes : List UInt8) :
    files.write path bytes path = some bytes :=
  Function.update_self ..

theorem write_of_ne (files : Files Path) {path other : Path} (hne : other ≠ path)
    (bytes : List UInt8) : files.write path bytes other = files other :=
  Function.update_of_ne hne ..

/-- After a rename the source is gone, unless it is the target itself. -/
theorem rename_apply {files files' : Files Path} {source target : Path}
    (h : files.rename source target = some files') (path : Path) :
    files' path = if path = target then files source else if path = source then none
      else files path := by
  obtain ⟨bytes, hbytes, rfl⟩ := Option.map_eq_some_iff.mp h
  simp only [Function.update_apply, hbytes]

end Files
