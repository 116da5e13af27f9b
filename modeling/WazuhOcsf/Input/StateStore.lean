import WazuhOcsf.Input.State
import WazuhOcsf.Library.Files
import WazuhOcsf.Library.RustString

/-!
# The state file

`StateStore` of `input/state.rs`.  What `save` writes `load` reads back, `load_render`,
as long as both numbers are `u64`, which is all the program has.  A `save` goes through
a temporary file: one that succeeds replaces the state file, one that fails leaves it as
it was (`readToString_save`).
-/

namespace WazuhOcsf

open RustString

/-- A `TailState` is two `u64`. -/
def TailState.Fits (s : TailState) : Prop := s.inode < 2 ^ 64 ∧ s.offset < 2 ^ 64

instance (s : TailState) : Decidable s.Fits :=
  inferInstanceAs (Decidable (s.inode < 2 ^ 64 ∧ s.offset < 2 ^ 64))

namespace StateStore

/-- `parse().unwrap_or(0)`. -/
def parseNumber (v : String) : ℕ := ((parseUInt 64 (trim v)).map BitVec.toNat).getD 0

/-- One line of the file; a line that is neither entry changes nothing. -/
def readLine (s : TailState) (line : String) : TailState :=
  let s := match stripPrefix "inode=" line with
    | some v => { s with inode := parseNumber v }
    | none => s
  match stripPrefix "offset=" line with
  | some v => { s with offset := parseNumber v }
  | none => s

/-- `StateStore::load`, given what `read_to_string` returned. -/
def load : Option String → TailState
  | none => default
  | some text => (lines text).foldl readLine default

/-- The text `StateStore::save` writes. -/
def render (s : TailState) : String :=
  "inode=" ++ s.inode.repr ++ "\noffset=" ++ s.offset.repr ++ "\n"

theorem parseNumber_repr {n : ℕ} (h : n < 2 ^ 64) : parseNumber n.repr = n := by
  simp [parseNumber, trim_repr, parseUInt_repr h]

/-- An entry is one line. -/
theorem lineChars_entry {key : String} (hkey : ∀ c ∈ key.toList, c ≠ '\n' ∧ c ≠ '\r') (n : ℕ)
    (rest : List Char) : lineChars ((key ++ n.repr).toList ++ '\n' :: rest) =
      (key ++ n.repr).toList :: lineChars rest := by
  refine lineChars_append (fun c hc => ?_) rest
  rw [String.toList_append, List.mem_append] at hc
  rcases hc with hc | hc
  · exact hkey c hc
  · have hdigit := isDigit_of_mem_repr hc
    constructor <;> rintro rfl <;> simp [Char.isDigit] at hdigit

theorem lines_render (s : TailState) :
    lines (render s) = ["inode=" ++ s.inode.repr, "offset=" ++ s.offset.repr] := by
  have htext : (render s).toList = ("inode=" ++ s.inode.repr).toList ++
      '\n' :: (("offset=" ++ s.offset.repr).toList ++ '\n' :: []) := by
    simp [render, String.toList_append]
  rw [lines, htext, lineChars_entry (by simp), lineChars_entry (by simp), lineChars, List.map_cons,
    List.map_cons, List.map_nil, String.ofList_toList, String.ofList_toList]

theorem load_render {s : TailState} (h : s.Fits) : load (some (render s)) = s := by
  have hinode : stripPrefix "offset=" ("inode=" ++ s.inode.repr) = none :=
    stripPrefix_eq_none (c := 'o') (d := 'i') rfl (by simp [String.toList_append]) (by decide)
  have hoffset : stripPrefix "inode=" ("offset=" ++ s.offset.repr) = none :=
    stripPrefix_eq_none (c := 'i') (d := 'o') rfl (by simp [String.toList_append]) (by decide)
  simp [load, lines_render, readLine, stripPrefix_append, hinode, hoffset, parseNumber_repr h.1,
    parseNumber_repr h.2]

/-- The text says which state it is, `u64` or not. -/
theorem render_injective : Function.Injective render := by
  intro s s' h
  have hlines := congrArg lines h
  simp only [lines_render, List.cons.injEq, and_true] at hlines
  have hentry : ∀ (key : String) (n n' : ℕ), key ++ n.repr = key ++ n'.repr → n = n' := by
    intro key n n' hn
    apply repr_injective
    rw [← Option.some_inj, ← stripPrefix_append key, hn, stripPrefix_append]
  cases s
  cases s'
  rw [TailState.mk.injEq]
  exact ⟨hentry _ _ _ hlines.1, hentry _ _ _ hlines.2⟩

/-! ## Saving -/

/-- How `fs::write` ends.  One that fails may leave part of the text, or nothing. -/
inductive Written
  | all
  | failed (left : Option (List UInt8))
  deriving DecidableEq

/-- How the three calls of one `save` end.  A path without a parent needs no directory,
which counts as success. -/
structure Calls where
  createDirAll : Bool
  write : Written
  rename : Bool
  deriving DecidableEq

/-- No call fails. -/
def Calls.succeed : Calls := ⟨true, .all, true⟩

variable {Path : Type*} [DecidableEq Path]

/-- `StateStore::save`: the files afterwards, and whether it returned `Ok`.  The text
goes to the path with the extension `tmp`, and from there over the state file. -/
def save (withExtension : Path → String → Path) (calls : Calls) (files : Files Path)
    (path : Path) (s : TailState) : Files Path × Bool :=
  if calls.createDirAll then
    let tmp := withExtension path "tmp"
    match calls.write with
    | .failed left => (Function.update files tmp left, false)
    | .all =>
      let written := files.write tmp (Utf8.encode (render s).toList)
      if calls.rename then
        match written.rename tmp path with
        | some renamed => (renamed, true)
        | none => (written, false)
      else (written, false)
  else (files, false)

variable {withExtension : Path → String → Path} {calls : Calls} {files files' : Files Path}
  {path : Path} {s : TailState}

/-- The file just written is there to be renamed. -/
theorem isSome_rename_write (files : Files Path) (tmp path : Path) (bytes : List UInt8) :
    ((files.write tmp bytes).rename tmp path).isSome := by
  rw [Files.rename, Files.write_self, Option.map_some, Option.isSome_some]

theorem save_succeed (withExtension : Path → String → Path) (files : Files Path) (path : Path)
    (s : TailState) : (save withExtension .succeed files path s).2 = true := by
  obtain ⟨renamed, hrename⟩ := Option.isSome_iff_exists.mp <|
    isSome_rename_write files (withExtension path "tmp") path (Utf8.encode (render s).toList)
  simp only [save, Calls.succeed, if_true, hrename]

/-- What a `save` does: when it returns `Ok` the state file holds the text of the state,
else no file but the temporary one has changed. -/
theorem save_cases {ok : Bool} (h : save withExtension calls files path s = (files', ok)) :
    (ok = true ∧ files' path = some (Utf8.encode (render s).toList)) ∨
      (ok = false ∧ ∀ other, other ≠ withExtension path "tmp" → files' other = files other) := by
  unfold save at h
  dsimp only at h
  split at h
  · split at h
    · obtain ⟨rfl, rfl⟩ := Prod.mk.inj h
      exact .inr ⟨rfl, fun other hne => Function.update_of_ne hne ..⟩
    · split at h
      · split at h
        · rename_i renamed hrename
          obtain ⟨rfl, rfl⟩ := Prod.mk.inj h
          left
          rw [Files.rename_apply hrename, if_pos rfl, Files.write_self]
          exact ⟨rfl, rfl⟩
        · rename_i hrename
          rw [← Option.not_isSome_iff_eq_none] at hrename
          exact absurd (isSome_rename_write ..) hrename
      · obtain ⟨rfl, rfl⟩ := Prod.mk.inj h
        exact .inr ⟨rfl, fun other hne => files.write_of_ne hne _⟩
  · obtain ⟨rfl, rfl⟩ := Prod.mk.inj h
    exact .inr ⟨rfl, fun _ _ => rfl⟩

/-- Whichever calls of `save` fail, the state file is whole: it has the text of the state
if `save` returned `Ok`, and what it had before if not. -/
theorem readToString_save (htmp : path ≠ withExtension path "tmp") {ok : Bool}
    (h : save withExtension calls files path s = (files', ok)) :
    files'.readToString path = if ok then some (render s) else files.readToString path := by
  obtain ⟨rfl, hfile⟩ | ⟨rfl, hkept⟩ := save_cases h
  · exact Files.readToString_of_encode hfile
  · rw [Files.readToString, hkept path htmp]
    rfl

/-- What `load` gives after a `save` that returned `Ok`. -/
theorem load_of_save (hfits : s.Fits)
    (h : save withExtension calls files path s = (files', true)) :
    load (files'.readToString path) = s := by
  obtain ⟨-, hfile⟩ | ⟨hfailed, -⟩ := save_cases h
  · rw [Files.readToString_of_encode hfile, load_render hfits]
  · exact absurd hfailed (by decide)

/-- Whatever was there before, loading after saving gives the state back, and the text
belongs to one state only. -/
theorem state_file_roundtrip (withExtension : Path → String → Path) :
    (∀ (files : Files Path) (path : Path) (s : TailState), s.Fits →
      ∃ files', save withExtension .succeed files path s = (files', true) ∧
        load (files'.readToString path) = s) ∧
    ∀ s s' : TailState, s ≠ s' → render s ≠ render s' := by
  refine ⟨fun files path s hfits => ?_, fun s s' hne => render_injective.ne hne⟩
  have hsave : save withExtension .succeed files path s =
      ((save withExtension .succeed files path s).1, true) :=
    Prod.ext rfl (save_succeed withExtension files path s)
  exact ⟨_, hsave, load_of_save hfits hsave⟩

/-- A file that holds something else is replaced. -/
theorem state_file_roundtrip_pos :
    (∃ files', save (fun _ extension => "state/alerts." ++ extension) .succeed
        (fun _ => some (Utf8.encode "inode=x".toList)) "state/alerts.pos"
        ⟨12345678, 2 ^ 64 - 1⟩ = (files', true) ∧
      load (files'.readToString "state/alerts.pos") = ⟨12345678, 2 ^ 64 - 1⟩) ∧
    render ⟨1, 23⟩ ≠ render ⟨12, 3⟩ :=
  ⟨(state_file_roundtrip fun _ extension => "state/alerts." ++ extension).1 _ _ _ (by decide),
    (state_file_roundtrip fun (_ : String) extension => extension).2 _ _ (by decide)⟩

end StateStore

end WazuhOcsf
