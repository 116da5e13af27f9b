import Mathlib.Data.Int.Notation
import WazuhOcsf.Config
import WazuhOcsf.Library.Runs

/-!
# The watcher of the mapping file

The load of `field_mappings.toml` at start-up and then `config_watcher_task`, with
whoever edits the file beside them.  The parser of TOML is a parameter; every read may
fail, and one during which the file changes returns anything.
-/

namespace WazuhOcsf

/-- `field_mappings.toml` on disk. -/
structure MappingsFile where
  modified : ℤ
  bytes : List UInt8

/-- Where main is, and once it has spawned the watcher, where the watcher is.  Edits are
counted, and a count stands for the moment it was taken. -/
inductive WatcherStage
  /-- Before the first load. -/
  | starting
  | loading (opened : ℕ)
  /-- Before the watcher's first look at the file. -/
  | spawned
  | waiting (last : Option ℤ)
  /-- A poll that began at `since` has seen another time. -/
  | changed (last : Option ℤ) (since : ℕ)
  | reloading (last : Option ℤ) (since opened : ℕ)

/-- The mapping file and the task that watches it. -/
structure ConfigWatcher where
  file : Option MappingsFile
  edits : ℕ
  mappings : CustomMappings
  stage : WatcherStage
  /-- When the last completed poll began. -/
  polled : Option ℕ

namespace ConfigWatcher

/-- What the task and whoever edits the file do. -/
inductive Action
  | edit (file : Option MappingsFile)
  /-- A load begins. -/
  | openFile
  /-- A load ends. -/
  | read (bytes : Option (List UInt8))
  /-- `file_mtime` is called. -/
  | sample (ok : Bool)

/-- Before the first load. -/
def initial (file : Option MappingsFile) : ConfigWatcher where
  file := file
  edits := 0
  mappings := default
  stage := .starting
  polled := none

/-- The modification time of the file, if there is one. -/
def modified (s : ConfigWatcher) : Option ℤ := s.file.map MappingsFile.modified

/-- The bytes of the file, if there is one. -/
def content (s : ConfigWatcher) : Option (List UInt8) := s.file.map MappingsFile.bytes

/-- `file_mtime`, which is `None` when the call fails. -/
def fileMtime (s : ConfigWatcher) (ok : Bool) : Option ℤ := if ok then s.modified else none

/-- What a load that began at `opened` may read. -/
def CanRead (s : ConfigWatcher) (opened : ℕ) (bytes : Option (List UInt8)) : Prop :=
  bytes = none ∨ bytes = s.content ∨ opened ≠ s.edits

instance (s : ConfigWatcher) (opened : ℕ) (bytes : Option (List UInt8)) :
    Decidable (s.CanRead opened bytes) :=
  inferInstanceAs (Decidable (_ ∨ _))

/-- One step of the task, or an edit; a load takes two, since the file may change in between. -/
def step (fromStr : String → Option MappingsToml) (s : ConfigWatcher) : Action → Option ConfigWatcher
  | .edit file =>
      if file.map MappingsFile.modified ≠ s.modified then
        some { s with file := file, edits := s.edits + 1 }
      else none
  | .openFile =>
      match s.stage with
      | .starting => some { s with stage := .loading s.edits }
      | .changed last since => some { s with stage := .reloading last since s.edits }
      | _ => none
  | .read bytes =>
      match s.stage with
      | .loading opened =>
          if s.CanRead opened bytes then
            some { s with mappings := (CustomMappings.load fromStr bytes).getD default
                          stage := .spawned }
          else none
      | .reloading last since opened =>
          -- an error is logged, and the table stays
          if s.CanRead opened bytes then
            some { s with mappings := (CustomMappings.load fromStr bytes).getD s.mappings
                          stage := .waiting last
                          polled := some since }
          else none
      | _ => none
  | .sample ok =>
      match s.stage with
      | .spawned => some { s with stage := .waiting (s.fileMtime ok) }
      | .waiting last =>
          if s.fileMtime ok ≠ last then
            some { s with stage := .changed (s.fileMtime ok) s.edits }
          else some { s with polled := some s.edits }
      | _ => none

end ConfigWatcher

end WazuhOcsf
