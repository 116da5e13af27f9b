import WazuhOcsf.Library.Json
import WazuhOcsf.Library.RustString

/-!
# Looking fields up in a document

`util/json.rs`: the resolvers that turn a dotted path into a value.  A path is
first tried as a literal key of the root object, then split at its dots and
walked through nested objects.
-/

namespace WazuhOcsf

open Json RustString

/-- Follow the keys through nested objects. -/
def walk : Value → List String → Option Value
  | root, [] => some root
  | root, key :: rest => (root.get key).bind fun v => walk v rest

/-- The string at a dotted path, `""` if a segment is missing or the leaf is not a
string. -/
def jpath (root : Value) (path : String) : String :=
  ((walk root (split '.' path)).bind Value.asStr).getD ""

/-- A scalar as a string; arrays, objects and `null` give `""`. -/
def valueToStr : Value → String
  | .string s => s
  | .number n => n.toString
  | .bool b => if b then "true" else "false"
  | _ => ""

/-- The first non-empty string among `paths`.  A literal key that is present but
no non-empty string ends the search for that path. -/
def firstStr (root : Value) : List String → String
  | [] => ""
  | p :: rest =>
      match root.get p with
      | some v =>
          match v.asStr with
          | some s => if s ≠ "" then s else firstStr root rest
          | none => firstStr root rest
      | none =>
          let s := jpath root p
          if s ≠ "" then s else firstStr root rest

/-- A port: a number is clamped to 65535, a string must be one. -/
def portOf : Value → Option (BitVec 16)
  | .number n => n.asU64.map fun v => .ofNat 16 (min v.toNat 65535)
  | .string s => parseUInt 16 (trim s)
  | _ => none

/-- The first non-zero port among `paths`. -/
def firstPort (root : Value) : List String → BitVec 16
  | [] => 0
  | p :: rest =>
      match root.get p with
      | some v =>
          match portOf v with
          | some port => if 0 < port then port else firstPort root rest
          | none => firstPort root rest
      | none =>
          match (walk root (split '.' p)).bind portOf with
          | some port => if 0 < port then port else firstPort root rest
          | none => firstPort root rest

/-- A byte counter: a non-negative integer or a string of digits. -/
def counterOf : Value → Option (BitVec 64)
  | .number n => n.asU64
  | .string s => parseUInt 64 (trim s)
  | _ => none

/-- The first counter among `paths`, zero included. -/
def firstU64 (root : Value) : List String → BitVec 64
  | [] => 0
  | p :: rest =>
      match root.get p with
      | some v => (counterOf v).getD (firstU64 root rest)
      | none => ((walk root (split '.' p)).bind counterOf).getD (firstU64 root rest)

/-- The value of a mapped source field, scalars of any kind. -/
def getDataField (data : Value) (field : String) : String :=
  let literal := ((data.get field).map valueToStr).getD ""
  if literal ≠ "" then literal
  else ((walk data (split '.' field)).map valueToStr).getD ""

/-! ## Discovery -/

/-- A path extended by one segment. -/
def childPath (path segment : String) : String :=
  if path = "" then segment else path ++ "." ++ segment

mutual

/-- Every leaf below `path` with its dotted path and its text; `null` is no leaf, and
a leaf without a path is left out. -/
def flattenToPaths (path : String) : Value → List (String × String)
  | .object entries => flattenEntries path entries
  | .array elements => flattenElements path 0 elements
  | .null => []
  | leaf => if path = "" then [] else [(path, valueToStr leaf)]

/-- The leaves of the fields of an object. -/
def flattenEntries (path : String) : List (String × Value) → List (String × String)
  | [] => []
  | (key, v) :: rest => flattenToPaths (childPath path key) v ++ flattenEntries path rest

/-- The leaves of the elements of an array, counted from `i`. -/
def flattenElements (path : String) (i : ℕ) : List Value → List (String × String)
  | [] => []
  | v :: rest =>
      flattenToPaths (childPath path (Nat.repr i)) v ++ flattenElements path (i + 1) rest

end

end WazuhOcsf
