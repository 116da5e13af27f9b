import Mathlib.Algebra.Order.Ring.Nat
import Mathlib.Data.List.Basic
import Mathlib.Data.Fin.Basic

/-!
# JSON values and their compact text

`Value` is a parsed document.  An integer keeps its sign and fits 64 bits; a
number with a fraction or an exponent is carried as the text it is printed as,
since all a consumer of the document does with it is print it.  An object is the
list of its entries in ascending key order, each key once.

`Value.toJson` is the compact writer: no white space, and the escapes a JSON
string needs and no others.
-/

namespace Json

/-- The printed form of a number that is not an integer. -/
def IsFloatText (text : String) : Prop :=
  (∀ c ∈ text.toList, c.isDigit ∨ c = '-' ∨ c = '+' ∨ c = '.' ∨ c = 'e') ∧
    ('.' ∈ text.toList ∨ 'e' ∈ text.toList)

/-- A number as the parser keeps it. -/
inductive Number
  /-- A non-negative integer. -/
  | posInt (n : BitVec 64)
  /-- The negative integer `-(n + 1)`. -/
  | negInt (n : Fin (2 ^ 63))
  | float (text : { text : String // IsFloatText text })
  deriving DecidableEq

/-- A JSON value. -/
inductive Value
  | null
  | bool (b : Bool)
  | number (n : Number)
  | string (s : String)
  | array (elements : List Value)
  | object (entries : List (String × Value))
  deriving Inhabited

/-- The entries of an object. -/
abbrev Map := List (String × Value)

/-- The value an object stores under a key. -/
def Map.get (m : Map) (key : String) : Option Value := m.lookup key

namespace Number

/-- The number, if it is not negative and fits in 64 bits. -/
def asU64 : Number → Option (BitVec 64)
  | posInt n => some n
  | negInt _ => none
  | float _ => none

/-- The text of a number. -/
def toString : Number → String
  | posInt n => Nat.repr n.toNat
  | negInt n => "-" ++ Nat.repr (n.val + 1)
  | float text => text.val

end Number

namespace Value

/-- The entries, if it is an object. -/
def asObject : Value → Option Map
  | object entries => some entries
  | _ => none

/-- The elements, if it is an array. -/
def asArray : Value → Option (List Value)
  | array elements => some elements
  | _ => none

/-- The text, if it is a string. -/
def asStr : Value → Option String
  | string s => some s
  | _ => none

/-- The number, if it is one that is not negative and fits in 64 bits. -/
def asU64 : Value → Option (BitVec 64)
  | number n => n.asU64
  | _ => none

/-- Indexing by a key: `none` unless the value is an object that has it. -/
def get (v : Value) (key : String) : Option Value := v.asObject.bind fun m => m.get key

end Value

/-! ## Writing -/

/-- The lower-case hexadecimal digit of `n < 16`. -/
def hexDigit (n : ℕ) : Char := if n < 10 then .ofNat (48 + n) else .ofNat (87 + n)

/-- A character inside a JSON string. -/
def escapeChar (c : Char) : List Char :=
  if c = '"' then ['\\', '"']
  else if c = '\\' then ['\\', '\\']
  else if c = '\n' then ['\\', 'n']
  else if c = '\r' then ['\\', 'r']
  else if c = '\t' then ['\\', 't']
  else if c.toNat = 0x08 then ['\\', 'b']
  else if c.toNat = 0x0C then ['\\', 'f']
  else if c.toNat < 0x20 then
    ['\\', 'u', '0', '0', hexDigit (c.toNat / 16), hexDigit (c.toNat % 16)]
  else [c]

/-- A JSON string, quotes included. -/
def quote (s : String) : List Char := '"' :: s.toList.flatMap escapeChar ++ ['"']

/-- Items separated by commas. -/
def commaSeparated : List (List Char) → List Char
  | [] => []
  | [item] => item
  | item :: rest => item ++ ',' :: commaSeparated rest

mutual

/-- The compact text of a value, as characters. -/
def Value.write : Value → List Char
  | .null => "null".toList
  | .bool b => (if b then "true" else "false").toList
  | .number n => n.toString.toList
  | .string s => quote s
  | .array elements => '[' :: commaSeparated (writeElements elements) ++ [']']
  | .object entries => '{' :: commaSeparated (writeEntries entries) ++ ['}']

/-- The texts of the elements of an array. -/
def writeElements : List Value → List (List Char)
  | [] => []
  | v :: rest => v.write :: writeElements rest

/-- The texts of the entries of an object. -/
def writeEntries : List (String × Value) → List (List Char)
  | [] => []
  | (key, v) :: rest => (quote key ++ ':' :: v.write) :: writeEntries rest

end

/-- `to_string`: the compact text of a value. -/
def Value.toJson (v : Value) : String := .ofList v.write

end Json
