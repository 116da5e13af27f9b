import Mathlib.Algebra.Order.Ring.Nat
import Mathlib.Data.List.Infix
import Mathlib.Data.List.DropRight

/-!
# Rust's string operations

The functions of Rust's `str` that a Lean `String` does not share: Unicode
trimming, the ASCII case maps, substring tests, splitting at a character and the
integer and float parsers.  All work on the list of characters, so that they
evaluate and can be reasoned about by induction.
-/

namespace RustString

/-- The Unicode `White_Space` property, which is what `char::is_whitespace` tests. -/
def isWhitespace (c : Char) : Bool :=
  let n := c.toNat
  (0x09 ≤ n && n ≤ 0x0D) || n == 0x20 || n == 0x85 || n == 0xA0 || n == 0x1680 ||
    (0x2000 ≤ n && n ≤ 0x200A) || n == 0x2028 || n == 0x2029 || n == 0x202F || n == 0x205F ||
    n == 0x3000

/-- `str::trim`. -/
def trim (s : String) : String :=
  .ofList ((s.toList.dropWhile isWhitespace).rdropWhile isWhitespace)

/-- `str::trim_end_matches` for one character. -/
def trimEndMatches (c : Char) (s : String) : String := .ofList (s.toList.rdropWhile (· == c))

/-- `str::trim_matches` for one character. -/
def trimMatches (c : Char) (s : String) : String :=
  .ofList ((s.toList.dropWhile (· == c)).rdropWhile (· == c))

/-- `str::to_ascii_lowercase`. -/
def toAsciiLowercase (s : String) : String := .ofList (s.toList.map Char.toLower)

/-- `str::to_ascii_uppercase`. -/
def toAsciiUppercase (s : String) : String := .ofList (s.toList.map Char.toUpper)

/-- `str::contains` for a string pattern. -/
def contains (s pattern : String) : Bool := decide (pattern.toList <:+: s.toList)

/-- `str::starts_with` for a string pattern. -/
def startsWith (s pattern : String) : Bool := decide (pattern.toList <+: s.toList)

/-- `str::ends_with` for a string pattern. -/
def endsWith (s pattern : String) : Bool := decide (pattern.toList <:+ s.toList)

/-- `str::split` at a character. -/
def split (c : Char) (s : String) : List String := (s.toList.splitOn c).map .ofList

/-- `str::split_once` at a character. -/
def splitOnce (c : Char) (s : String) : Option (String × String) :=
  match s.toList.dropWhile (· ≠ c) with
  | [] => none
  | _ :: rest => some (.ofList (s.toList.takeWhile (· ≠ c)), .ofList rest)

/-- `str::strip_prefix` for a string pattern. -/
def stripPrefix (pattern s : String) : Option String :=
  if startsWith s pattern then some (.ofList (s.toList.drop pattern.toList.length)) else none

/-- The lines of a text, without `\n` or `\r\n`; the last one may lack its ending. -/
def lineChars : List Char → List (List Char)
  | [] => []
  | '\n' :: rest => [] :: lineChars rest
  | '\r' :: '\n' :: rest => [] :: lineChars rest
  | c :: rest =>
      match lineChars rest with
      | [] => [[c]]
      | line :: lines => (c :: line) :: lines

/-- `str::lines`. -/
def lines (s : String) : List String := (lineChars s.toList).map .ofList

/-! ## Lines and prefixes -/

theorem lineChars_append {line : List Char} (hline : ∀ c ∈ line, c ≠ '\n' ∧ c ≠ '\r')
    (rest : List Char) : lineChars (line ++ '\n' :: rest) = line :: lineChars rest := by
  induction line with
  | nil => simp [lineChars]
  | cons c line ih =>
      rw [List.forall_mem_cons] at hline
      rw [List.cons_append, lineChars, ih hline.2]
      · exact hline.1.1
      · exact fun _ heq => absurd heq hline.1.2

/-- The split is at the first separator. -/
theorem splitOnce_append {c : Char} {separator : String} (hseparator : separator.toList = [c])
    {s : String} (h : c ∉ s.toList) (rest : String) :
    splitOnce c (s ++ separator ++ rest) = some (s, rest) := by
  have hall : ∀ d ∈ s.toList, decide (d ≠ c) = true := fun d hd =>
    decide_eq_true fun heq => h (heq ▸ hd)
  have hchars : (s ++ separator ++ rest).toList = s.toList ++ c :: rest.toList := by
    simp [hseparator]
  rw [splitOnce, hchars, List.dropWhile_append_of_pos hall, List.takeWhile_append_of_pos hall]
  simp

theorem stripPrefix_append (pattern s : String) : stripPrefix pattern (pattern ++ s) = some s := by
  simp [stripPrefix, startsWith]

theorem stripPrefix_eq_none {pattern s : String} {c d : Char}
    (hpattern : pattern.toList.head? = some c) (hs : s.toList.head? = some d) (hne : c ≠ d) :
    stripPrefix pattern s = none := by
  refine if_neg fun h => hne ?_
  obtain ⟨rest, hrest⟩ := of_decide_eq_true h
  rw [← hrest, List.head?_append, hpattern] at hs
  exact Option.some.inj hs

theorem trim_eq_self {s : String} (h : ∀ c ∈ s.toList, isWhitespace c = false) : trim s = s := by
  have hdrop : s.toList.dropWhile isWhitespace = s.toList := by
    refine List.dropWhile_eq_self_iff.mpr fun hpos => ?_
    simp [h _ (List.getElem_mem hpos)]
  have hrdrop : s.toList.rdropWhile isWhitespace = s.toList := by
    refine List.rdropWhile_eq_self_iff.mpr fun hne => ?_
    simp [h _ (List.getLast_mem hne)]
  rw [trim, hdrop, hrdrop, String.ofList_toList]

theorem trim_ne_empty {s : String} {c : Char} (hs : s.toList.head? = some c)
    (hc : isWhitespace c = false) : trim s ≠ "" := by
  obtain ⟨rest, hrest⟩ := List.head?_eq_some_iff.mp hs
  have hdrop : s.toList.dropWhile isWhitespace = c :: rest := by
    rw [hrest, List.dropWhile_cons_of_neg (by simp [hc])]
  intro hempty
  have hnil : (c :: rest).rdropWhile isWhitespace = [] := by
    rw [trim, hdrop, ← String.toList_inj, String.toList_ofList] at hempty
    exact hempty
  have hwhite := List.rdropWhile_eq_nil_iff.mp hnil c List.mem_cons_self
  rw [hc] at hwhite
  cases hwhite

/-! ## Parsing numbers -/

/-- The number a list of decimal digits denotes. -/
def decimalValue (digits : List Char) : ℕ :=
  digits.foldl (fun n c => n * 10 + (c.toNat - 48)) 0

/-- `str::parse` for an unsigned integer of `width` bits: an optional `+`, then at
least one decimal digit and nothing else, in range. -/
def parseUInt (width : ℕ) (s : String) : Option (BitVec width) :=
  let digits := match s.toList with
    | '+' :: rest => rest
    | digits => digits
  if digits ≠ [] ∧ digits.all Char.isDigit then
    if h : decimalValue digits < 2 ^ width then some (.ofNatLT _ h) else none
  else none

/-- A string of digits is read as the number it denotes, if that is in range. -/
theorem parseUInt_of_isDigit {width : ℕ} {s : String} (hne : s.toList ≠ [])
    (hdigits : ∀ c ∈ s.toList, c.isDigit) :
    parseUInt width s =
      if h : decimalValue s.toList < 2 ^ width then some (.ofNatLT _ h) else none := by
  have hplus : (match s.toList with
      | '+' :: rest => rest
      | digits => digits) = s.toList := by
    split
    · next rest heq =>
        have hdigit := hdigits '+' (heq ▸ List.mem_cons_self)
        simp [Char.isDigit] at hdigit
    · rfl
  rw [parseUInt]
  simp only [hplus]
  rw [if_pos ⟨hne, by simpa using hdigits⟩]

/-- Digits denote zero when there is no other digit among them. -/
theorem decimalValue_eq_zero_iff {digits : List Char} (hdigits : ∀ c ∈ digits, c.isDigit) :
    decimalValue digits = 0 ↔ ∀ c ∈ digits, c = '0' := by
  have hfold : ∀ n, digits.foldl (fun n c => n * 10 + (c.toNat - 48)) n = 0 ↔
      n = 0 ∧ ∀ c ∈ digits, c = '0' := by
    induction digits with
    | nil => simp
    | cons c rest ih =>
        rw [List.forall_mem_cons] at hdigits
        have hrange : 48 ≤ c.toNat := by
          have h := hdigits.1
          simp only [Char.isDigit, Bool.and_eq_true, decide_eq_true_eq, UInt32.le_iff_toNat_le] at h
          exact h.1
        have hzero : c = '0' ↔ c.toNat = 48 := (Char.toNat_inj (d := '0')).symm
        intro n
        rw [List.foldl_cons, ih hdigits.2, List.forall_mem_cons, hzero, ← and_assoc]
        exact and_congr_left' (by omega)
  exact (hfold 0).trans (and_iff_right rfl)

/-- What is read as a number is a sign, perhaps, and digits that denote it. -/
theorem parseUInt_eq_some_iff {width : ℕ} {s : String} {b : BitVec width} :
    parseUInt width s = some b ↔ ∃ digits, (s.toList = digits ∨ s.toList = '+' :: digits) ∧
      digits ≠ [] ∧ (∀ c ∈ digits, c.isDigit) ∧ decimalValue digits = b.toNat := by
  have hread : ∀ digits : List Char,
      (if digits ≠ [] ∧ digits.all Char.isDigit then
        if h : decimalValue digits < 2 ^ width then some (BitVec.ofNatLT _ h) else none
      else none) = some b ↔
      digits ≠ [] ∧ (∀ c ∈ digits, c.isDigit) ∧ decimalValue digits = b.toNat := by
    intro digits
    rw [← List.all_eq_true]
    split_ifs with hdigits hlt
    · rw [Option.some.injEq, ← BitVec.toNat_inj, BitVec.toNat_ofNatLT]
      exact ⟨fun h => ⟨hdigits.1, hdigits.2, h⟩, fun h => h.2.2⟩
    · refine iff_of_false (by simp) fun h => hlt ?_
      rw [h.2.2]
      exact b.isLt
    · exact iff_of_false (by simp) fun h => hdigits ⟨h.1, h.2.1⟩
  obtain ⟨rest, hrest, hs⟩ : ∃ rest, (match s.toList with
      | '+' :: rest => rest
      | digits => digits) = rest ∧
      (s.toList = '+' :: rest ∨ s.toList = rest ∧ ∀ digits, s.toList ≠ '+' :: digits) := by
    split
    · next rest heq => exact ⟨rest, rfl, .inl heq⟩
    · next hplus => exact ⟨_, rfl, .inr ⟨rfl, hplus⟩⟩
  unfold parseUInt
  simp only [hrest]
  rw [hread]
  constructor
  · exact fun h => ⟨rest, hs.symm.imp_left And.left, h⟩
  · rintro ⟨digits, hs', h⟩
    obtain rfl : rest = digits := by
      rcases hs with hplus | ⟨hsame, hplus⟩
      · rcases hs' with hs' | hs'
        · -- a sign is no digit
          have hsign := h.2.1 '+' (hs' ▸ hplus ▸ List.mem_cons_self)
          exact absurd hsign (by decide)
        · exact (List.cons.inj (hplus.symm.trans hs')).2
      · rcases hs' with hs' | hs'
        · exact hsame.symm.trans hs'
        · exact absurd hs' (hplus digits)
    exact h

/-- What is read as zero is zeros, perhaps after a sign. -/
theorem parseUInt_eq_zero_iff {width : ℕ} {s : String} :
    parseUInt width s = some 0 ↔ ∃ n, 0 < n ∧
      (s.toList = List.replicate n '0' ∨ s.toList = '+' :: List.replicate n '0') := by
  rw [parseUInt_eq_some_iff]
  constructor
  · rintro ⟨digits, hs, hne, hdigits, hvalue⟩
    have hzeros := (decimalValue_eq_zero_iff hdigits).mp (hvalue.trans (BitVec.toNat_ofNat ..))
    rw [List.eq_replicate_of_mem hzeros] at hs
    exact ⟨digits.length, List.length_pos_iff.mpr hne, hs⟩
  · rintro ⟨n, hn, hs⟩
    have hzeros : ∀ c ∈ List.replicate n '0', c = '0' := fun c hc => List.eq_of_mem_replicate hc
    have hdigits : ∀ c ∈ List.replicate n '0', c.isDigit := fun c hc => hzeros c hc ▸ rfl
    refine ⟨_, hs, ?_, hdigits, ?_⟩
    · rw [ne_eq, List.replicate_eq_nil_iff]
      omega
    · rw [(decimalValue_eq_zero_iff hdigits).mpr hzeros]
      simp

theorem isDigit_of_mem_repr {n : ℕ} {c : Char} (hc : c ∈ n.repr.toList) : c.isDigit :=
  Nat.isDigit_of_mem_toDigits (by decide) (by decide) (Nat.toList_repr ▸ hc)

theorem repr_ne_empty (n : ℕ) : n.repr.toList ≠ [] := by
  rw [Nat.toList_repr]
  exact Nat.toDigits_ne_nil

theorem decimalValue_repr (n : ℕ) : decimalValue n.repr.toList = n :=
  calc decimalValue n.repr.toList
    _ = Nat.ofDigitChars 10 (Nat.toDigits 10 n) 0 := by
        rw [Nat.toList_repr]
        simp [decimalValue, Nat.ofDigitChars, Nat.mul_comm]
    _ = n := Nat.ofDigitChars_ten_toDigits

theorem repr_injective : Function.Injective Nat.repr := by
  intro m n h
  rw [← decimalValue_repr m, h, decimalValue_repr]

/-- What `to_string` prints is read back. -/
theorem parseUInt_repr {width n : ℕ} (h : n < 2 ^ width) :
    parseUInt width n.repr = some (.ofNatLT n h) := by
  rw [parseUInt_of_isDigit (repr_ne_empty n) fun _ => isDigit_of_mem_repr]
  rw [dif_pos (by rwa [decimalValue_repr])]
  exact congrArg some (BitVec.eq_of_toNat_eq (decimalValue_repr n))

theorem isWhitespace_of_isDigit {c : Char} (h : c.isDigit) : isWhitespace c = false := by
  have hrange : 48 ≤ c.toNat ∧ c.toNat ≤ 57 := by
    simpa [Char.isDigit, UInt32.le_iff_toNat_le] using h
  simp only [isWhitespace, Bool.or_eq_false_iff, Bool.and_eq_false_iff, decide_eq_false_iff_not,
    beq_eq_false_iff_ne]
  omega

/-- A string of digits has no white space around it. -/
theorem trim_of_isDigit {s : String} (h : ∀ c ∈ s.toList, c.isDigit) : trim s = s :=
  trim_eq_self fun c hc => isWhitespace_of_isDigit (h c hc)

theorem trim_repr (n : ℕ) : trim n.repr = n.repr := trim_of_isDigit fun _ => isDigit_of_mem_repr

/-- The decimal exponent of a float literal: nothing, or `e` or `E`, an optional
sign and at least one digit. -/
def parseExponent : List Char → Option ℤ
  | [] => some 0
  | c :: rest =>
      if c.toLower ≠ 'e' then none
      else
        let (negative, digits) := match rest with
          | '-' :: digits => (true, digits)
          | '+' :: digits => (false, digits)
          | digits => (false, digits)
        if digits ≠ [] ∧ digits.all Char.isDigit then
          some (if negative then -(decimalValue digits : ℤ) else decimalValue digits)
        else none

/-- The magnitude of a float literal without its sign. -/
def parseMagnitude (cs : List Char) : Option Float32 :=
  match (String.ofList (cs.map Char.toLower)) with
  | "inf" | "infinity" => some (1.0 / 0.0)
  | "nan" => some (0.0 / 0.0)
  | _ =>
      let whole := cs.takeWhile Char.isDigit
      let (fraction, rest) := match cs.dropWhile Char.isDigit with
        | '.' :: tail => (tail.takeWhile Char.isDigit, tail.dropWhile Char.isDigit)
        | tail => ([], tail)
      if whole = [] ∧ fraction = [] then none
      else (parseExponent rest).map fun (exponent : ℤ) =>
        let scale : ℤ := exponent - fraction.length
        .ofScientific (decimalValue (whole ++ fraction)) (decide (scale < 0)) scale.natAbs

/-- `str::parse::<f32>`. -/
def parseF32 (s : String) : Option Float32 :=
  match s.toList with
  | '-' :: cs => (parseMagnitude cs).map fun magnitude => -magnitude
  | '+' :: cs => parseMagnitude cs
  | cs => parseMagnitude cs

end RustString
