import WazuhOcsf.NumericLookup
import WazuhOcsf.Pipeline.Sections
import WazuhOcsf.Precedence

/-!
# Process ids

A process id is looked up like a port, though its column has 32 bits.  A number above
65535 is stored as 65535.  A string above 65535 is passed over, so that a later path, the
Windows system section or a mapping may fill the column instead.  `processId_kept_iff`
collects when the id that was found is the one in the record whatever the mapping table.
-/

namespace WazuhOcsf

open Json Json.Value RustString Draft

/-- The `process_id` column. -/
def Columns.processId (cols : Columns) : BitVec 32 := cols.num .processId

/-! ## The lookup -/

/-- The value is the process id, as a number or as a decimal string. -/
def HoldsId (n : BitVec 32) (w : Value) : Prop :=
  w = .number (.posInt (n.setWidth 64)) ∨
    ∃ s, w = .string s ∧ s.toList ≠ [] ∧ (∀ c ∈ s.toList, c.isDigit) ∧
      decimalValue s.toList = n.toNat

/-- Absent paths do not matter to a search. -/
theorem firstPort_append {v : Value} {before : List String} (h : ∀ p ∈ before, found v p = none)
    (rest : List String) : firstPort v (before ++ rest) = firstPort v rest := by
  induction before with
  | nil => rfl
  | cons path before ih =>
      rw [List.forall_mem_cons] at h
      rw [List.cons_append, firstPort_cons, h.1, ih h.2]
      rfl

theorem portOf_of_holdsId {n : BitVec 32} {w : Value} (h : HoldsId n w) :
    portOf w = if n.toNat < 65536 then some (.ofNat 16 n.toNat)
      else if w.asStr.isSome then none else some 65535 := by
  rcases h with rfl | ⟨s, rfl, hne, hdigits, hvalue⟩
  · have hwiden : (n.setWidth 64).toNat = n.toNat := BitVec.toNat_setWidth_of_le (by decide)
    rw [portOf_number, hwiden]
    split
    · next hn => rw [Nat.min_eq_left (by omega)]
    · next hn =>
        rw [Nat.min_eq_right (by omega)]
        rfl
  · rw [portOf, trim_of_isDigit hdigits, parseUInt_of_isDigit hne hdigits]
    simp only [hvalue, Value.asStr, Option.isSome_some, if_true]
    by_cases hn : n.toNat < 65536
    · rw [if_pos hn]
      exact (dif_pos hn).trans (congrArg some (BitVec.ofNatLT_eq_ofNat _))
    · rw [if_neg hn]
      exact dif_neg hn

section

variable {data w : Value} {n : BitVec 32} {before after : List String} {path : String}

/-- What the lookup makes of a process id. -/
theorem find_processId (hpaths : FieldPaths.processId = before ++ path :: after)
    (hbefore : ∀ p ∈ before, found data p = none) (hfound : found data path = some w)
    (hid : HoldsId n w) (hpos : 0 < n) :
    (Columns.find data).processId =
      if n.toNat < 65536 then n
      else if w.asStr.isSome then (firstPort data after).setWidth 32 else 65535 := by
  have hlookup : (Columns.find data).processId =
      (((portOf w).filter (0 < ·)).getD (firstPort data after)).setWidth 32 := by
    have hfind : (Columns.find data).processId = (firstPort data FieldPaths.processId).setWidth 32 := rfl
    rw [hfind, hpaths, firstPort_append hbefore, firstPort_cons, hfound, Option.bind_some]
  have hnat : 0 < n.toNat := BitVec.lt_def.mp hpos
  rw [hlookup, portOf_of_holdsId hid]
  by_cases hn : n.toNat < 65536
  · have hport : (0 : BitVec 16) < .ofNat 16 n.toNat := by
      rw [BitVec.lt_def, BitVec.toNat_ofNat, Nat.mod_eq_of_lt hn]
      exact hnat
    rw [if_pos hn, if_pos hn, getD_filter_some, if_pos hport]
    refine BitVec.eq_of_toNat_eq ?_
    rw [BitVec.toNat_setWidth_of_le (by decide), BitVec.toNat_ofNat, Nat.mod_eq_of_lt hn]
  · rw [if_neg hn, if_neg hn]
    split <;> rfl

end

/-! ## The native blocks -/

/-- Only the Windows section writes the process id. -/
theorem native_processId (obj : Map) :
    (nativeDraft obj).cols.processId =
      if (Columns.find (dataOf obj)).processId = 0 then
        (parseUInt 32 (jpath (dataOf obj) "win.system.processID")).getD 0
      else (Columns.find (dataOf obj)).processId := by
  have hplace : Place.num .processId ∈ quietPlaces := List.mem_cons_self
  have hquiet := ne_of_not_quiet hplace
  have hfill (c : StrCol) (v : String) : Together (.num .processId) (fill c v) id :=
    spares_fill (by simp) v
  have hwindows : Together (.num .processId) (windowsBlock (dataOf obj))
      (seq [id, fillNum .processId
        ((parseUInt 32 (jpath (dataOf obj) "win.system.processID")).getD 0), id, id, id]) :=
    together_seq (.cons (hfill _ _) (.cons (together_fillNum _ _) (by simp [hfill])))
  have hnative := sameAt_native_of_modules (dataOf obj) (getSection obj "syscheck")
    (getSection obj "predecoder") hplace (by simp) (by simp) hwindows
    (spares_of_writes (writes_sectionsBlock (by simp) _ _))
    (spares_of_writes (writes_complianceBlock hquiet (by simp) (by simp) _))
    (spares_of_writes (writes_contextBlock hquiet (by simp) (by simp) (by simp) _ _ _))
    (foundDraft obj)
  exact Eq.trans hnative (Columns.fillNum_num_self _ _ _)

/-! ## The record -/

/-- Whatever the mapping table, the record of the line has the process id. -/
def KeepsProcessId (ext : Externals) (raw : String) (n : BitVec 32) : Prop :=
  ∀ (env : TransformEnv) (db : String) (specialLocs : List String) (custom : CustomMappings)
    (table : String) (rec : OcsfRecord),
    transform ext env raw db specialLocs custom = some (table, rec) →
      rec.columns.processId = n

variable {ext : Externals} {raw : String} {obj : Map}

/-- A mapping fills only a column that the native blocks leave at zero. -/
theorem keepsProcessId_iff_native (hline : trim raw ≠ "")
    (hparse : ext.fromStr raw = some (.object obj)) {n : BitVec 32} (hne : n ≠ 0) :
    KeepsProcessId ext raw n ↔ (nativeDraft obj).cols.processId = n := by
  constructor
  · intro hkeeps
    -- the run with the empty table
    have hrec := hkeeps default "" [] { (default : CustomMappings) with fieldMap := .empty } _ _
      (transform_eq_some_iff.mpr ⟨obj, hline, hparse, rfl, rfl⟩)
    rwa [buildRecord_columns, Columns.processId, finalColumns_num, mappedColumns_of_empty] at hrec
  · -- a filled column is kept by every overlay
    intro hnative env db specialLocs custom table rec h
    obtain ⟨-, rfl⟩ := row_of_transform hparse h
    have hfilled : (nativeDraft obj).cols.processId ≠ 0 := hnative ▸ hne
    rw [buildRecord_columns]
    exact ((finalColumns_preserves env custom obj).num .processId hfilled).trans hnative

/-- A process id is kept exactly if it fits a port, or if it is a string that the Windows
section repeats and no later path overrides. -/
theorem processId_kept_iff {n : BitVec 32} {w : Value} {before after : List String} {path : String}
    (hline : trim raw ≠ "") (hparse : ext.fromStr raw = some (.object obj))
    (hpaths : FieldPaths.processId = before ++ path :: after)
    (hbefore : ∀ p ∈ before, found (dataOf obj) p = none)
    (hfound : found (dataOf obj) path = some w) (hid : HoldsId n w) (hpos : 0 < n) :
    KeepsProcessId ext raw n ↔ n.toNat < 65536 ∨
      (w.asStr.isSome ∧ firstPort (dataOf obj) after = 0 ∧
        parseUInt 32 (jpath (dataOf obj) "win.system.processID") = some n) := by
  have hne : ¬ n = 0 := by
    rintro rfl
    exact absurd hpos (by decide)
  have hsmall (port : BitVec 16) (hn : ¬ n.toNat < 65536) : ¬ port.setWidth 32 = n := by
    rintro rfl
    rw [BitVec.toNat_setWidth_of_le (by decide)] at hn
    exact hn port.isLt
  rw [keepsProcessId_iff_native hline hparse hne,
    native_processId, find_processId hpaths hbefore hfound hid hpos]
  by_cases hn : n.toNat < 65536
  · rw [if_pos hn, if_neg hne]
    exact iff_of_true rfl (.inl hn)
  · rw [if_neg hn]
    -- a number is clamped; a string leaves the column to the later sources
    by_cases hstring : w.asStr.isSome
    · rw [if_pos hstring]
      by_cases hport : firstPort (dataOf obj) after = 0
      · have hfallback : (parseUInt 32 (jpath (dataOf obj) "win.system.processID")).getD 0 = n ↔
            parseUInt 32 (jpath (dataOf obj) "win.system.processID") = some n := by
          cases parseUInt 32 (jpath (dataOf obj) "win.system.processID") with
          | none => exact iff_of_false (Ne.symm hne) (by simp)
          | some m => simp
        rw [hport, if_pos (by decide), hfallback]
        simp [hn, hstring]
      · have hwide : ¬ (firstPort (dataOf obj) after).setWidth 32 = 0 := fun hzero => by
          have hnat := congrArg BitVec.toNat hzero
          rw [BitVec.toNat_setWidth_of_le (by decide)] at hnat
          exact hport (BitVec.eq_of_toNat_eq hnat)
        rw [if_neg hwide]
        exact iff_of_false (hsmall _ hn) fun h => h.elim hn fun hother => hport hother.2.1
    · rw [if_neg hstring, if_neg (by decide)]
      exact iff_of_false (hsmall 65535 hn) fun h => h.elim hn fun hother => hstring hother.1

/-- A Sysmon alert with the given process id. -/
def sysmonAlert (n : BitVec 64) : Map :=
  [("data", .object [("sysmon", .object [("processId", .number (.posInt n))])])]

/-- The text of an alert whose process id fits in 16 bits. -/
def smallIdLine : String := "\x7b\"data\":\x7b\"sysmon\":\x7b\"processId\":4242\x7d\x7d\x7d"

/-- The text of an alert whose process id does not. -/
def largeIdLine : String := "\x7b\"data\":\x7b\"sysmon\":\x7b\"processId\":70000\x7d\x7d\x7d"

theorem processId_kept_4242 :
    KeepsProcessId (.knowing smallIdLine (.object (sysmonAlert 4242))) smallIdLine 4242 :=
  (processId_kept_iff (by decide) (fromStr_knowing _ _)
    (show FieldPaths.processId = [] ++ "sysmon.processId" :: _ from rfl) (by simp) rfl (.inl rfl)
    (by decide)).mpr (.inl (by decide))

/-- Process id 70000 is stored as 65535. -/
theorem processId_clamped : ∃ (ext : Externals) (table : String) (rec : OcsfRecord),
    transform ext default largeIdLine "wazuh" [] default = some (table, rec) ∧
      ext.fromStr largeIdLine = some (.object (sysmonAlert 70000)) ∧
      (∃ w, found (dataOf (sysmonAlert 70000)) "sysmon.processId" = some w ∧ HoldsId 70000 w) ∧
      FieldPaths.processId.head? = some "sysmon.processId" ∧ rec.columns.processId = 65535 := by
  refine ⟨.knowing largeIdLine (.object (sysmonAlert 70000)), _, _,
    transform_knowing (by decide) _ _ _ _ _, fromStr_knowing _ _, ⟨_, rfl, .inl rfl⟩, rfl, ?_⟩
  rw [buildRecord_columns]
  decide

end WazuhOcsf
