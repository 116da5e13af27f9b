import Mathlib.Logic.Function.Basic
import Std.Data.ExtTreeMap
import WazuhOcsf.Pipeline.FieldPaths
import WazuhOcsf.Util.Json

/-!
# The typed mapping-target columns

`transform` keeps one local variable for each of the 29 typed columns a mapping
can target.  They are indexed here by `StrCol` and `NumCol`, so that what the
source writes out once per variable is one definition with the column as
parameter.  Every write of a native block is guarded by the column still being
empty; `Preserves` is that discipline, and it composes.
-/

namespace WazuhOcsf

open Json RustString

/-- The typed columns that hold a string. -/
inductive StrCol
  | srcIp | dstIp | natSrcIp | natDstIp | networkProtocol | actorUser | targetUser | domain | url
  | httpMethod | appName | srcHostname | dstHostname | fileName | processName | interfaceIn
  | interfaceOut | ruleName | appCategory | action | status
  deriving DecidableEq

/-- The typed columns that hold a number. -/
inductive NumCol
  | srcPort | dstPort | natSrcPort | natDstPort | httpStatus | processId | bytesIn | bytesOut
  deriving DecidableEq

/-- The width of a numeric column. -/
def NumCol.width : NumCol → ℕ
  | srcPort | dstPort | natSrcPort | natDstPort | httpStatus => 16
  | processId => 32
  | bytesIn | bytesOut => 64

namespace StrCol

/-- The field paths looked up for a column. -/
def paths : StrCol → List String
  | srcIp => FieldPaths.srcIp
  | dstIp => FieldPaths.dstIp
  | natSrcIp => FieldPaths.natSrcIp
  | natDstIp => FieldPaths.natDstIp
  | networkProtocol => FieldPaths.protocol
  | actorUser => FieldPaths.actorUser
  | targetUser => FieldPaths.targetUser
  | domain => FieldPaths.domain
  | url => FieldPaths.url
  | httpMethod => FieldPaths.httpMethod
  | appName => FieldPaths.appName
  | srcHostname => FieldPaths.srcHostname
  | dstHostname => FieldPaths.dstHostname
  | fileName => FieldPaths.fileName
  | processName => FieldPaths.processName
  | interfaceIn => FieldPaths.ifaceIn
  | interfaceOut => FieldPaths.ifaceOut
  | ruleName => FieldPaths.ruleName
  | appCategory => FieldPaths.category
  | action => FieldPaths.action
  | status => FieldPaths.status

end StrCol

/-- What the field paths find in `data` for a numeric column.  Every column but
the byte counters is looked up as a port. -/
def NumCol.find (data : Value) : (c : NumCol) → BitVec c.width
  | .srcPort => firstPort data FieldPaths.srcPort
  | .dstPort => firstPort data FieldPaths.dstPort
  | .natSrcPort => firstPort data FieldPaths.natSrcPort
  | .natDstPort => firstPort data FieldPaths.natDstPort
  | .httpStatus => firstPort data FieldPaths.httpStatus
  | .processId => (firstPort data FieldPaths.processId).setWidth 32
  | .bytesIn => firstU64 data FieldPaths.bytesIn
  | .bytesOut => firstU64 data FieldPaths.bytesOut

namespace NumCol

/-- The field paths looked up for a column. -/
def paths : NumCol → List String
  | srcPort => FieldPaths.srcPort
  | dstPort => FieldPaths.dstPort
  | natSrcPort => FieldPaths.natSrcPort
  | natDstPort => FieldPaths.natDstPort
  | httpStatus => FieldPaths.httpStatus
  | processId => FieldPaths.processId
  | bytesIn => FieldPaths.bytesIn
  | bytesOut => FieldPaths.bytesOut

/-- The columns that are looked up as counters. -/
def counters : List NumCol := [bytesIn, bytesOut]

theorem find_port (data : Value) {c : NumCol} (hc : c ∉ counters) :
    find data c = (firstPort data c.paths).setWidth c.width := by
  cases c with
  | bytesIn | bytesOut => simp [counters] at hc
  | processId => rfl
  | _ => exact (BitVec.setWidth_eq _).symm

theorem find_counter (data : Value) {c : NumCol} (hc : c ∈ counters) :
    find data c = (firstU64 data c.paths).setWidth c.width := by
  cases c with
  | bytesIn | bytesOut => exact (BitVec.setWidth_eq _).symm
  | _ => simp [counters] at hc

theorem find_ne_zero_of_port {data : Value} {c : NumCol} (hc : c ∉ counters)
    (h : firstPort data c.paths ≠ 0) : find data c ≠ 0 := by
  -- a port fits in every numeric column
  have hwidth : 16 ≤ c.width := by cases c <;> decide
  rw [find_port data hc]
  intro hzero
  refine h (BitVec.eq_of_toNat_eq ?_)
  have hnat := congrArg BitVec.toNat hzero
  rwa [BitVec.toNat_setWidth_of_le hwidth] at hnat

theorem find_ne_zero_of_counter {data : Value} {c : NumCol} (hc : c ∈ counters)
    (h : firstU64 data c.paths ≠ 0) : find data c ≠ 0 := by
  cases c with
  | bytesIn | bytesOut => exact h
  | _ => simp [counters] at hc

end NumCol

/-- The typed columns. -/
@[ext] structure Columns where
  str : StrCol → String
  num : (c : NumCol) → BitVec c.width

namespace Columns

/-- The columns the field paths find in `data`. -/
def find (data : Value) : Columns where
  str c := firstStr data c.paths
  num := NumCol.find data

/-- Store a string in a column that is still empty. -/
def fillStr (c : StrCol) (v : String) (cols : Columns) : Columns :=
  { cols with str := Function.update cols.str c (if cols.str c = "" then v else cols.str c) }

/-- Store a number in a column that is still zero. -/
def fillNum (c : NumCol) (v : BitVec c.width) (cols : Columns) : Columns :=
  { cols with num := Function.update cols.num c (if cols.num c = 0 then v else cols.num c) }

@[simp] theorem fillStr_num (c : StrCol) (v : String) (cols : Columns) :
    (cols.fillStr c v).num = cols.num := rfl

@[simp] theorem fillNum_str (c : NumCol) (v : BitVec c.width) (cols : Columns) :
    (cols.fillNum c v).str = cols.str := rfl

theorem fillStr_str (c other : StrCol) (v : String) (cols : Columns) :
    (cols.fillStr c v).str other =
      if other = c ∧ cols.str c = "" then v else cols.str other := by
  unfold fillStr
  by_cases hcol : other = c
  · subst hcol; simp
  · simp [hcol]

theorem fillNum_num_self (c : NumCol) (v : BitVec c.width) (cols : Columns) :
    (cols.fillNum c v).num c = if cols.num c = 0 then v else cols.num c :=
  Function.update_self ..

theorem fillNum_num_of_ne {c other : NumCol} (v : BitVec c.width) (cols : Columns)
    (hne : other ≠ c) : (cols.fillNum c v).num other = cols.num other :=
  Function.update_of_ne hne ..

/-- `after` keeps what `before` holds: every non-empty string column in `scope`
and every non-zero numeric column. -/
structure Preserves (scope : StrCol → Prop) (before after : Columns) : Prop where
  str : ∀ c, scope c → before.str c ≠ "" → after.str c = before.str c
  num : ∀ c, before.num c ≠ 0 → after.num c = before.num c

namespace Preserves

variable {scope : StrCol → Prop} {a b c : Columns}

theorem refl (a : Columns) : Preserves scope a a := ⟨fun _ _ _ => rfl, fun _ _ => rfl⟩

theorem trans (hab : Preserves scope a b) (hbc : Preserves scope b c) : Preserves scope a c where
  str col hscope hne := by
    have hb := hab.str col hscope hne
    rw [hbc.str col hscope (hb ▸ hne), hb]
  num col hne := by
    have hb := hab.num col hne
    rw [hbc.num col (hb ▸ hne), hb]

theorem fillStr (col : StrCol) (v : String) (a : Columns) :
    Preserves scope a (a.fillStr col v) where
  str other _ hne := by
    rw [fillStr_str, if_neg]
    rintro ⟨rfl, hempty⟩
    exact hne hempty
  num _ _ := by rw [fillStr_num]

theorem fillNum (col : NumCol) (v : BitVec col.width) (a : Columns) :
    Preserves scope a (a.fillNum col v) where
  str _ _ _ := by rw [fillNum_str]
  num other hne := by
    by_cases hcol : other = col
    · subst hcol
      rw [fillNum_num_self, if_neg hne]
    · exact fillNum_num_of_ne v a hcol

end Preserves

end Columns

/-! ## The locals of `transform` -/

/-- The `extensions` map; every value in it is a string. -/
abbrev Extensions := Std.ExtTreeMap String String

/-- The local variables `transform` updates while it extracts fields.  A statement
tests inside the field it assigns, so that one field can be evaluated without the
others. -/
structure Draft where
  cols : Columns
  sevId : BitVec 8
  sevLabel : String
  findingTitleOverride : String
  cveId : String
  cvssScore : Float32
  vulnSev : String
  extensions : Extensions

namespace Draft

/-- Run statements in order. -/
def seq (statements : List (Draft → Draft)) (d : Draft) : Draft :=
  statements.foldl (fun d statement => statement d) d

/-- `if col.is_empty() { col = v }`.  Storing an empty value in an empty column
changes nothing, so the inner emptiness test of the source is not repeated. -/
def fill (c : StrCol) (v : String) (d : Draft) : Draft := { d with cols := d.cols.fillStr c v }

/-- `if col == 0 { col = v }`. -/
def fillNum (c : NumCol) (v : BitVec c.width) (d : Draft) : Draft :=
  { d with cols := d.cols.fillNum c v }

/-- `if !v.is_empty() { extensions.insert(key, v) }`. -/
def put (key v : String) (d : Draft) : Draft :=
  { d with extensions := if v = "" then d.extensions else d.extensions.insert key v }

/-- `finding_title_override`, if still empty. -/
def fillTitle (v : String) (d : Draft) : Draft :=
  { d with
    findingTitleOverride := if d.findingTitleOverride = "" then v else d.findingTitleOverride }

/-- The CVE of a finding, its severity label and its score. -/
def setFinding (cve severity : String) (score : Float32) (d : Draft) : Draft :=
  { d with cveId := cve, vulnSev := severity, cvssScore := score }

/-- A severity override; `none` is the arm that keeps what is there. -/
def setSeverity (severity : Option (BitVec 8 × String)) (d : Draft) : Draft :=
  let severity := severity.getD (d.sevId, d.sevLabel)
  { d with sevId := severity.1, sevLabel := severity.2 }

/-- A severity override that only ever raises. -/
def raiseSeverity (severity : BitVec 8 × String) (d : Draft) : Draft :=
  d.setSeverity (if d.sevId < severity.1 then some severity else none)

/-- Rewrite the network protocol, if there is one. -/
def renameProtocol (rename : String → String) (d : Draft) : Draft :=
  let protocol := d.cols.str .networkProtocol
  { d with
    cols.str := Function.update d.cols.str .networkProtocol
      (if protocol = "" then protocol else rename protocol) }

end Draft

end WazuhOcsf
