import WazuhOcsf.Library.Collisions
import WazuhOcsf.Pipeline.Vendors

/-!
# What the native statements can do

Every native block is a sequence of a few kinds of statement, so what a block
preserves is proved once per kind and carried through `Draft.seq`.  Two disciplines
are followed here: `FillsOnly`, a filled typed column is never overwritten, and
`KeepsLabel`, the severity label stays the one that belongs to the severity id.
-/

namespace WazuhOcsf

open Json RustString Draft

/-- The OCSF label of a severity id. -/
def severityLabel (id : BitVec 8) : Option String :=
  match id.toNat with
  | 0 => some "Unknown"
  | 1 => some "Informational"
  | 2 => some "Low"
  | 3 => some "Medium"
  | 4 => some "High"
  | 5 => some "Critical"
  | _ => none

/-- Id and label of a severity agree. -/
def Labelled (severity : BitVec 8 × String) : Prop := severityLabel severity.1 = some severity.2

/-- The statement overwrites no filled column in `scope`. -/
def FillsOnly (scope : StrCol → Prop) (statement : Draft → Draft) : Prop :=
  ∀ d, Columns.Preserves scope d.cols (statement d).cols

/-- The statement keeps a matching severity label matching. -/
def KeepsLabel (statement : Draft → Draft) : Prop :=
  ∀ d, Labelled (d.sevId, d.sevLabel) → Labelled ((statement d).sevId, (statement d).sevLabel)

variable {scope : StrCol → Prop} {statements : List (Draft → Draft)}

theorem seq_nil (d : Draft) : seq [] d = d := rfl

theorem seq_cons (first : Draft → Draft) (rest : List (Draft → Draft)) (d : Draft) :
    seq (first :: rest) d = seq rest (first d) := rfl

/-- A preorder on drafts that every statement of a block respects is respected by
the block. -/
theorem rel_seq {R : Draft → Draft → Prop} (hrefl : ∀ d, R d d)
    (htrans : ∀ a b c, R a b → R b c → R a c)
    (h : ∀ statement ∈ statements, ∀ d, R d (statement d)) (d : Draft) :
    R d (seq statements d) := by
  induction statements generalizing d with
  | nil => exact hrefl d
  | cons first rest ih =>
      rw [List.forall_mem_cons] at h
      exact htrans _ _ _ (h.1 d) (ih h.2 (first d))

/-! ## Filled columns -/

theorem fillsOnly_seq (h : ∀ statement ∈ statements, FillsOnly scope statement) :
    FillsOnly scope (seq statements) :=
  rel_seq (R := fun a b => Columns.Preserves scope a.cols b.cols) (fun _ => .refl _)
    (fun _ _ _ => .trans) h

@[simp] theorem fillsOnly_fill (c : StrCol) (v : String) : FillsOnly scope (fill c v) :=
  fun d => .fillStr c v d.cols

@[simp] theorem fillsOnly_fillNum (c : NumCol) (v : BitVec c.width) :
    FillsOnly scope (fillNum c v) :=
  fun d => .fillNum c v d.cols

/-- A statement that leaves the columns alone. -/
theorem fillsOnly_of_cols_eq {statement : Draft → Draft}
    (h : ∀ d, (statement d).cols = d.cols) : FillsOnly scope statement :=
  fun d => by rw [h]; exact .refl _

@[simp] theorem fillsOnly_put (key v : String) : FillsOnly scope (put key v) :=
  fillsOnly_of_cols_eq fun _ => rfl

@[simp] theorem fillsOnly_fillTitle (v : String) : FillsOnly scope (fillTitle v) :=
  fillsOnly_of_cols_eq fun _ => rfl

@[simp] theorem fillsOnly_setFinding (cve severity : String) (score : Float32) :
    FillsOnly scope (setFinding cve severity score) :=
  fillsOnly_of_cols_eq fun _ => rfl

@[simp] theorem fillsOnly_setSeverity (severity : Option (BitVec 8 × String)) :
    FillsOnly scope (setSeverity severity) :=
  fillsOnly_of_cols_eq fun _ => rfl

@[simp] theorem fillsOnly_raiseSeverity (severity : BitVec 8 × String) :
    FillsOnly scope (raiseSeverity severity) :=
  fillsOnly_of_cols_eq fun _ => rfl

@[simp] theorem fillsOnly_putChangedAttributes (syscheck : Map) :
    FillsOnly scope (putChangedAttributes syscheck) :=
  fillsOnly_of_cols_eq fun _ => rfl

@[simp] theorem fillsOnly_putAll (m : Map) (table : List (String × String)) :
    FillsOnly scope (putAll m table) :=
  fillsOnly_seq (List.forall_mem_map.mpr fun entry _ => fillsOnly_put entry.2 _)

/-- Renaming the protocol touches the protocol column alone. -/
theorem fillsOnly_renameProtocol (rename : String → String) (h : ¬ scope .networkProtocol) :
    FillsOnly scope (renameProtocol rename) := by
  refine fun d => ⟨fun c hscope _ => Function.update_of_ne ?_ .., fun _ _ => rfl⟩
  rintro rfl
  exact h hscope

/-! ## Matching labels -/

theorem keepsLabel_seq (h : ∀ statement ∈ statements, KeepsLabel statement) :
    KeepsLabel (seq statements) :=
  rel_seq (R := fun a b => Labelled (a.sevId, a.sevLabel) → Labelled (b.sevId, b.sevLabel))
    (fun _ h => h) (fun _ _ _ hab hbc h => hbc (hab h)) h

@[simp] theorem keepsLabel_fill (c : StrCol) (v : String) : KeepsLabel (fill c v) := fun _ h => h

@[simp] theorem keepsLabel_fillNum (c : NumCol) (v : BitVec c.width) : KeepsLabel (fillNum c v) :=
  fun _ h => h

@[simp] theorem keepsLabel_setFinding (cve severity : String) (score : Float32) :
    KeepsLabel (setFinding cve severity score) := fun _ h => h

@[simp] theorem keepsLabel_put (key v : String) : KeepsLabel (put key v) := fun _ h => h

@[simp] theorem keepsLabel_fillTitle (v : String) : KeepsLabel (fillTitle v) := fun _ h => h

@[simp] theorem keepsLabel_putChangedAttributes (syscheck : Map) :
    KeepsLabel (putChangedAttributes syscheck) := fun _ h => h

@[simp] theorem keepsLabel_renameProtocol (rename : String → String) :
    KeepsLabel (renameProtocol rename) := fun _ h => h

/-- An override keeps the label right if each of its arms pairs id and label. -/
theorem keepsLabel_setSeverity {severity : Option (BitVec 8 × String)}
    (h : ∀ s ∈ severity, Labelled s) : KeepsLabel (setSeverity severity) := by
  intro d hd
  cases severity with
  | none => exact hd
  | some s => exact h s rfl

theorem keepsLabel_raiseSeverity {severity : BitVec 8 × String} (h : Labelled severity) :
    KeepsLabel (raiseSeverity severity) := by
  intro d hd
  unfold raiseSeverity
  split
  · exact h
  · exact hd

/-! ## Statements without a value -/

@[simp] theorem fill_empty (c : StrCol) : fill c "" = id := by
  funext d
  simp [fill, Columns.fillStr]

@[simp] theorem fillNum_zero (c : NumCol) : fillNum c 0 = id := by
  funext d
  unfold fillNum Columns.fillNum
  rw [Collisions.ite_eq_empty_self, Function.update_eq_self]
  rfl

@[simp] theorem put_empty (key : String) : put key "" = id := by
  funext d
  simp [put]

@[simp] theorem fillTitle_empty : fillTitle "" = id := by
  funext d
  simp [fillTitle]

theorem seq_eq_id (h : ∀ statement ∈ statements, statement = id) : seq statements = id := by
  funext d
  exact rel_seq (R := fun a b => b = a) (fun _ => rfl) (fun _ _ _ hab hbc => hbc.trans hab)
    (fun statement hstatement d => by rw [h statement hstatement]; rfl) d

/-! ## Severity tables -/

namespace Severity

theorem labelled_ofGuardDuty (score : String) : ∀ s ∈ ofGuardDuty score, Labelled s := by
  intro s hs
  unfold ofGuardDuty at hs
  split at hs
  · cases hs
  · obtain rfl := Option.some.inj hs
    split_ifs <;> rfl

theorem labelled_ofScanner (label : String) : ∀ s ∈ ofScanner label, Labelled s := by
  intro s hs
  unfold ofScanner at hs
  split at hs <;> cases hs <;> rfl

theorem labelled_ofSecurityHub (label : String) : ∀ s ∈ ofSecurityHub label, Labelled s := by
  intro s hs
  unfold ofSecurityHub at hs
  split at hs <;> cases hs <;> rfl

theorem labelled_ofGcp (label : String) : ∀ s ∈ ofGcp label, Labelled s := by
  intro s hs
  unfold ofGcp at hs
  split at hs <;> cases hs <;> rfl

theorem labelled_ofDocker (level : String) : Labelled (ofDocker level) := by
  unfold ofDocker
  split <;> rfl

theorem labelled_ofMsGraph (label : String) : ∀ s ∈ ofMsGraph label, Labelled s := by
  intro s hs
  unfold ofMsGraph at hs
  split at hs <;> cases hs <;> rfl

end Severity

end WazuhOcsf
