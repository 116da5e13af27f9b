import WazuhOcsf.Library.Collisions
import WazuhOcsf.Library.JsonReader
import WazuhOcsf.Pipeline.Transform

/-!
# What the overlay leaves behind

The overlay folds the mapping entries over the typed columns and the extensions.
Seen from one place, the fold is a first or a last offer:

* `overlay_str`, `overlay_num`: a typed column that is still empty takes the first
  value an entry offers it;
* `overlay_extension`: an extension key takes the last.

Nothing else about the fold is used by the results on mappings.
-/

namespace WazuhOcsf

open Json RustString Collisions

/-! ## Offers -/

/-- The value an entry offers a string column. -/
def strOffer (data : Value) (c : StrCol) (entry : String × String) : Option String :=
  if Target.of entry.2 = .str c ∧ getDataField data entry.1 ≠ "" then
    some (getDataField data entry.1)
  else none

/-- The number a mapped value has in a numeric column; 0 unless it parses. -/
def numValue (data : Value) (c : NumCol) (field : String) : BitVec c.width :=
  (parseUInt c.width (getDataField data field)).getD 0

/-- The value an entry offers a numeric column. -/
def numOffer (data : Value) (c : NumCol) (entry : String × String) : Option (BitVec c.width) :=
  if Target.of entry.2 = .num c ∧ numValue data c entry.1 ≠ 0 then some (numValue data c entry.1)
  else none

/-- The value an entry offers an extension key. -/
def extensionOffer (data : Value) (key : String) (entry : String × String) : Option String :=
  if Target.of entry.2 = .extension key ∧ getDataField data entry.1 ≠ "" then
    some (getDataField data entry.1)
  else none

variable {data : Value}

theorem strOffer_ne_empty (c : StrCol) (entry : String × String) : "" ∉ strOffer data c entry := by
  unfold strOffer
  split
  · next h => simpa using h.2
  · simp

theorem numOffer_ne_zero (c : NumCol) (entry : String × String) : 0 ∉ numOffer data c entry := by
  unfold numOffer
  split
  · next h => simpa using h.2
  · simp

theorem target_of_strOffer {c : StrCol} {entry : String × String}
    (h : (strOffer data c entry).isSome) : Target.of entry.2 = .str c := by
  unfold strOffer at h
  split at h
  · next hoffer => exact hoffer.1
  · simp at h

theorem target_of_numOffer {c : NumCol} {entry : String × String}
    (h : (numOffer data c entry).isSome) : Target.of entry.2 = .num c := by
  unfold numOffer at h
  split at h
  · next hoffer => exact hoffer.1
  · simp at h

theorem target_of_extensionOffer {key : String} {entry : String × String}
    (h : (extensionOffer data key entry).isSome) : Target.of entry.2 = .extension key := by
  unfold extensionOffer at h
  split at h
  · next hoffer => exact hoffer.1
  · simp at h

/-! ## One entry -/

theorem numValue_of_empty {field : String} (c : NumCol) (h : getDataField data field = "") :
    numValue data c field = 0 := by
  rw [numValue, h]
  rfl

theorem overlayEntry_str (state : Columns × Extensions) (entry : String × String) (c : StrCol) :
    (overlayEntry data state entry).1.str c =
      if state.1.str c = "" then (strOffer data c entry).getD "" else state.1.str c := by
  unfold overlayEntry strOffer
  dsimp only
  split
  · next hval => simp [hval]
  · next hval =>
      split
      · next other htarget =>
          rw [htarget, Columns.fillStr_str]
          by_cases hcol : c = other
          · subst hcol; simp [hval]
          · have hne : ¬ other = c := fun h => hcol h.symm
            simp [hcol, hne]
      · next other htarget => simp [htarget]
      · next key htarget => simp [htarget]

theorem overlayEntry_num (state : Columns × Extensions) (entry : String × String) (c : NumCol) :
    (overlayEntry data state entry).1.num c =
      if state.1.num c = 0 then (numOffer data c entry).getD 0 else state.1.num c := by
  have hoffer (h : Target.of entry.2 = .num c) :
      (numOffer data c entry).getD 0 = numValue data c entry.1 := by
    unfold numOffer
    split
    · rfl
    · next hno => exact (not_not.mp fun hvalue => hno ⟨h, hvalue⟩).symm
  have hother (h : Target.of entry.2 ≠ .num c) : numOffer data c entry = none := by
    simp [numOffer, h]
  unfold overlayEntry
  dsimp only
  split
  · next hval =>
      have hnone : numOffer data c entry = none := by simp [numOffer, numValue_of_empty c hval]
      simp [hnone]
  · split
    · next other htarget => simp [hother (by simp [htarget])]
    · next other htarget =>
        by_cases hcol : c = other
        · subst hcol
          rw [Columns.fillNum_num_self, hoffer htarget]
          rfl
        · have hne : ¬ other = c := fun h => hcol h.symm
          rw [Columns.fillNum_num_of_ne _ _ hcol, hother (by simp [htarget, hne])]
          simp
    · next key htarget => simp [hother (by simp [htarget])]

theorem overlayEntry_extension (state : Columns × Extensions) (entry : String × String)
    (key : String) :
    (overlayEntry data state entry).2[key]? = (extensionOffer data key entry).or state.2[key]? := by
  unfold overlayEntry extensionOffer
  dsimp only
  split
  · next hval => simp [hval]
  · next hval =>
      split
      · next other htarget => simp [htarget]
      · next other htarget => simp [htarget]
      · next other htarget =>
          rw [htarget, Std.ExtTreeMap.getElem?_insert]
          by_cases hkey : other = key
          · simp [hkey, hval]
          · simp [hkey]

/-! ## All entries -/

variable (entries : List (String × String)) (state : Columns × Extensions)

theorem overlay_str (c : StrCol) :
    (overlay data entries state).1.str c =
      if state.1.str c = "" then (entries.findSome? (strOffer data c)).getD ""
      else state.1.str c :=
  get_foldl_first (fun s => s.1.str c) (strOffer_ne_empty c)
    (fun s entry => overlayEntry_str s entry c) state

theorem overlay_num (c : NumCol) :
    (overlay data entries state).1.num c =
      if state.1.num c = 0 then (entries.findSome? (numOffer data c)).getD 0
      else state.1.num c :=
  get_foldl_first (fun s => s.1.num c) (numOffer_ne_zero c)
    (fun s entry => overlayEntry_num s entry c) state

theorem overlay_extension (key : String) :
    (overlay data entries state).2[key]? =
      (entries.reverse.findSome? (extensionOffer data key)).or state.2[key]? :=
  get_foldl_last (fun s => s.2[key]?) (fun s entry => overlayEntry_extension s entry key) state

/-- The overlay overwrites no filled column. -/
theorem overlay_preserves :
    Columns.Preserves (fun _ => True) state.1 (overlay data entries state).1 where
  str c _ hne := by rw [overlay_str, if_neg hne]
  num c hne := by rw [overlay_num, if_neg hne]

/-- The text of the extensions determines them. -/
theorem extensionsJson_injective {a b : Extensions} (h : extensionsJson a = extensionsJson b) :
    a = b := by
  have hentries := Value.object.inj (Value.toJson_injective h)
  have hinjective : Function.Injective fun entry : String × String =>
      (entry.1, Value.string entry.2) := by
    rintro ⟨key, s⟩ ⟨other, t⟩ heq
    simpa using heq
  exact Std.ExtTreeMap.ext_toList (.of_eq (List.map_injective_iff.mpr hinjective hentries))

end WazuhOcsf
