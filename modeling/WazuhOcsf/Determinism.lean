import WazuhOcsf.Precedence

/-!
# The order of the mapping table

A hash map is iterated in an order of its own.  The overlay keeps the first offer
for a typed column and the last one for an extension key, so the record depends
on the order exactly when two entries offer one place different values:
`transform_order_independent_iff`.
-/

namespace WazuhOcsf

open Json RustString Collisions

/-- No two mapping entries offer different values to one place that takes an
offer: a typed column native extraction left empty, or an extension key. -/
structure Unambiguous (custom : CustomMappings) (obj : Map) : Prop where
  str : ∀ c, (nativeDraft obj).cols.str c = "" →
    Agree (strOffer (dataOf obj) c) custom.fieldMap.entries
  num : ∀ c, (nativeDraft obj).cols.num c = 0 →
    Agree (numOffer (dataOf obj) c) custom.fieldMap.entries
  extension : ∀ key, Agree (extensionOffer (dataOf obj) key) custom.fieldMap.entries

/-! ## The overlay -/

section

variable {data : Value} {entries : List (String × String)} (state : Columns × Extensions)

theorem overlay_str_order_independent_iff (c : StrCol) :
    (∀ l₁ l₂, l₁.Perm entries → l₂.Perm entries →
      (overlay data l₁ state).1.str c = (overlay data l₂ state).1.str c) ↔
    (state.1.str c = "" → Agree (strOffer data c) entries) := by
  by_cases hempty : state.1.str c = ""
  · rw [agree_iff_perm (fun found => found.getD "") fun _ _ h => h]
    simp [overlay_str, hempty]
  · simp [overlay_str, hempty]

theorem overlay_num_order_independent_iff (c : NumCol) :
    (∀ l₁ l₂, l₁.Perm entries → l₂.Perm entries →
      (overlay data l₁ state).1.num c = (overlay data l₂ state).1.num c) ↔
    (state.1.num c = 0 → Agree (numOffer data c) entries) := by
  by_cases hempty : state.1.num c = 0
  · rw [agree_iff_perm (fun found => found.getD 0) fun _ _ h => h]
    simp only [overlay_num, hempty, ↓reduceIte, forall_const]
  · simp only [overlay_num, hempty, ↓reduceIte, IsEmpty.forall_iff, implies_true]

theorem overlay_extension_order_independent_iff (key : String) :
    (∀ l₁ l₂, l₁.Perm entries → l₂.Perm entries →
      (overlay data l₁ state).2[key]? = (overlay data l₂ state).2[key]?) ↔
    Agree (extensionOffer data key) entries := by
  rw [agree_iff_perm (fun found => found.or state.2[key]?) fun _ _ h => Option.some.inj h]
  simp only [overlay_extension]
  constructor
  · intro h l₁ l₂ h₁ h₂
    simpa using h l₁.reverse l₂.reverse (l₁.reverse_perm.trans h₁) (l₂.reverse_perm.trans h₂)
  · exact fun h l₁ l₂ h₁ h₂ => h _ _ (l₁.reverse_perm.trans h₁) (l₂.reverse_perm.trans h₂)

/-- Whether the overlay fills a column does not depend on the order. -/
theorem overlay_str_eq_empty_of_perm {l₁ l₂ : List (String × String)} (hperm : l₁.Perm l₂)
    {c : StrCol} (h : (overlay data l₁ state).1.str c = "") :
    (overlay data l₂ state).1.str c = "" := by
  rw [overlay_str] at h ⊢
  split at h
  · next hempty =>
      rw [if_pos hempty]
      cases hfound : l₁.findSome? (strOffer data c) with
      | none => rw [findSome?_eq_none_of_perm hperm hfound]; rfl
      | some x =>
          rw [hfound, Option.getD_some] at h
          obtain ⟨entry, -, hoffer⟩ := List.exists_of_findSome?_eq_some hfound
          exact absurd (h ▸ hoffer) (strOffer_ne_empty c entry)
  · next hfull => exact absurd h hfull

/-- The overlay of an order is determined place by place. -/
theorem overlay_order_independent_iff :
    (∀ l₁ l₂, l₁.Perm entries → l₂.Perm entries → overlay data l₁ state = overlay data l₂ state) ↔
      (∀ c, state.1.str c = "" → Agree (strOffer data c) entries) ∧
        (∀ c, state.1.num c = 0 → Agree (numOffer data c) entries) ∧
        ∀ key, Agree (extensionOffer data key) entries := by
  simp only [← overlay_str_order_independent_iff, ← overlay_num_order_independent_iff,
    ← overlay_extension_order_independent_iff state]
  constructor
  · intro h
    exact ⟨fun c l₁ l₂ h₁ h₂ => by rw [h l₁ l₂ h₁ h₂], fun c l₁ l₂ h₁ h₂ => by rw [h l₁ l₂ h₁ h₂],
      fun key l₁ l₂ h₁ h₂ => by rw [h l₁ l₂ h₁ h₂]⟩
  · rintro ⟨hstr, hnum, hextension⟩ l₁ l₂ h₁ h₂
    refine Prod.ext (Columns.ext (funext fun c => ?_) (funext fun c => ?_)) ?_
    · exact hstr c l₁ l₂ h₁ h₂
    · exact hnum c l₁ l₂ h₁ h₂
    · exact Std.ExtTreeMap.ext_getElem? fun key => hextension key l₁ l₂ h₁ h₂

end

/-! ## The record -/

variable (now : DateTime) (custom : CustomMappings) (obj : Map)

theorem mappedColumns_order_independent_iff :
    (∀ first second, mappedColumns ⟨now, first⟩ custom obj = mappedColumns ⟨now, second⟩ custom obj)
      ↔ Unambiguous custom obj := by
  unfold mappedColumns
  refine (IterOrder.forall_arrange (p := fun l₁ l₂ => overlay (dataOf obj) l₁ _ =
    overlay (dataOf obj) l₂ _)).trans ((overlay_order_independent_iff _).trans ?_)
  exact ⟨fun ⟨hstr, hnum, hextension⟩ => ⟨hstr, hnum, hextension⟩,
    fun h => ⟨h.str, h.num, h.extension⟩⟩

theorem mappedColumns_str_eq_empty {first : IterOrder (String × String)}
    (second : IterOrder (String × String)) {c : StrCol}
    (h : (mappedColumns ⟨now, first⟩ custom obj).1.str c = "") :
    (mappedColumns ⟨now, second⟩ custom obj).1.str c = "" := by
  unfold mappedColumns at h ⊢
  exact overlay_str_eq_empty_of_perm _ ((first.perm _).trans (second.perm _).symm) h

/-- The final status tells the mapped one: the backfill comes in for every order
or for none. -/
theorem mappedColumns_status_of_final {first second : IterOrder (String × String)}
    (h : finalColumns ⟨now, first⟩ custom obj = finalColumns ⟨now, second⟩ custom obj) :
    (mappedColumns ⟨now, first⟩ custom obj).1.str .status =
      (mappedColumns ⟨now, second⟩ custom obj).1.str .status := by
  by_cases hempty : (mappedColumns ⟨now, first⟩ custom obj).1.str .status = ""
  · rw [hempty, mappedColumns_str_eq_empty now custom obj second hempty]
  · have hfull : (mappedColumns ⟨now, second⟩ custom obj).1.str .status ≠ "" := fun h₂ =>
      hempty (mappedColumns_str_eq_empty now custom obj first h₂)
    rw [← finalColumns_str_of_mapped _ _ _ hempty, ← finalColumns_str_of_mapped _ _ _ hfull, h]

/-- Two orders build the same record exactly when the overlay leaves the same
columns and extensions. -/
theorem buildRecord_order_iff (ext : Externals) (raw : String)
    (first second : IterOrder (String × String)) :
    buildRecord ext ⟨now, first⟩ custom raw obj = buildRecord ext ⟨now, second⟩ custom raw obj ↔
      mappedColumns ⟨now, first⟩ custom obj = mappedColumns ⟨now, second⟩ custom obj := by
  constructor
  · intro h
    have hcols : finalColumns ⟨now, first⟩ custom obj = finalColumns ⟨now, second⟩ custom obj := by
      simpa only [buildRecord_columns] using congrArg OcsfRecord.columns h
    have hextensions := congrArg OcsfRecord.extensions h
    simp only [buildRecord_extensions] at hextensions
    refine Prod.ext (Columns.ext (funext fun c => ?_) ?_) (extensionsJson_injective hextensions)
    · by_cases hc : c = .status
      · exact hc ▸ mappedColumns_status_of_final now custom obj hcols
      · rw [← finalColumns_str _ _ _ hc, ← finalColumns_str _ _ _ hc, hcols]
    · rw [← finalColumns_num, ← finalColumns_num, hcols]
  · intro h
    have htime : timeOf ext ⟨now, first⟩ obj = timeOf ext ⟨now, second⟩ obj := rfl
    simp only [buildRecord, finalActivity, finalColumns, h, htime]

/-- For one line, one mapping table and one clock, `transform` gives the same
result for every iteration order exactly when the table is unambiguous on the
alert. -/
theorem transform_order_independent_iff (ext : Externals) (raw db : String)
    (specialLocs : List String) :
    (∀ first second, transform ext ⟨now, first⟩ raw db specialLocs custom =
        transform ext ⟨now, second⟩ raw db specialLocs custom) ↔
      ∀ obj, trim raw ≠ "" → ext.fromStr raw = some (.object obj) → Unambiguous custom obj := by
  constructor
  · intro h obj hblank hparse
    rw [← mappedColumns_order_independent_iff now]
    intro first second
    have hrec : ∀ order, transform ext ⟨now, order⟩ raw db specialLocs custom =
        some (tableOf db specialLocs obj, buildRecord ext ⟨now, order⟩ custom raw obj) :=
      fun order => transform_eq_some_iff.mpr ⟨obj, hblank, hparse, rfl, rfl⟩
    have hsame := h first second
    rw [hrec, hrec, Option.some.injEq, Prod.mk.injEq] at hsame
    exact (buildRecord_order_iff now custom obj ext raw first second).mp hsame.2
  · intro h
    have hstep : ∀ first second table rec,
        transform ext ⟨now, first⟩ raw db specialLocs custom = some (table, rec) →
        transform ext ⟨now, second⟩ raw db specialLocs custom = some (table, rec) := by
      intro first second table rec hsome
      obtain ⟨obj, hblank, hparse, rfl, rfl⟩ := transform_eq_some_iff.mp hsome
      have hmapped := (mappedColumns_order_independent_iff now custom obj).mpr
        (h obj hblank hparse) first second
      exact transform_eq_some_iff.mpr ⟨obj, hblank, hparse, rfl,
        (buildRecord_order_iff now custom obj ext raw first second).mpr hmapped⟩
    exact fun first second => Option.ext fun ⟨table, rec⟩ =>
      ⟨hstep first second table rec, hstep second first table rec⟩

/-- Two fields mapped to one extension key. -/
def collidingMappings : CustomMappings where
  ocsfVersion := "1.7.0"
  fieldMap := ⟨[("client.name", "account"), ("peer.name", "account")], by decide⟩

/-- Two fields that are sanitised to two keys, both mapped in `collidingMappings`. -/
def collidingAlert : Map :=
  [("data", .object [("client.name", .string "alice"), ("peer.name", .string "bob")])]

/-- The text of `collidingAlert`. -/
def collidingLine : String :=
  "\x7b\"data\":\x7b\"client.name\":\"alice\",\"peer.name\":\"bob\"\x7d\x7d"

/-- The two orders of `collidingMappings` give the alert different extensions. -/
theorem transform_order_dependent :
    ¬ ∀ (ext : Externals) (now : DateTime) (raw db : String) (specialLocs : List String)
      (custom : CustomMappings) (first second : IterOrder (String × String)),
      transform ext ⟨now, first⟩ raw db specialLocs custom =
        transform ext ⟨now, second⟩ raw db specialLocs custom := by
  intro h
  have hsame := h (.knowing collidingLine (.object collidingAlert)) default collidingLine "wazuh" []
    collidingMappings default
    (.ofPerm (List.Perm.swap ("client.name", "account") ("peer.name", "account") []))
  rw [transform_knowing (by decide), transform_knowing (by decide), Option.some.injEq,
    Prod.mk.injEq, buildRecord_order_iff] at hsame
  have hkey := congrArg (fun mapped => mapped.2["account"]?) hsame.2
  simp only [mappedColumns, overlay_extension] at hkey
  revert hkey
  decide

end WazuhOcsf
