import WazuhOcsf.Pipeline.Sections
import WazuhOcsf.Readback

/-!
# Mappings and the native extensions

The overlay tests a typed column before it fills it.  An extension key it inserts as it
comes, and the operator may name one that the native blocks have filled.
`native_extensions_kept_iff` compares the record with the one of the empty table: the
native extensions are all kept, whatever the order of the table, unless an entry with such
a target finds another value.
-/

namespace WazuhOcsf

open Json RustString Collisions

/-! ## The overlay -/

/-- A native extension outlives the overlay in every order unless a different value is
offered for its key. -/
theorem mappedColumns_extension_kept_iff {custom : CustomMappings} {obj : Map} {key v : String}
    (hstored : (nativeDraft obj).extensions[key]? = some v) :
    (∀ env : TransformEnv, (mappedColumns env custom obj).2[key]? = some v) ↔
      ∀ entry ∈ custom.fieldMap.entries, ∀ w ∈ extensionOffer (dataOf obj) key entry, w = v := by
  rw [← kept_iff_perm]
  constructor
  · -- any rearrangement is the reverse of one the hash map may come in
    intro hkept l hperm
    have hleft := hkept ⟨default, .ofPerm (l.reverse_perm.trans hperm)⟩
    rwa [mappedColumns, IterOrder.ofPerm_arrange, overlay_extension, List.reverse_reverse,
      hstored] at hleft
  · intro hkept env
    rw [mappedColumns, overlay_extension, hstored]
    exact hkept _ ((List.reverse_perm _).trans (env.order.perm _))

/-- A mapping entry has an extension key of the native blocks as its target and finds
another value for it. -/
def Overwrites (obj : Map) (entry : String × String) : Prop :=
  entry.2 ∉ standardOcsfTargets ∧ getDataField (dataOf obj) entry.1 ≠ "" ∧
    ∃ v, (nativeDraft obj).extensions[entry.2]? = some v ∧ getDataField (dataOf obj) entry.1 ≠ v

/-- An entry overwrites exactly if it offers some native key another value. -/
theorem overwrites_iff (obj : Map) (entry : String × String) :
    Overwrites obj entry ↔ ∃ key v, (nativeDraft obj).extensions[key]? = some v ∧
      ∃ w ∈ extensionOffer (dataOf obj) key entry, w ≠ v := by
  simp only [extensionOffer, Target.of_eq_extension_iff, Overwrites]
  constructor
  · rintro ⟨hstandard, hval, v, hstored, hne⟩
    exact ⟨entry.2, v, hstored, _, by simp [hstandard, hval], hne⟩
  · rintro ⟨key, v, hstored, w, hw, hne⟩
    obtain ⟨⟨⟨hstandard, rfl⟩, hval⟩, rfl⟩ := by simpa using hw
    exact ⟨hstandard, hval, v, hstored, hne⟩

/-! ## Two runs -/

/-- Whatever the order of the table, the record has every extension of the record that
the empty table gives. -/
def KeepsNativeExtensions (ext : Externals) (raw : String) (custom : CustomMappings) : Prop :=
  ∀ (env baseEnv : TransformEnv) (db : String) (specialLocs : List String) (table : String)
    (rec base : OcsfRecord),
    transform ext env raw db specialLocs custom = some (table, rec) →
    transform ext baseEnv raw db specialLocs { custom with fieldMap := .empty } =
      some (table, base) →
    ∃ final native : Extensions, rec.extensions = extensionsJson final ∧
      base.extensions = extensionsJson native ∧
      ∀ (key v : String), native[key]? = some v → final[key]? = some v

variable {ext : Externals} {raw : String} {obj : Map} {custom : CustomMappings}

/-- The extensions of the empty table are those of the native blocks. -/
theorem keepsNativeExtensions_iff_mapped (hline : trim raw ≠ "")
    (hparse : ext.fromStr raw = some (.object obj)) :
    KeepsNativeExtensions ext raw custom ↔ ∀ (env : TransformEnv) (key v : String),
      (nativeDraft obj).extensions[key]? = some v →
        (mappedColumns env custom obj).2[key]? = some v := by
  constructor
  · intro hkeeps env key v hstored
    -- the text of the column determines the map it was printed from
    obtain ⟨final, native, hfinal, hnative, hkept⟩ := hkeeps env default "" [] _ _ _
      (transform_eq_some_iff.mpr ⟨obj, hline, hparse, rfl, rfl⟩)
      (transform_eq_some_iff.mpr ⟨obj, hline, hparse, rfl, rfl⟩)
    rw [buildRecord_extensions] at hfinal hnative
    rw [mappedColumns_of_empty] at hnative
    obtain rfl := extensionsJson_injective hfinal
    obtain rfl := extensionsJson_injective hnative
    exact hkept key v hstored
  · intro hkept env baseEnv db specialLocs table rec base hrec hbase
    obtain ⟨-, rfl⟩ := row_of_transform hparse hrec
    obtain ⟨-, rfl⟩ := row_of_transform hparse hbase
    refine ⟨_, _, buildRecord_extensions .., buildRecord_extensions .., ?_⟩
    rw [mappedColumns_of_empty]
    exact hkept env

/-- A mapping table keeps the native extensions of an alert exactly if no entry overwrites
one. -/
theorem native_extensions_kept_iff (hline : trim raw ≠ "")
    (hparse : ext.fromStr raw = some (.object obj)) :
    KeepsNativeExtensions ext raw custom ↔
      ∀ entry ∈ custom.fieldMap.entries, ¬ Overwrites obj entry := by
  rw [keepsNativeExtensions_iff_mapped hline hparse]
  constructor
  · intro hkept entry hentry hoverwrites
    obtain ⟨key, v, hstored, w, hw, hne⟩ := (overwrites_iff obj entry).mp hoverwrites
    exact hne ((mappedColumns_extension_kept_iff hstored).mp
      (fun env => hkept env key v hstored) entry hentry w hw)
  · intro hnone env key v hstored
    refine (mappedColumns_extension_kept_iff hstored).mpr (fun entry hentry w hw => ?_) env
    by_contra hne
    exact hnone entry hentry ((overwrites_iff obj entry).mpr ⟨key, v, hstored, w, hw, hne⟩)

/-- A file change whose digest a second product reports too. -/
def digestAlert (reported : String) : Map :=
  [("syscheck", .object [("sha256_after", .string "ab12")]),
   ("data", .object [("edr", .object [("sha256", .string reported)])])]

/-- The report of the second product goes to the key of the digest. -/
def digestMappings : CustomMappings where
  ocsfVersion := "1.7.0"
  fieldMap := ⟨[("edr.sha256", "fim_sha256")], by decide⟩

/-- Two sources of one extension key that agree. -/
def sameDigestLine : String :=
  "\x7b\"syscheck\":\x7b\"sha256_after\":\"ab12\"\x7d,\"data\":\x7b\"edr\":\x7b\"sha256\":\"ab12\"\x7d\x7d\x7d"

/-- Two sources of one extension key that differ. -/
def otherDigestLine : String :=
  "\x7b\"syscheck\":\x7b\"sha256_after\":\"ab12\"\x7d,\"data\":\x7b\"edr\":\x7b\"sha256\":\"cd34\"\x7d\x7d\x7d"

theorem native_digestAlert (reported : String) :
    (nativeDraft (digestAlert reported)).extensions["fim_sha256"]? = some "ab12" := by
  have hdigest := native_digest (digestAlert reported)
    (show ("sha256_after", "fim_sha256") ∈ fimExtensions by decide)
  rw [hdigest]
  rfl

theorem native_extensions_kept_same :
    KeepsNativeExtensions (.knowing sameDigestLine (.object (digestAlert "ab12"))) sameDigestLine
      digestMappings := by
  have hval : getDataField (dataOf (digestAlert "ab12")) "edr.sha256" = "ab12" := by decide
  refine (native_extensions_kept_iff (by decide) (fromStr_knowing _ _)).mpr fun entry hentry => ?_
  obtain rfl := List.mem_singleton.mp hentry
  rintro ⟨-, -, v, hstored, hne⟩
  rw [native_digestAlert, Option.some.injEq] at hstored
  exact hne (hval.trans hstored)

/-- The digest of the file is replaced by the one that was mapped. -/
theorem native_extension_overwritten : ∃ (ext : Externals) (table : String) (rec base : OcsfRecord)
    (final native : Extensions),
    transform ext default otherDigestLine "wazuh" [] digestMappings = some (table, rec) ∧
      transform ext default otherDigestLine "wazuh" [] { digestMappings with fieldMap := .empty } =
        some (table, base) ∧
      rec.extensions = extensionsJson final ∧ base.extensions = extensionsJson native ∧
      native["fim_sha256"]? = some "ab12" ∧ final["fim_sha256"]? = some "cd34" := by
  have hval : getDataField (dataOf (digestAlert "cd34")) "edr.sha256" = "cd34" := by decide
  have hnative := native_digestAlert "cd34"
  refine ⟨.knowing otherDigestLine (.object (digestAlert "cd34")), _, _, _, _, _,
    transform_knowing (by decide) _ _ _ _ _, transform_knowing (by decide) _ _ _ _ _,
    buildRecord_extensions .., buildRecord_extensions .., ?_, ?_⟩
  · simpa only [mappedColumns_of_empty] using hnative
  · rw [mappedColumns, overlay_extension]
    have hoffer : extensionOffer (dataOf (digestAlert "cd34")) "fim_sha256"
        ("edr.sha256", "fim_sha256") = some "cd34" := by
      rw [extensionOffer, hval]
      exact if_pos (by decide)
    have hentries : (default : TransformEnv).order.arrange digestMappings.fieldMap.entries =
        [("edr.sha256", "fim_sha256")] := rfl
    rw [hentries, List.reverse_singleton, List.findSome?_singleton, hoffer, Option.some_or]

end WazuhOcsf
