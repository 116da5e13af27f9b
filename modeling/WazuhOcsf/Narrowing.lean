import WazuhOcsf.Library.Narrowing
import WazuhOcsf.Pipeline.Transform

/-!
# The narrowed columns

The time of an alert, its rule level and its fired times are cut to the width of their
column, and the severity comes from the level before the cut.  `neverWraps_iff` says for
which alerts the columns hold the clamped values and the severity is the one of the stored
level.
-/

namespace WazuhOcsf

open Json RustString Narrowing

/-- `rule.firedtimes`. -/
def ruleFiredTimes (obj : Map) : BitVec 64 :=
  (((getSection obj "rule").get "firedtimes").bind Value.asU64).getD 0

/-- The severity before any block overrides it. -/
def baseSeverity (obj : Map) : BitVec 8 × String :=
  ((foundDraft obj).sevId, (foundDraft obj).sevLabel)

/-- The columns hold the time, the level and the fired times, clamped to their width; the
two times are the same second, and the severity is the one of the stored level. -/
structure NeverWraps (stamp : DateTime) (ruleLevel firedTimes : BitVec 64)
    (base : BitVec 8 × String) (rec : OcsfRecord) : Prop where
  time : (rec.time.toNat : ℤ) = clamp 32 stamp.timestamp
  level : (rec.wazuhRuleLevel.toNat : ℤ) = clamp 8 ruleLevel.toNat
  fired : (rec.wazuhFiredTimes.toNat : ℤ) = clamp 32 firedTimes.toNat
  sameSecond : Fits 32 stamp.timestamp →
    (rec.time.toNat : ℤ) = stamp.timestamp ∧ rec.timeDt = stamp.rfc3339
  severity : base = mapSeverity (rec.wazuhRuleLevel.setWidth 64)

theorem mapSeverity_of_le {level : BitVec 64} (h : 13 ≤ level.toNat) :
    mapSeverity level = (5, "Critical") := by
  unfold mapSeverity
  dsimp only
  rw [if_neg (by omega), if_neg (by omega), if_neg (by omega), if_neg (by omega),
    if_neg (by omega)]

/-- From the bound of the column on every level is critical. -/
theorem mapSeverity_of_clamp {level : BitVec 64} {stored : BitVec 8}
    (h : (stored.toNat : ℤ) = clamp 8 level.toNat) :
    mapSeverity level = mapSeverity (stored.setWidth 64) := by
  have hwiden : (stored.setWidth 64).toNat = stored.toNat :=
    BitVec.toNat_setWidth_of_le (by decide)
  rcases Nat.lt_or_ge level.toNat 256 with hlt | hge
  · rw [clamp_of_fits ⟨Int.natCast_nonneg _, by exact_mod_cast hlt⟩] at h
    congr 1
    exact BitVec.eq_of_toNat_eq (by omega)
  · rw [clamp_of_le (by exact_mod_cast hge)] at h
    rw [mapSeverity_of_le (by omega), mapSeverity_of_le (by omega)]

/-- No column wraps exactly if each value fits its column, or leaves the bits of the bound
there. -/
theorem neverWraps_iff {ext : Externals} {env : TransformEnv} {raw db : String}
    {specialLocs : List String} {custom : CustomMappings} {table : String} {rec : OcsfRecord}
    {obj : Map} (h : transform ext env raw db specialLocs custom = some (table, rec))
    (hparse : ext.fromStr raw = some (.object obj)) :
    NeverWraps (timeOf ext env obj) (ruleLevel obj) (ruleFiredTimes obj) (baseSeverity obj) rec ↔
      CutsToClamp 32 (timeOf ext env obj).timestamp ∧ CutsToClamp 8 (ruleLevel obj).toNat ∧
        CutsToClamp 32 (ruleFiredTimes obj).toNat := by
  obtain ⟨-, rfl⟩ := row_of_transform hparse h
  generalize hrec : buildRecord ext env custom raw obj = rec
  have htime : rec.time = .ofInt 32 (timeOf ext env obj).timestamp := by
    simp only [← hrec, buildRecord]
  have htext : rec.timeDt = (timeOf ext env obj).rfc3339 := by
    simp only [← hrec, buildRecord]
  have hlevel : rec.wazuhRuleLevel = (ruleLevel obj).setWidth 8 := by
    simp only [← hrec, buildRecord]
  have hfired : rec.wazuhFiredTimes = (ruleFiredTimes obj).setWidth 32 := by
    simp only [← hrec, buildRecord, ruleFiredTimes]
  rw [← toNat_ofInt_eq_clamp_iff, ← toNat_setWidth_eq_clamp_iff, ← toNat_setWidth_eq_clamp_iff,
    ← htime, ← hlevel, ← hfired]
  constructor
  · exact fun hnever => ⟨hnever.time, hnever.level, hnever.fired⟩
  · rintro ⟨hclampTime, hclampLevel, hclampFired⟩
    exact {
      time := hclampTime
      level := hclampLevel
      fired := hclampFired
      sameSecond := fun hfits => ⟨hclampTime.trans (clamp_of_fits hfits), htext⟩
      severity := mapSeverity_of_clamp hclampLevel }

/-- An alert of the given level. -/
def levelAlert (level : BitVec 64) : Map :=
  [("rule", .object [("level", .number (.posInt level))])]

/-- The text of an alert of level 7. -/
def mediumLine : String := "\x7b\"rule\":\x7b\"level\":7\x7d\x7d"

/-- The text of an alert whose level is the first that does not fit in 8 bits. -/
def wrappedLine : String := "\x7b\"rule\":\x7b\"level\":256\x7d\x7d"

theorem neverWraps_seven :
    NeverWraps default 7 0 (3, "Medium") (buildRecord (.knowing mediumLine (.object (levelAlert 7)))
      default default mediumLine (levelAlert 7)) :=
  (neverWraps_iff (transform_knowing (by decide) (levelAlert 7) default "wazuh" [] default)
    (fromStr_knowing _ _)).mpr
    ⟨.inl ⟨by decide, by decide⟩, .inl ⟨by decide, by decide⟩, .inl ⟨by decide, by decide⟩⟩

/-- Level 256 is stored as 0, whose severity is unknown, beside a critical severity. -/
theorem wraps_level : ∃ (ext : Externals) (raw : String) (table : String) (rec : OcsfRecord),
    transform ext default raw "wazuh" [] default = some (table, rec) ∧
      ext.fromStr raw = some (.object (levelAlert 256)) ∧ rec.wazuhRuleLevel = 0 ∧
      baseSeverity (levelAlert 256) = (5, "Critical") ∧
      ¬ NeverWraps (timeOf ext default (levelAlert 256)) (ruleLevel (levelAlert 256))
        (ruleFiredTimes (levelAlert 256)) (baseSeverity (levelAlert 256)) rec := by
  refine ⟨.knowing wrappedLine (.object (levelAlert 256)), wrappedLine, _, _,
    transform_knowing (by decide) _ _ _ _ _, fromStr_knowing _ _, by simp only [buildRecord]; decide,
    by decide, fun hnever => ?_⟩
  have hlevel := hnever.level
  simp only [buildRecord] at hlevel
  exact absurd hlevel (by decide)

end WazuhOcsf
