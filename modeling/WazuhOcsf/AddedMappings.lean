import WazuhOcsf.NativeExtensions

/-!
# Adding to the mapping table

The operator finds a field in the unmapped report and gives it a column of its own, by a new
entry in the mapping file.  `added_mappings_frame`: whatever the alert and the two tables, and
in whichever order the new table is iterated, the record is the one of the old table in some
order, up to the keys of the new targets in `extensions`.
-/

namespace WazuhOcsf

open Json RustString Collisions

/-- `custom'` is `custom` with entries added, whose targets are no typed columns. -/
structure AddsColumns (custom custom' : CustomMappings) (added : List (String × String)) :
    Prop where
  version : custom'.ocsfVersion = custom.ocsfVersion
  entries : custom'.fieldMap.entries.Perm (custom.fieldMap.entries ++ added)
  targets : ∀ entry ∈ added, entry.2 ∉ standardOcsfTargets

namespace AddsColumns

variable {custom custom' : CustomMappings} {added : List (String × String)}

theorem not_mem (h : AddsColumns custom custom' added) {entry : String × String}
    (hentry : entry ∈ added) : entry ∉ custom.fieldMap.entries := by
  have hnodup := (h.entries.map Prod.fst).nodup_iff.mp custom'.fieldMap.nodup
  rw [List.map_append, List.nodup_append] at hnodup
  exact fun hmem => hnodup.2.2 _ (List.mem_map_of_mem hmem) _ (List.mem_map_of_mem hentry) rfl

/-- The old entries, in the order in which the new table is iterated. -/
theorem filter_perm (h : AddsColumns custom custom' added) (order : IterOrder (String × String)) :
    ((order.arrange custom'.fieldMap.entries).filter (· ∈ custom.fieldMap.entries)).Perm
      custom.fieldMap.entries := by
  have hold : custom.fieldMap.entries.filter (· ∈ custom.fieldMap.entries) =
      custom.fieldMap.entries :=
    List.filter_eq_self.mpr fun entry hentry => decide_eq_true hentry
  have hnew : added.filter (· ∈ custom.fieldMap.entries) = [] :=
    List.filter_eq_nil_iff.mpr fun entry hentry => by simpa using h.not_mem hentry
  have hperm := ((order.perm _).trans h.entries).filter (· ∈ custom.fieldMap.entries)
  rwa [List.filter_append, hold, hnew, List.append_nil] at hperm

end AddsColumns

/-! ## The overlay -/

section

variable {data : Value} {entries : List (String × String)} {p : String × String → Bool}
  (state : Columns × Extensions)

/-- Entries with targets of their own do nothing to the typed columns. -/
theorem overlay_filter_fst
    (hcustom : ∀ entry ∈ entries, p entry = false → entry.2 ∉ standardOcsfTargets) :
    (overlay data (entries.filter p) state).1 = (overlay data entries state).1 := by
  refine Columns.ext (funext fun c => ?_) (funext fun c => ?_)
  · rw [overlay_str, overlay_str, findSome?_filter_eq]
    intro entry hentry hout
    simp [strOffer, Target.of_extension (hcustom entry hentry hout)]
  · rw [overlay_num, overlay_num, findSome?_filter_eq]
    intro entry hentry hout
    simp [numOffer, Target.of_extension (hcustom entry hentry hout)]

/-- They leave the other keys of the extensions alone. -/
theorem overlay_filter_extension {key : String}
    (hcustom : ∀ entry ∈ entries, p entry = false →
      entry.2 ∉ standardOcsfTargets ∧ entry.2 ≠ key) :
    (overlay data (entries.filter p) state).2[key]? = (overlay data entries state).2[key]? := by
  rw [overlay_extension, overlay_extension, ← List.filter_reverse, findSome?_filter_eq]
  intro entry hentry hout
  obtain ⟨hstandard, hne⟩ := hcustom entry (List.mem_reverse.mp hentry) hout
  simp [extensionOffer, Target.of_extension hstandard, hne]

/-- No entry takes a key away. -/
theorem overlay_filter_isSome {key : String}
    (h : (overlay data (entries.filter p) state).2[key]?.isSome) :
    (overlay data entries state).2[key]?.isSome := by
  rw [overlay_extension, Option.isSome_or, Bool.or_eq_true, List.findSome?_isSome_iff] at h ⊢
  refine h.imp_left fun ⟨entry, hentry, hoffer⟩ => ⟨entry, ?_, hoffer⟩
  exact List.mem_reverse.mpr (List.mem_of_mem_filter (List.mem_reverse.mp hentry))

end

/-! ## The record -/

variable {ext : Externals} {custom custom' : CustomMappings} {added : List (String × String)}

/-- The record up to its extensions is the one of the old table. -/
theorem buildRecord_of_mapped_eq {env env' : TransformEnv} {raw : String} {obj : Map}
    (hnow : env.now = env'.now) (hversion : custom'.ocsfVersion = custom.ocsfVersion)
    (hcols : (mappedColumns env custom obj).1 = (mappedColumns env' custom' obj).1) :
    buildRecord ext env custom raw obj =
      { buildRecord ext env' custom' raw obj with
        extensions := extensionsJson (mappedColumns env custom obj).2 } := by
  have htime : timeOf ext env obj = timeOf ext env' obj := by rw [timeOf, timeOf, hnow]
  simp only [buildRecord, finalActivity, finalColumns, hcols, htime, hversion]

/-- A record under the new table is a record under the old one, for some order of iteration,
up to the extensions under the targets of the new entries; and no extension is missing. -/
theorem added_mappings_frame (h : AddsColumns custom custom' added) {env : TransformEnv}
    {raw db table : String} {specialLocs : List String} {rec : OcsfRecord}
    (hrow : transform ext env raw db specialLocs custom' = some (table, rec)) :
    ∃ (order : IterOrder (String × String)) (final old : Extensions),
      rec.extensions = extensionsJson final ∧
      transform ext ⟨env.now, order⟩ raw db specialLocs custom =
        some (table, { rec with extensions := extensionsJson old }) ∧
      ∀ key, (key ∉ added.map Prod.snd → final[key]? = old[key]?) ∧
        (old[key]?.isSome → final[key]?.isSome) := by
  obtain ⟨obj, hblank, hparse, rfl, rfl⟩ := transform_eq_some_iff.mp hrow
  -- the old table in the order in which its entries come in the new one
  set order := IterOrder.ofPerm (h.filter_perm env.order) with horder
  set state := ((nativeDraft obj).cols, (nativeDraft obj).extensions) with hstate
  have hmapped : mappedColumns ⟨env.now, order⟩ custom obj = overlay (dataOf obj)
      ((env.order.arrange custom'.fieldMap.entries).filter (· ∈ custom.fieldMap.entries))
      state := by
    rw [mappedColumns, horder, IterOrder.ofPerm_arrange]
  have hnew : ∀ entry ∈ env.order.arrange custom'.fieldMap.entries,
      decide (entry ∈ custom.fieldMap.entries) = false → entry ∈ added := by
    intro entry hentry hout
    rw [IterOrder.mem_arrange, h.entries.mem_iff, List.mem_append] at hentry
    exact hentry.resolve_left (of_decide_eq_false hout)
  have hcols : (mappedColumns ⟨env.now, order⟩ custom obj).1 =
      (mappedColumns env custom' obj).1 := by
    rw [hmapped]
    exact overlay_filter_fst state fun entry hentry hout => h.targets entry (hnew entry hentry hout)
  refine ⟨order, (mappedColumns env custom' obj).2, (mappedColumns ⟨env.now, order⟩ custom obj).2,
    buildRecord_extensions .., ?_, fun key => ⟨fun hkey => ?_, fun hsome => ?_⟩⟩
  · have hrec : buildRecord ext ⟨env.now, order⟩ custom raw obj =
        { buildRecord ext env custom' raw obj with
          extensions := extensionsJson (mappedColumns ⟨env.now, order⟩ custom obj).2 } :=
      buildRecord_of_mapped_eq rfl h.version hcols
    exact transform_eq_some_iff.mpr ⟨obj, hblank, hparse, rfl, hrec.symm⟩
  · rw [hmapped]
    refine (overlay_filter_extension state fun entry hentry hout => ?_).symm
    have hadded := hnew entry hentry hout
    exact ⟨h.targets entry hadded, fun heq => hkey (List.mem_map.mpr ⟨entry, hadded, heq⟩)⟩
  · rw [hmapped] at hsome
    exact overlay_filter_isSome state hsome

/-- An alert with the number and the queue of its ticket, and an address of the peer. -/
def ticketAlert : Map :=
  [("data", .object [("ticket_id", .string "T-1"), ("queue", .string "net"),
    ("peer", .string "10.9.9.9")])]

/-- The text of `ticketAlert`. -/
def ticketLine : String := (Value.object ticketAlert).toJson

/-- The queue is mapped to an extension, and the peer to a typed column. -/
def queueMappings : CustomMappings where
  ocsfVersion := "1.7.0"
  fieldMap := ⟨[("queue", "ticket_queue"), ("peer", "src_ip")], by decide⟩

/-- The number of the ticket is mapped too, ahead of the rest. -/
def queueTicketMappings : CustomMappings where
  ocsfVersion := "1.7.0"
  fieldMap := ⟨[("ticket_id", "ticket_id"), ("queue", "ticket_queue"), ("peer", "src_ip")],
    by decide⟩

theorem addsColumns_ticket :
    AddsColumns queueMappings queueTicketMappings [("ticket_id", "ticket_id")] :=
  ⟨rfl, by decide, by decide⟩

theorem added_mappings_frame_ticket : ∃ (table : String) (rec : OcsfRecord)
    (order : IterOrder (String × String)) (final old : Extensions),
    transform (.knowing ticketLine (.object ticketAlert)) default ticketLine "wazuh" []
        queueTicketMappings = some (table, rec) ∧
      rec.extensions = extensionsJson final ∧
      transform (.knowing ticketLine (.object ticketAlert)) ⟨default, order⟩ ticketLine "wazuh" []
        queueMappings = some (table, { rec with extensions := extensionsJson old }) ∧
      ∀ key, key ≠ "ticket_id" → final[key]? = old[key]? := by
  have hrow := transform_knowing (trim_toJson_ne_empty ticketAlert) ticketAlert default
    "wazuh" [] queueTicketMappings
  obtain ⟨order, final, old, hfinal, hold, hkeys⟩ := added_mappings_frame addsColumns_ticket hrow
  refine ⟨_, _, order, final, old, hrow, hfinal, hold, fun key hkey => (hkeys key).1 ?_⟩
  simpa using hkey

end WazuhOcsf
