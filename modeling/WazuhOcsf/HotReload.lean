import WazuhOcsf.Library.Utf8
import WazuhOcsf.Main.ConfigWatcher

/-!
# The mapping table after a poll

A completed poll with no edit since it began should leave the content of the file in
force.  The watcher compares times it took at other moments than the loads, so the
table goes stale in four ways, which `Noticed` excludes: an edit between the load at
start-up and the first look at the time, a second failed look in a row, an edit that
brings the remembered time back, and a load that fails although its time is already
remembered.  In every run without them no table is stale, and each of them can be
followed by a poll that leaves a stale table (`hot_reload_fresh`).
-/

namespace WazuhOcsf

open ConfigWatcher Transition

variable {fromStr : String → Option MappingsToml}

/-- If the file parses, the table is its content. -/
def InForce (fromStr : String → Option MappingsToml) (mappings : CustomMappings)
    (content : Option (List UInt8)) : Prop :=
  ∀ table, CustomMappings.load fromStr content = some table → mappings = table

namespace ConfigWatcher

/-- A poll has completed, and nothing was edited since it began. -/
def Settled (s : ConfigWatcher) : Prop := s.polled = some s.edits

/-- The table in force is the content of the file. -/
def Fresh (fromStr : String → Option MappingsToml) (s : ConfigWatcher) : Prop :=
  InForce fromStr s.mappings s.content

/-- Everything a step can do. -/
inductive Moves (fromStr : String → Option MappingsToml) (s : ConfigWatcher) :
    Action → ConfigWatcher → Prop
  | edit {file : Option MappingsFile} (hmodified : file.map MappingsFile.modified ≠ s.modified) :
      Moves fromStr s (.edit file) { s with file := file, edits := s.edits + 1 }
  | openFirst (hstage : s.stage = .starting) :
      Moves fromStr s .openFile { s with stage := .loading s.edits }
  | openAgain {last : Option ℤ} {since : ℕ} (hstage : s.stage = .changed last since) :
      Moves fromStr s .openFile { s with stage := .reloading last since s.edits }
  | load {opened : ℕ} {bytes : Option (List UInt8)} (hstage : s.stage = .loading opened) :
      Moves fromStr s (.read bytes)
        { s with mappings := (CustomMappings.load fromStr bytes).getD default
                 stage := .spawned }
  | reload {last : Option ℤ} {since opened : ℕ} {bytes : Option (List UInt8)}
      (hstage : s.stage = .reloading last since opened) :
      Moves fromStr s (.read bytes)
        { s with mappings := (CustomMappings.load fromStr bytes).getD s.mappings
                 stage := .waiting last
                 polled := some since }
  | look {ok : Bool} (hstage : s.stage = .spawned) :
      Moves fromStr s (.sample ok) { s with stage := .waiting (s.fileMtime ok) }
  | pollChanged {last : Option ℤ} {ok : Bool} (hstage : s.stage = .waiting last)
      (hlast : s.fileMtime ok ≠ last) :
      Moves fromStr s (.sample ok) { s with stage := .changed (s.fileMtime ok) s.edits }
  | pollSame {last : Option ℤ} {ok : Bool} (hstage : s.stage = .waiting last)
      (hlast : s.fileMtime ok = last) :
      Moves fromStr s (.sample ok) { s with polled := some s.edits }

theorem moves_of_step {s s' : ConfigWatcher} {a : Action} (h : s.step fromStr a = some s') :
    Moves fromStr s a s' := by
  cases a with
  | edit file =>
      obtain ⟨hmodified, h⟩ := Option.ite_none_right_eq_some.mp h
      cases h
      exact .edit hmodified
  | openFile =>
      cases hstage : s.stage <;> simp only [step, hstage, reduceCtorEq, Option.some.injEq] at h
      · exact h ▸ .openFirst hstage
      · exact h ▸ .openAgain hstage
  | read bytes =>
      cases hstage : s.stage <;> simp only [step, hstage, reduceCtorEq] at h
      · obtain ⟨-, h⟩ := Option.ite_none_right_eq_some.mp h
        cases h
        exact .load hstage
      · obtain ⟨-, h⟩ := Option.ite_none_right_eq_some.mp h
        cases h
        exact .reload hstage
  | sample ok =>
      cases hstage : s.stage <;> simp only [step, hstage, reduceCtorEq] at h
      · cases h
        exact .look hstage
      · split_ifs at h with hlast
        · cases h
          exact .pollChanged hstage hlast
        · rw [← hstage] at h
          cases h
          exact .pollSame hstage (not_not.mp hlast)

end ConfigWatcher

/-- A step that lets no change of the file slip. -/
def Noticed (fromStr : String → Option MappingsToml) (s : ConfigWatcher) (a : Action) : Prop :=
  match s.stage, a with
  -- the first look finds the file that was loaded, or misses it
  | .spawned, .sample ok => s.fileMtime ok = s.modified → s.Fresh fromStr
  -- not twice in a row does a look fail
  | .waiting last, .sample ok => s.fileMtime ok = last → ok = true ∨ s.Fresh fromStr
  -- the remembered time does not come back with another content
  | .waiting last, .edit file =>
      file.map MappingsFile.modified = last →
        InForce fromStr s.mappings (file.map MappingsFile.bytes)
  -- a load reads the file, unless its time is still to be seen
  | .reloading last since _, .read bytes =>
      since = s.edits ∨ s.modified = last →
        CustomMappings.load fromStr s.content = none ∨
          CustomMappings.load fromStr bytes = CustomMappings.load fromStr s.content ∨
          CustomMappings.load fromStr bytes = none ∧ s.Fresh fromStr
  | _, _ => True

/-- What the loop of the watcher keeps. -/
structure WatchInv (fromStr : String → Option MappingsToml) (s : ConfigWatcher) : Prop where
  remembered : ∀ last, s.stage = .waiting last → s.modified = last → s.Fresh fromStr
  settled : s.Settled → s.Fresh fromStr
  polled_le : ∀ polled ∈ s.polled, polled ≤ s.edits
  changed_le : ∀ last since, s.stage = .changed last since → since ≤ s.edits
  reloading_le : ∀ last since opened, s.stage = .reloading last since opened → since ≤ s.edits
  starting_none : s.stage = .starting → s.polled = none
  loading_none : ∀ opened, s.stage = .loading opened → s.polled = none

theorem WatchInv.initial (file : Option MappingsFile) :
    WatchInv fromStr (.initial file) := by
  constructor <;> simp [ConfigWatcher.initial, Settled]

/-- A load that reads the file leaves its content in force. -/
theorem inForce_getD_iff {bytes content : Option (List UInt8)} {mappings : CustomMappings} :
    InForce fromStr ((CustomMappings.load fromStr bytes).getD mappings) content ↔
      CustomMappings.load fromStr content = none ∨
        CustomMappings.load fromStr bytes = CustomMappings.load fromStr content ∨
        CustomMappings.load fromStr bytes = none ∧ InForce fromStr mappings content := by
  cases hcontent : CustomMappings.load fromStr content with
  | none => simp [InForce, hcontent]
  | some table =>
      cases hbytes : CustomMappings.load fromStr bytes with
      | none => simp [InForce, hcontent]
      | some other => simp [InForce, hcontent]

theorem WatchInv.step {s s' : ConfigWatcher} {a : Action} (h : WatchInv fromStr s)
    (hnoticed : Noticed fromStr s a) (hstep : s.step fromStr a = some s') :
    WatchInv fromStr s' := by
  cases moves_of_step hstep with
  | @edit file hmodified =>
      have hedits : ∀ polled ∈ s.polled, polled ≤ s.edits + 1 := fun polled hpolled =>
        Nat.le_succ_of_le (h.polled_le polled hpolled)
      refine ⟨fun last hstage hlast => ?_, fun hsettled => ?_, hedits, fun last since hstage => ?_,
        fun last since opened hstage => ?_, h.starting_none, h.loading_none⟩
      · simp only [Noticed, show s.stage = .waiting last from hstage] at hnoticed
        exact hnoticed hlast
      · have hle : s.edits + 1 ≤ s.edits := h.polled_le _ hsettled
        omega
      · exact Nat.le_succ_of_le (h.changed_le last since hstage)
      · exact Nat.le_succ_of_le (h.reloading_le last since opened hstage)
  | openFirst hstage =>
      exact ⟨by simp, h.settled, h.polled_le, by simp, by simp, by simp,
        fun _ _ => h.starting_none hstage⟩
  | openAgain hstage =>
      refine ⟨by simp, h.settled, h.polled_le, by simp, fun last since opened heq => ?_, by simp,
        by simp⟩
      cases heq
      exact h.changed_le _ _ hstage
  | load hstage =>
      have hnone : s.polled = none := h.loading_none _ hstage
      refine ⟨by simp, fun hsettled => ?_, h.polled_le, by simp, by simp, by simp, by simp⟩
      rw [Settled, hnone] at hsettled
      exact (Option.some_ne_none _ hsettled.symm).elim
  | reload hstage =>
      simp only [Noticed, hstage] at hnoticed
      refine ⟨fun last heq hlast => ?_, fun hsettled => ?_, fun polled hpolled => ?_, by simp,
        by simp, by simp, by simp⟩
      · cases heq
        exact inForce_getD_iff.mpr (hnoticed (.inr hlast))
      · exact inForce_getD_iff.mpr (hnoticed (.inl (Option.some.inj hsettled)))
      · cases hpolled
        exact h.reloading_le _ _ _ hstage
  | look hstage =>
      simp only [Noticed, hstage] at hnoticed
      refine ⟨fun last heq hlast => ?_, h.settled, h.polled_le, by simp, by simp, by simp, by simp⟩
      cases heq
      exact hnoticed hlast.symm
  | pollChanged hstage hlast =>
      refine ⟨by simp, h.settled, h.polled_le, fun last since heq => ?_, by simp, by simp, by simp⟩
      cases heq
      exact Nat.le_refl _
  | @pollSame last ok hstage hlast =>
      simp only [Noticed, hstage] at hnoticed
      have hfresh : s.Fresh fromStr := by
        rcases hnoticed hlast with rfl | hfresh
        · exact h.remembered last hstage hlast
        · exact hfresh
      refine ⟨h.remembered, fun _ => hfresh, fun polled hpolled => ?_, h.changed_le,
        h.reloading_le, fun heq => ?_, fun opened heq => ?_⟩
      · cases hpolled
        exact Nat.le_refl _
      · exact absurd (hstage.symm.trans heq) (by simp)
      · exact absurd (hstage.symm.trans heq) (by simp)

/-! ## The steps that let a change slip -/

/-- A successful poll that sees the remembered time completes at once. -/
theorem settled_of_poll {s : ConfigWatcher} {last : Option ℤ} (hstage : s.stage = .waiting last)
    (hlast : s.modified = last) :
    s.step fromStr (.sample true) = some { s with polled := some s.edits } := by
  simp [ConfigWatcher.step, hstage, fileMtime, hlast]

/-- A poll that finds the time it remembers leaves the table as it is. -/
theorem fresh_of_settled {s : ConfigWatcher}
    (hlater : ∀ t, Reachable (ConfigWatcher.step fromStr) s t → t.Settled → t.Fresh fromStr)
    {last : Option ℤ} (hstage : s.stage = .waiting last) (hlast : s.modified = last) :
    s.Fresh fromStr := by
  have hfresh := hlater _ (.snoc .start trivial (settled_of_poll hstage hlast)) rfl
  exact hfresh

/-- A step after which no table is ever stale lets no change slip. -/
theorem noticed_of_fresh {s s' : ConfigWatcher} {a : Action} (hstep : s.step fromStr a = some s')
    (hlater : ∀ t, Reachable (ConfigWatcher.step fromStr) s' t → t.Settled → t.Fresh fromStr) :
    Noticed fromStr s a := by
  cases moves_of_step hstep with
  | @edit file hmodified =>
      cases hstage : s.stage with
      | waiting last =>
          simp only [Noticed, hstage]
          exact fun hlast => fresh_of_settled hlater hstage hlast
      | _ => simp [Noticed, hstage]
  | openFirst hstage => simp [Noticed, hstage]
  | openAgain hstage => simp [Noticed, hstage]
  | load hstage => simp [Noticed, hstage]
  | reload hstage =>
      simp only [Noticed, hstage]
      intro hseen
      refine inForce_getD_iff.mp ?_
      rcases hseen with hsince | hlast
      · exact hlater _ .start (congrArg some hsince)
      · exact fresh_of_settled hlater rfl hlast
  | look hstage =>
      simp only [Noticed, hstage]
      intro hmodified
      have hfresh := fresh_of_settled hlater rfl hmodified.symm
      exact hfresh
  | pollChanged hstage hlast =>
      simp only [Noticed, hstage]
      exact fun heq => absurd heq hlast
  | pollSame hstage hlast =>
      simp only [Noticed, hstage]
      have hfresh := hlater _ .start rfl
      exact fun _ => .inr hfresh

/-! ## The table in force -/

/-- Nothing but what a load read replaces the table. -/
theorem mappings_eq_of_step {s s' : ConfigWatcher} {a : Action}
    (hstep : s.step fromStr a = some s') (hloading : ∀ opened, s.stage ≠ .loading opened)
    (hfails : ∀ bytes, a = .read bytes → CustomMappings.load fromStr bytes = none) :
    s'.mappings = s.mappings := by
  cases moves_of_step hstep with
  | load hstage => exact absurd hstage (hloading _)
  | @reload last since opened bytes hstage => simp [hfails bytes rfl]
  | _ => rfl

/-- In every run that lets no change of the file slip, a completed poll with no edit since
it began leaves the content of the file in force; a step that lets one slip can be
followed by such a poll that does not.  In any run, a poll whose load fails keeps the
table. -/
theorem hot_reload_fresh (fromStr : String → Option MappingsToml) (file : Option MappingsFile) :
    (∀ s, RunWhere (ConfigWatcher.step fromStr) (Noticed fromStr) (.initial file) s →
      (s.Settled → s.Fresh fromStr) ∧
        ∀ a s', s.step fromStr a = some s' →
          (∀ t, Reachable (ConfigWatcher.step fromStr) s' t → t.Settled → t.Fresh fromStr) →
            Noticed fromStr s a) ∧
      ∀ (s : ConfigWatcher) a s', s.step fromStr a = some s' → (∀ opened, s.stage ≠ .loading opened) →
        (∀ bytes, a = .read bytes → CustomMappings.load fromStr bytes = none) →
          s'.mappings = s.mappings := by
  refine ⟨fun s run => ⟨?_, fun a s' => noticed_of_fresh⟩, fun s a s' => mappings_eq_of_step⟩
  have h : WatchInv fromStr s :=
    run.invariant (.initial file) fun _ _ _ h hnoticed hstep => h.step hnoticed hstep
  exact h.settled

/-- A mapping file, and what it parses to. -/
def ticketToml : String := "[field_mappings]\nticket = \"src_ip\"\n"

/-- A table that maps `ticket` to a typed column. -/
def ticketTable : MappingsToml where
  ocsfVersion := ""
  fieldMappings := ⟨[("ticket", "src_ip")], by decide⟩
  ocsfFieldRenames := .empty

/-- The parser, as far as it is used here. -/
def parseTicket (text : String) : Option MappingsToml :=
  if text = ticketToml then some ticketTable else none

/-- The file of `ticketTable`, last changed at `modified`. -/
def ticketFile (modified : ℤ) : MappingsFile := ⟨modified, ticketToml.toUTF8.data.toList⟩

theorem hot_reload_fresh_ticket : ∃ s,
    RunWhere (ConfigWatcher.step parseTicket) (Noticed parseTicket) (.initial none) s ∧
      s.Settled ∧ s.Fresh parseTicket ∧ s.mappings.fieldMap.entries = [("ticket", "src_ip")] := by
  let read : Option (List UInt8) := some (ticketFile 1).bytes
  have hentries : ((CustomMappings.load parseTicket read).getD default).fieldMap.entries =
      [("ticket", "src_ip")] := by
    decide +kernel
  have hmissing : InForce parseTicket default none := fun _ h => nomatch h
  have hspawned : RunWhere (ConfigWatcher.step parseTicket) (Noticed parseTicket)
      (.initial none) ⟨none, 0, default, .spawned, none⟩ :=
    .snoc (a := .read none) (.snoc (a := .openFile) .start trivial rfl) trivial rfl
  have hwaiting : RunWhere (ConfigWatcher.step parseTicket) (Noticed parseTicket)
      (.initial none) ⟨some (ticketFile 1), 1, default, .waiting none, none⟩ :=
    .snoc (a := .edit (some (ticketFile 1)))
      (.snoc (a := .sample true) hspawned (fun _ => hmissing) rfl)
      (fun heq : some (1 : ℤ) = none => nomatch heq) rfl
  have hopened : RunWhere (ConfigWatcher.step parseTicket) (Noticed parseTicket)
      (.initial none) ⟨some (ticketFile 1), 1, default, .reloading (some 1) 1 1, none⟩ :=
    .snoc (a := .openFile) (.snoc (a := .sample true) hwaiting (fun _ => .inl rfl) rfl)
      trivial rfl
  have hread : CanRead ⟨some (ticketFile 1), 1, default, .reloading (some 1) 1 1, none⟩ 1 read :=
    .inr (.inl rfl)
  have run : RunWhere (ConfigWatcher.step parseTicket) (Noticed parseTicket) (.initial none)
      ⟨some (ticketFile 1), 1, (CustomMappings.load parseTicket read).getD default,
        .waiting (some 1), some 1⟩ :=
    .snoc (a := .read read) hopened (fun _ => .inr (.inl rfl)) (if_pos (e := none) hread)
  exact ⟨_, run, rfl, ((hot_reload_fresh parseTicket none).1 _ run).1 rfl, hentries⟩

/-- The file is edited between its load and the first look at its time. -/
def editedEarly : List Action :=
  [.openFile, .read none, .edit (some (ticketFile 1)), .sample true, .sample true]

/-- The poll completes, the file parses, and the table in force is not its content. -/
theorem hot_reload_stale : ∃ s,
    Reachable (ConfigWatcher.step parseTicket) (.initial none) s ∧ s.Settled ∧
      ¬ s.Fresh parseTicket := by
  have hend : (exec (ConfigWatcher.step parseTicket) (.initial none) editedEarly).map
      (fun s => (s.polled == some s.edits, s.mappings.fieldMap.entries,
        (CustomMappings.load parseTicket s.content).map (·.fieldMap.entries))) =
      some (true, [], some [("ticket", "src_ip")]) := by
    decide +kernel
  obtain ⟨s, hexec, hend⟩ := Option.map_eq_some_iff.mp hend
  simp only [Prod.mk.injEq] at hend
  obtain ⟨hpolled, hentries, hload⟩ := hend
  refine ⟨s, reachable_of_exec hexec, beq_iff_eq.mp hpolled, fun hfresh => ?_⟩
  obtain ⟨table, htable, htableEntries⟩ := Option.map_eq_some_iff.mp hload
  rw [hfresh table htable, htableEntries] at hentries
  simp at hentries

end WazuhOcsf
