import WazuhOcsf.CustomColumns
import WazuhOcsf.HotReload

/-!
# From an edit of the mapping file to the rows

The watcher and the main loop share the mapping table: `main` loads it and spawns the
watcher, and from then on the watcher replaces it while the loop reads it, for each line and
for each flush.  `Shared` is the two together with whoever edits the file.

`reload_reaches_rows`: once a poll has completed, every line that is received before the next
edit is transformed under the content of the file, wherever the polls, the lines and the
flushes fall.
-/

namespace WazuhOcsf

open Transition

variable {ext : Externals} {cfg : AppConfig} {fromStr : String → Option MappingsToml}

/-! ## The watcher and the loop -/

/-- The watcher and the loop, with the one table they share. -/
structure Shared where
  watcher : ConfigWatcher
  loop : LoopState

namespace Shared

/-- A step of one of the two. -/
inductive Action
  /-- A step of the watcher, of the load at the start, or of whoever edits the file. -/
  | watch (a : ConfigWatcher.Action)
  /-- A step of the loop, or of what it talks to. -/
  | process (a : WazuhOcsf.Action)

/-- Before the table is loaded. -/
def initial (file : Option MappingsFile) (startOffset : ℕ) : Shared :=
  ⟨.initial file, .initial default startOffset⟩

/-- `main` is past the load at the start. -/
def loaded (s : Shared) : Bool :=
  match s.watcher.stage with
  | .starting | .loading _ => false
  | _ => true

/-- A poll that finds another table writes it where the loop reads it. -/
def step (fromStr : String → Option MappingsToml) (ext : Externals) (cfg : AppConfig) (s : Shared) :
    Action → Option Shared
  | .watch a => do
      let watcher ← s.watcher.step fromStr a
      let loop ← WazuhOcsf.step ext cfg s.loop (.reload watcher.mappings)
      return ⟨watcher, loop⟩
  | .process (.reload _) => none
  | .process a =>
      if s.loaded then (WazuhOcsf.step ext cfg s.loop a).map fun loop => { s with loop := loop }
      else none

/-- Everything a step can do. -/
inductive Moves (fromStr : String → Option MappingsToml) (ext : Externals) (cfg : AppConfig)
    (s : Shared) : Action → Shared → Prop
  | watch {a : ConfigWatcher.Action} {watcher : ConfigWatcher}
      (hwatcher : s.watcher.step fromStr a = some watcher) :
      Moves fromStr ext cfg s (.watch a) ⟨watcher, { s.loop with mappings := watcher.mappings }⟩
  | process {a : WazuhOcsf.Action} {loop : LoopState} (hreload : ∀ mappings, a ≠ .reload mappings)
      (hloop : WazuhOcsf.step ext cfg s.loop a = some loop) :
      Moves fromStr ext cfg s (.process a) { s with loop := loop }

theorem moves_of_step {s s' : Shared} {a : Action} (h : s.step fromStr ext cfg a = some s') :
    Moves fromStr ext cfg s a s' := by
  cases a with
  | watch a =>
      obtain ⟨watcher, hwatcher, h⟩ := Option.bind_eq_some_iff.mp h
      cases h
      exact .watch hwatcher
  | process a =>
      by_cases hreload : ∀ mappings, a ≠ .reload mappings
      · have hstep : s.step fromStr ext cfg (.process a) =
            if s.loaded then
              (WazuhOcsf.step ext cfg s.loop a).map fun loop => { s with loop := loop }
            else none := by
          cases a with
          | reload mappings => exact absurd rfl (hreload mappings)
          | _ => rfl
        rw [hstep] at h
        obtain ⟨-, h⟩ := Option.ite_none_right_eq_some.mp h
        obtain ⟨loop, hloop, rfl⟩ := Option.map_eq_some_iff.mp h
        exact .process hreload hloop
      · obtain ⟨mappings, hreload⟩ := not_forall.mp hreload
        obtain rfl := not_not.mp hreload
        cases h

end Shared

/-! ## What the two keep -/

/-- A poll under way began no earlier than the last one that completed. -/
structure SinceInv (s : ConfigWatcher) : Prop where
  changed : ∀ last since, s.stage = .changed last since → ∀ polled ∈ s.polled, polled ≤ since
  reloading : ∀ last since opened, s.stage = .reloading last since opened →
    ∀ polled ∈ s.polled, polled ≤ since

theorem SinceInv.step {s s' : ConfigWatcher} {a : ConfigWatcher.Action} (h : SinceInv s)
    (hpolled : ∀ polled ∈ s.polled, polled ≤ s.edits) (hstep : s.step fromStr a = some s') :
    SinceInv s' := by
  cases ConfigWatcher.moves_of_step hstep with
  | edit hmodified => exact ⟨h.changed, h.reloading⟩
  | openFirst hstage => exact ⟨by simp, by simp⟩
  | openAgain hstage =>
      refine ⟨by simp, fun last since opened heq => ?_⟩
      cases heq
      exact h.changed _ _ hstage
  | load hstage => exact ⟨by simp, by simp⟩
  | reload hstage => exact ⟨by simp, by simp⟩
  | look hstage => exact ⟨by simp, by simp⟩
  | pollChanged hstage hlast =>
      refine ⟨fun last since heq => ?_, by simp⟩
      cases heq
      exact hpolled
  | pollSame hstage hlast =>
      exact ⟨fun last since heq => absurd (hstage.symm.trans heq) (by simp),
        fun last since opened heq => absurd (hstage.symm.trans heq) (by simp)⟩

/-- Without an edit, what a poll has settled stays settled. -/
theorem settled_of_step {s s' : ConfigWatcher} {a : ConfigWatcher.Action} (hsettled : s.Settled)
    (hwatch : WatchInv fromStr s) (hsince : SinceInv s) (hstep : s.step fromStr a = some s')
    (hedit : ∀ file, a ≠ .edit file) : s'.Settled ∧ s'.content = s.content := by
  cases ConfigWatcher.moves_of_step hstep with
  | edit hmodified => exact absurd rfl (hedit _)
  | reload hstage =>
      -- the poll that ends here began after the last edit
      have hafter := hsince.reloading _ _ _ hstage s.edits hsettled
      exact ⟨congrArg some (le_antisymm (hwatch.reloading_le _ _ _ hstage) hafter), rfl⟩
  | pollSame hstage hlast => exact ⟨rfl, rfl⟩
  | _ => exact ⟨hsettled, rfl⟩

/-- What watcher and loop keep together. -/
structure SharedInv (fromStr : String → Option MappingsToml) (s : Shared) : Prop where
  watch : WatchInv fromStr s.watcher
  since : SinceInv s.watcher
  same : s.loop.mappings = s.watcher.mappings

/-- The watcher lets no change of the file slip. -/
def Noticing (fromStr : String → Option MappingsToml) (s : Shared) : Shared.Action → Prop
  | .watch a => Noticed fromStr s.watcher a
  | .process _ => True

theorem SharedInv.step {s s' : Shared} {a : Shared.Action} (h : SharedInv fromStr s)
    (hnoticing : Noticing fromStr s a) (hstep : s.step fromStr ext cfg a = some s') :
    SharedInv fromStr s' := by
  cases Shared.moves_of_step hstep with
  | watch hwatcher =>
      exact ⟨h.watch.step hnoticing hwatcher, h.since.step h.watch.polled_le hwatcher, rfl⟩
  | process hreload hloop =>
      exact ⟨h.watch, h.since, (mappings_of_step hloop hreload).trans h.same⟩

theorem sharedInv_initial (file : Option MappingsFile) (startOffset : ℕ) :
    SharedInv fromStr (.initial file startOffset) :=
  ⟨.initial file, ⟨by simp [Shared.initial, ConfigWatcher.initial],
    by simp [Shared.initial, ConfigWatcher.initial]⟩, rfl⟩

/-! ## Rows under a table -/

/-- Every line received since was transformed under the table. -/
def RowsUnder (ext : Externals) (cfg : AppConfig) (table : CustomMappings)
    (before after : List Event) : Prop :=
  ∃ new, receptions after = receptions before ++ new ∧
    ∀ r ∈ new, r.cfg = cfg ∧ r.mappings = table ∧ r.Sound ext

/-- A step receives no line, or one under the table of the loop. -/
theorem receptions_of_step {s s' : LoopState} {a : Action} (hstep : step ext cfg s a = some s') :
    receptions s'.log = receptions s.log ∨
      ∃ m env, receptions s'.log = receptions s.log ++ [receive ext cfg env s m] := by
  cases moves_of_step ext cfg hstep with
  | send m hopen hroom => exact .inl (by simp [receptions, LoopState.log, Event.reception])
  | recv env m rest hpc hchannel =>
      refine .inr ⟨m, env,
        (congrArg receptions (log_bufferRow_received s (receive ext cfg env s m) rest)).trans ?_⟩
      rw [receptions, List.filterMap_append]
      rfl
  | flush env final hpc =>
      refine .inl ?_
      dsimp only [LoopState.log, receptions]
      rw [DbState.quiet_reception.flushAll _ _ _ _ fun _ _ => rfl,
        DbState.quiet_reception.registerColumns]
  | save inode ok final hpc => exact .inl (by simp [receptions, LoopState.log, Event.reception])
  | _ => exact .inl rfl

theorem RowsUnder.step {table : CustomMappings} {before : List Event} {s s' : LoopState}
    {a : Action} (h : RowsUnder ext cfg table before s.log) (htable : s.mappings = table)
    (hstep : WazuhOcsf.step ext cfg s a = some s') : RowsUnder ext cfg table before s'.log := by
  obtain ⟨new, hnew, hrows⟩ := h
  rcases receptions_of_step hstep with hsame | ⟨m, env, hmore⟩
  · exact ⟨new, hsame.trans hnew, hrows⟩
  · refine ⟨new ++ [receive ext cfg env s m], ?_, ?_⟩
    · rw [hmore, hnew, List.append_assoc]
    · intro r hr
      rcases List.mem_append.mp hr with hbefore | hnow
      · exact hrows r hbefore
      · obtain rfl := List.mem_singleton.mp hnow
        exact ⟨rfl, htable, rfl⟩

/-- The table in force stays the one of the file, and the rows are under it. -/
structure Follows (fromStr : String → Option MappingsToml) (ext : Externals) (cfg : AppConfig)
    (content : Option (List UInt8)) (table : CustomMappings) (before : List Event) (s : Shared) :
    Prop where
  inv : SharedInv fromStr s
  settled : s.watcher.Settled
  content : s.watcher.content = content
  rows : RowsUnder ext cfg table before s.loop.log

theorem Follows.mappings_eq {content : Option (List UInt8)} {table : CustomMappings}
    {before : List Event} {s : Shared} (h : Follows fromStr ext cfg content table before s)
    (hload : CustomMappings.load fromStr content = some table) : s.loop.mappings = table := by
  rw [h.inv.same]
  exact h.inv.watch.settled h.settled table (h.content ▸ hload)

theorem Follows.step {content : Option (List UInt8)} {table : CustomMappings} {before : List Event}
    {s s' : Shared} {a : Shared.Action} (h : Follows fromStr ext cfg content table before s)
    (hload : CustomMappings.load fromStr content = some table) (hnoticing : Noticing fromStr s a)
    (hedit : ∀ file, a ≠ .watch (.edit file)) (hstep : s.step fromStr ext cfg a = some s') :
    Follows fromStr ext cfg content table before s' := by
  have hinv := h.inv.step hnoticing hstep
  cases Shared.moves_of_step hstep with
  | watch hwatcher =>
      obtain ⟨hsettled, hcontent⟩ := settled_of_step h.settled h.inv.watch h.inv.since hwatcher
        fun file heq => hedit file (congrArg _ heq)
      exact ⟨hinv, hsettled, hcontent.trans h.content, h.rows⟩
  | process hreload hloop =>
      exact ⟨hinv, h.settled, h.content, h.rows.step (h.mappings_eq hload) hloop⟩

/-- Once a poll has completed with no edit since it began, and the file parses, every line that
is received until the next edit is transformed under its content, which is also the table the
flushes see; provided the watcher lets no change of the file slip. -/
theorem reload_reaches_rows {file : Option MappingsFile} {startOffset : ℕ} {s s' : Shared}
    (run : RunWhere (Shared.step fromStr ext cfg) (Noticing fromStr) (.initial file startOffset) s)
    (hsettled : s.watcher.Settled) {table : CustomMappings}
    (hload : CustomMappings.load fromStr s.watcher.content = some table)
    (later : RunWhere (Shared.step fromStr ext cfg)
      (fun s a => Noticing fromStr s a ∧ ∀ file, a ≠ .watch (.edit file)) s s') :
    s'.loop.mappings = table ∧ RowsUnder ext cfg table s.loop.log s'.loop.log := by
  have hinv : SharedInv fromStr s :=
    run.invariant (sharedInv_initial file startOffset)
      fun _ _ _ h hnoticing hstep => h.step hnoticing hstep
  have hstart : Follows fromStr ext cfg s.watcher.content table s.loop.log s :=
    ⟨hinv, hsettled, rfl, [], (List.append_nil _).symm, by simp⟩
  have hlater : Follows fromStr ext cfg s.watcher.content table s.loop.log s' :=
    later.invariant hstart fun _ _ _ h hcond hstep => h.step hload hcond.1 hcond.2 hstep
  exact ⟨hlater.mappings_eq hload, hlater.rows⟩

/-- The table of the ticket file. -/
def ticketLoaded : CustomMappings :=
  (CustomMappings.load parseTicket (some (ticketFile 1).bytes)).getD default

/-- The process starts without the file, which is written and then polled. -/
theorem polled_ticket :
    RunWhere (Shared.step parseTicket sampleExternals sampleConfig) (Noticing parseTicket)
      (.initial none 0) ⟨⟨some (ticketFile 1), 1, ticketLoaded, .waiting (some 1), some 1⟩,
        .initial ticketLoaded 0⟩ := by
  have hmissing : InForce parseTicket default none := fun _ h => nomatch h
  have hspawned : RunWhere (Shared.step parseTicket sampleExternals sampleConfig)
      (Noticing parseTicket) (.initial none 0)
      ⟨⟨none, 0, default, .spawned, none⟩, .initial default 0⟩ :=
    .snoc (a := .watch (.read none)) (.snoc (a := .watch .openFile) .start trivial rfl) trivial rfl
  have hwaiting : RunWhere (Shared.step parseTicket sampleExternals sampleConfig)
      (Noticing parseTicket) (.initial none 0)
      ⟨⟨some (ticketFile 1), 1, default, .waiting none, none⟩, .initial default 0⟩ :=
    .snoc (a := .watch (.edit (some (ticketFile 1))))
      (.snoc (a := .watch (.sample true)) hspawned (fun _ => hmissing) rfl)
      (fun heq : some (1 : ℤ) = none => nomatch heq) rfl
  have hopened : RunWhere (Shared.step parseTicket sampleExternals sampleConfig)
      (Noticing parseTicket) (.initial none 0)
      ⟨⟨some (ticketFile 1), 1, default, .reloading (some 1) 1 1, none⟩, .initial default 0⟩ :=
    .snoc (a := .watch .openFile)
      (.snoc (a := .watch (.sample true)) hwaiting (fun _ => .inl rfl) rfl) trivial rfl
  exact .snoc (a := .watch (.read (some (ticketFile 1).bytes))) hopened
    (fun _ => .inr (.inl rfl)) rfl

theorem reload_reaches_rows_ticket : ∃ s s' : Shared,
    RunWhere (Shared.step parseTicket sampleExternals sampleConfig) (Noticing parseTicket)
        (.initial none 0) s ∧
      s.watcher.Settled ∧ s'.loop.mappings.fieldMap.entries = [("ticket", "src_ip")] ∧
      (receptions s'.loop.log).length = 1 ∧
      RowsUnder sampleExternals sampleConfig ticketLoaded s.loop.log s'.loop.log := by
  have hend : (exec (Shared.step parseTicket sampleExternals sampleConfig)
      ⟨⟨some (ticketFile 1), 1, ticketLoaded, .waiting (some 1), some 1⟩, .initial ticketLoaded 0⟩
      [.process (.send ⟨3, sampleLine, 0⟩), .process (.recv default)]).map
      (fun s => (receptions s.loop.log).length) = some 1 := by
    decide +kernel
  have hload : CustomMappings.load parseTicket (some (ticketFile 1).bytes) = some ticketLoaded := by
    have hsome : (CustomMappings.load parseTicket (some (ticketFile 1).bytes)).isSome := by
      decide +kernel
    exact (Option.getD_of_ne_none (Option.isSome_iff_ne_none.mp hsome) _).symm
  obtain ⟨s', hexec, hend⟩ := Option.map_eq_some_iff.mp hend
  have later := runWhere_of_exec (C := fun s a => Noticing parseTicket s a ∧
    ∀ file, a ≠ .watch (.edit file)) hexec
    ⟨⟨trivial, by simp⟩, fun _ _ => ⟨⟨trivial, by simp⟩, fun _ _ => trivial⟩⟩
  obtain ⟨hmappings, hrows⟩ := reload_reaches_rows polled_ticket rfl hload later
  refine ⟨_, s', polled_ticket, rfl, ?_, hend, hrows⟩
  rw [hmappings]
  decide +kernel

end WazuhOcsf
