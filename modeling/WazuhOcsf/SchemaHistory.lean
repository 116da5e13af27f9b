import WazuhOcsf.SchemaFit

/-!
# The schema across restarts

A process that ends, or is killed, leaves the tables of the server as they are, and the next
one knows of none of them.  It may be killed between any two statements, and the next one may
run under another configuration.  Whatever it leaves can be upgraded (`ServerLeft.inv`), so
over any number of processes each insert goes to a table that takes it, and no column is
lost: `schema_across_restarts`.
-/

namespace WazuhOcsf

open RustString Transition Trace DbState

variable {ext : Externals} {cfg : AppConfig} {server : Server}

/-! ## Processes on one server -/

/-- The events of a process, to its end or to where it was killed. -/
def IsLogOf (ext : Externals) (cfg : AppConfig) (log : List Event) : Prop :=
  ∃ mappings startOffset s, Reachable (step ext cfg) (.initial mappings startOffset) s ∧
    log <+: s.log

/-- The tables after these events of a process. -/
abbrev AppConfig.ServerRun (cfg : AppConfig) (server : Server) :
    Tables → List Event → Tables → Prop :=
  WazuhOcsf.ServerRun server cfg.clickhouseDb (cfg.dataTtlDays.map BitVec.toNat)

/-- The tables a process leaves.  When it is killed while a statement is under way, there is
no event. -/
inductive ServerLeft (server : Server) (cfg : AppConfig) (start : Tables) (log : List Event) :
    Tables → Prop
  | atEvent {tables : Tables} (h : cfg.ServerRun server start log tables) :
      ServerLeft server cfg start log tables
  | ensuring {tables after : Tables} {table : String} {ok : Bool}
      (before : cfg.ServerRun server start log tables)
      (h : SentAll server
        (ensureStatements cfg.clickhouseDb table (cfg.dataTtlDays.map BitVec.toNat))
        tables ok after) : ServerLeft server cfg start log after
  | adding {tables after : Tables} {table target : String} {ok : Bool}
      (before : cfg.ServerRun server start log tables) (hknown : .ensured table true ∈ log)
      (h : Sent server (columnStatement cfg.clickhouseDb table target) tables ok after) :
      ServerLeft server cfg start log after

/-- Processes one after the other, each with its configuration and its log. -/
inductive ServerLife (server : Server) : Tables → List (AppConfig × List Event) → Tables → Prop
  | none (tables : Tables) : ServerLife server tables [] tables
  | next {start middle after : Tables} {cfg : AppConfig} {log : List Event}
      {later : List (AppConfig × List Event)} (hleft : ServerLeft server cfg start log middle)
      (hlater : ServerLife server middle later after) :
      ServerLife server start ((cfg, log) :: later) after

/-! ## What is left can be upgraded -/

theorem IsLogOf.guarded {log : List Event} (h : IsLogOf ext cfg log) : Guarded DdlGuard log := by
  obtain ⟨mappings, startOffset, s, run, hpre⟩ := h
  exact (ddlFirst_of_reachable run).guarded.of_prefix hpre

theorem ServerLeft.inv {start tables : Tables} {log : List Event} (hstart : Upgradable start)
    (hlog : IsLogOf ext cfg log) (h : ServerLeft server cfg start log tables) :
    ServerInv cfg.clickhouseDb start log tables := by
  cases h with
  | atEvent h => exact serverInv_of_serverRun hstart hlog.guarded h
  | ensuring before h =>
      have hinv := serverInv_of_serverRun hstart hlog.guarded before
      exact hinv.mono h.extends (h.upgradable (ensures_ensureStatements _ _ _) hinv.upgradable)
  | adding before hknown h =>
      exact (serverInv_of_serverRun hstart hlog.guarded before).addTarget hknown h

/-- A column that a process has added, on the tables of some later moment. -/
def HasColumn (tables : Tables) (db : String) (column : String × String) : Prop :=
  ∃ schema, tables (tableKey db column.1) = some schema ∧
    safeName column.2 ∈ schema.map Prod.fst

theorem HasColumn.extends {tables after : Tables} {db : String} {column : String × String}
    (h : HasColumn tables db column) (hext : Extends tables after) : HasColumn after db column := by
  obtain ⟨schema, hschema, hmem⟩ := h
  obtain ⟨schema', hschema', hpre⟩ := hext _ _ hschema
  exact ⟨schema', hschema', (hpre.map Prod.fst).subset hmem⟩

/-- What the server has after a number of processes. -/
structure LifeInv (start : Tables) (processes : List (AppConfig × List Event)) (after : Tables) :
    Prop where
  extends_start : Extends start after
  upgradable : Upgradable after
  columns : ∀ p ∈ processes, ∀ column ∈ addedColumns p.2, HasColumn after p.1.clickhouseDb column

theorem ServerLife.inv {start after : Tables} {processes : List (AppConfig × List Event)}
    (hlogs : ∀ p ∈ processes, IsLogOf ext p.1 p.2) (hstart : Upgradable start)
    (h : ServerLife server start processes after) : LifeInv start processes after := by
  induction h with
  | none tables => exact ⟨.refl tables, hstart, by simp⟩
  | @next start middle after cfg log later hleft hlater ih =>
      rw [List.forall_mem_cons] at hlogs
      have hinv := hleft.inv hstart hlogs.1
      have hrest := ih hlogs.2 hinv.upgradable
      refine ⟨hinv.extends_start.trans hrest.extends_start, hrest.upgradable, ?_⟩
      refine List.forall_mem_cons.mpr ⟨fun column hcolumn => ?_, hrest.columns⟩
      -- what this process has added, the processes after it keep
      have hadded : HasColumn middle cfg.clickhouseDb column :=
        hinv.added _ _ (DbState.mem_addedColumns.mp hcolumn)
      exact hadded.extends hrest.extends_start

/-- Over any number of processes that end or are killed between any two statements, whatever
the server makes of the statements: if its tables were of this or an earlier release at the
start, each insert of each process goes to a table that has every column of the record, the
columns added for mapping targets stay, and no table loses a column. -/
theorem schema_across_restarts {start after : Tables}
    {processes : List (AppConfig × List Event)}
    (hlogs : ∀ p ∈ processes, IsLogOf ext p.1 p.2) (hstart : Upgradable start)
    (hlife : ServerLife server start processes after) :
    (∀ past cfg log later, processes = past ++ (cfg, log) :: later →
      ∀ middle, ServerLife server start past middle →
      ∀ before table rows ok rest, log = before ++ .inserted table rows ok :: rest →
      ∀ tables, cfg.ServerRun server middle before tables →
        ∃ schema, tables (tableKey cfg.clickhouseDb table) = some schema ∧ schema.Takes) ∧
    (∀ p ∈ processes, ∀ column ∈ addedColumns p.2, HasColumn after p.1.clickhouseDb column) ∧
    Extends start after ∧ Upgradable after := by
  have hinv := hlife.inv hlogs hstart
  refine ⟨?_, hinv.columns, hinv.extends_start, hinv.upgradable⟩
  intro past cfg log later hprocesses middle hpast before table rows ok rest hlog tables hserver
  have hmiddle : Upgradable middle :=
    (hpast.inv (fun p hp => hlogs p (by simp [hprocesses, hp])) hstart).upgradable
  have hguard : Guarded DdlGuard log := (hlogs (cfg, log) (by simp [hprocesses])).guarded
  have hknown : .ensured table true ∈ before := hguard before _ rest hlog
  have hbefore : Guarded DdlGuard before :=
    hguard.of_prefix ⟨_, hlog.symm⟩
  exact (serverInv_of_serverRun hmiddle hbefore hserver).takes table hknown

/-- A process is killed while it creates the table; the next one adds the column. -/
theorem schema_across_restarts_ticket : ∃ first second after,
    IsLogOf sampleExternals sampleConfig first ∧ IsLogOf sampleExternals sampleConfig second ∧
      addedColumns first = [] ∧
      ServerLife .willing (fun _ => none) [(sampleConfig, first), (sampleConfig, second)] after ∧
      HasColumn after "wazuh" (sampleTable, "ticket_id") := by
  have hend : (exec (step sampleExternals sampleConfig) (.initial ticketMappings 0)
      (sampleTick ++ [.flush default])).map (fun s => addedColumns s.log) =
      some [(sampleTable, "ticket_id")] := by
    decide +kernel
  obtain ⟨s, hexec, hend⟩ := Option.map_eq_some_iff.mp hend
  have run := reachable_of_exec hexec
  have hkilled : IsLogOf sampleExternals sampleConfig [] := ⟨_, _, s, run, List.nil_prefix⟩
  have hflushed : IsLogOf sampleExternals sampleConfig s.log := ⟨_, _, s, run, List.prefix_rfl⟩
  have hstart : Upgradable fun _ => none := fun _ _ hsome => absurd hsome (Option.some_ne_none _).symm
  -- the table is created, and the answer is lost
  have hleft : ServerLeft .willing sampleConfig (fun _ => none) [] _ :=
    @ServerLeft.ensuring _ _ _ _ _ _ sampleTable _ .start (.next (.confirmed rfl) (.stop (.lost rfl)))
  have hup := (hleft.inv hstart hkilled).upgradable
  obtain ⟨after, hserver⟩ := @exists_serverRun "wazuh" none _ hup _ hflushed.guarded
  have hlife : ServerLife .willing (fun _ => none) [(sampleConfig, []), (sampleConfig, s.log)] after :=
    .next hleft (.next (.atEvent hserver) (.none after))
  refine ⟨[], s.log, after, hkilled, hflushed, rfl, hlife, ?_⟩
  have hlogs : ∀ p ∈ [(sampleConfig, []), (sampleConfig, s.log)],
      IsLogOf sampleExternals p.1 p.2 := by
    simp only [List.forall_mem_cons]
    exact ⟨hkilled, hflushed, List.forall_mem_nil _⟩
  exact (schema_across_restarts hlogs hstart hlife).2.1 (sampleConfig, s.log) (by simp)
    (sampleTable, "ticket_id") (by simp [hend])

end WazuhOcsf
