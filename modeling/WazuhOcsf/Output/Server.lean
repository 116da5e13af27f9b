import WazuhOcsf.Output.Ddl

/-!
# The server behind the statements

What ClickHouse makes of the DDL of `output/db.rs`: which tables there are and which columns
they have.  A statement may be refused, applied and confirmed, or applied without the
confirmation arriving; `ensure_table` sends its statements one after the other and stops at
the first one that is not confirmed.

* `SentAll.extends`: whatever becomes of the statements, a table only gains columns;
* `SentAll.upgradable`: broken off anywhere, they leave a table that can be upgraded;
* `SentAll.takes`: once all of them are confirmed, the table takes the rows of this release.
-/

namespace WazuhOcsf

open RustString Entries

/-! ## Statements -/

/-- The columns of `migratedColumns`, by name. -/
def migratedNames : List String :=
  ["wazuh_rule_level", "wazuh_fired_times", "pci_dss", "gdpr", "hipaa", "nist_800_53", "cve_id",
   "cvss_score"]

/-- The statements of the DDL. -/
inductive Statement
  | createDatabase (db : String)
  | createTable (db table : String) (ttlDays : Option ℕ)
  /-- `ADD COLUMN` for a column that tables of earlier releases lack. -/
  | migrate (db table name definition : String)
  /-- `ADD COLUMN` for a mapping target. -/
  | addTarget (db table target : String)

namespace Statement

/-- The text that is sent. -/
def render : Statement → String
  | .createDatabase db => WazuhOcsf.createDatabase db
  | .createTable db table ttlDays => WazuhOcsf.createTable db table ttlDays
  | .migrate db table _ definition => WazuhOcsf.addColumn db table definition
  | .addTarget db table target => WazuhOcsf.addColumn db table (customColumn (safeName target))

end Statement

/-- The database and the table that a qualified name addresses. -/
def tableKey (db table : String) : String × String := (splitOnce '.' table).getD (db, table)

/-- What the statements of `ensure_table` do. -/
def ensureStatements (db table : String) (ttlDays : Option ℕ) : List Statement :=
  let (dbPart, tblPart) := tableKey db table
  .createDatabase db :: .createTable dbPart tblPart ttlDays ::
    (migratedNames.zip migratedColumns).map fun column => .migrate dbPart tblPart column.1 column.2

theorem render_ensureStatements (db table : String) (ttlDays : Option ℕ) :
    (ensureStatements db table ttlDays).map Statement.render = ensureTable db table ttlDays := rfl

theorem render_addTarget {table dbPart tblPart : String}
    (hsplit : splitOnce '.' table = some (dbPart, tblPart)) (columns : List String) :
    ((ensureCustomColumns table columns fun _ => true).map
      (Statement.addTarget dbPart tblPart)).map Statement.render =
      customColumnStatements table columns := by
  rw [customColumnStatements_eq hsplit, List.map_map]
  rfl

/-- Every migration names its column first, and it is a column of the record. -/
theorem migrations_named : ∀ column ∈ migratedNames.zip migratedColumns,
    startsWith column.2 (quoted column.1) ∧ column.1 ∈ tableColumns.map Prod.fst := by
  decide +kernel

/-! ## Schemas -/

namespace Schema

/-- The cell of a record that a column stores. -/
def baseCell (name : String) : OcsfRecord → Cell :=
  (baseColumns.lookup name).getD fun _ => .string ""

/-- `ADD COLUMN IF NOT EXISTS` for a column of the record. -/
def addBase (schema : Schema) (name : String) : Schema :=
  if name ∈ schema.map Prod.fst then schema else schema ++ [(name, .stored (baseCell name))]

/-- Every column of the record is there and stored, but for some of `names` that are missing. -/
def LacksOnly (schema : Schema) (names : List String) : Prop :=
  ∀ column ∈ baseColumns, schema.lookup column.1 = some (.stored column.2) ∨
    column.1 ∉ schema.map Prod.fst ∧ column.1 ∈ names

/-- A record can be inserted: every column of it is there and stored. -/
def Takes (schema : Schema) : Prop :=
  ∀ column ∈ baseColumns, schema.lookup column.1 = some (.stored column.2)

end Schema

theorem nodup_baseColumns : (baseColumns.map Prod.fst).Nodup := by decide +kernel

namespace Schema

variable {schema schema' : Schema} {name : String} {names : List String}

theorem baseCell_of_mem {column : String × (OcsfRecord → Cell)} (h : column ∈ baseColumns) :
    baseCell column.1 = column.2 := by
  rw [baseCell, lookup_of_mem nodup_baseColumns h, Option.getD_some]

theorem prefix_addBase (schema : Schema) (name : String) : schema <+: schema.addBase name := by
  unfold addBase
  split
  · exact List.prefix_rfl
  · exact List.prefix_append _ _

theorem prefix_addColumn (schema : Schema) (name : String) : schema <+: schema.addColumn name := by
  unfold addColumn
  split
  · exact List.prefix_rfl
  · exact List.prefix_append _ _

/-- After `ADD COLUMN IF NOT EXISTS` the column is there. -/
theorem mem_addColumn (schema : Schema) (name : String) :
    name ∈ (schema.addColumn name).map Prod.fst := by
  unfold addColumn
  split
  · next hmem => exact hmem
  · simp

theorem Takes.mono (h : schema.Takes) (hpre : schema <+: schema') : schema'.Takes :=
  fun column hcolumn => hpre.lookup_eq_some (h column hcolumn)

theorem Takes.lacksOnly (h : schema.Takes) (names : List String) : schema.LacksOnly names :=
  fun column hcolumn => .inl (h column hcolumn)

theorem LacksOnly.takes (h : schema.LacksOnly []) : schema.Takes :=
  fun column hcolumn => (h column hcolumn).resolve_right fun hmissing =>
    absurd hmissing.2 List.not_mem_nil

theorem takes_baseSchema : baseSchema.Takes := by
  have hnodup : (baseSchema.map Prod.fst).Nodup := by
    rw [baseSchema, List.map_map]
    exact nodup_baseColumns
  exact fun column hcolumn => lookup_of_mem hnodup (List.mem_map_of_mem
    (f := fun column => (column.1, ColumnSource.stored column.2)) hcolumn)

/-- A migration takes its column off the missing ones. -/
theorem LacksOnly.addBase (h : schema.LacksOnly (name :: names)) :
    (schema.addBase name).LacksOnly names := by
  intro column hcolumn
  rcases h column hcolumn with hstored | ⟨hmissing, hname⟩
  · exact .inl ((prefix_addBase schema name).lookup_eq_some hstored)
  · by_cases heq : column.1 = name
    · subst heq
      refine .inl ?_
      rw [Schema.addBase, if_neg hmissing, lookup_append_of_not_mem hmissing,
        baseCell_of_mem hcolumn]
    · refine .inr ⟨?_, (List.mem_cons.mp hname).resolve_left heq⟩
      rw [Schema.addBase]
      split
      · exact hmissing
      · rw [List.map_append, List.mem_append, not_or]
        exact ⟨hmissing, by simpa using heq⟩

/-- No migration makes a column go missing. -/
theorem LacksOnly.addBase_same (h : schema.LacksOnly names) (name : String) :
    (schema.addBase name).LacksOnly names :=
  LacksOnly.addBase fun column hcolumn =>
    (h column hcolumn).imp_right fun hmissing => ⟨hmissing.1, List.mem_cons_of_mem _ hmissing.2⟩

end Schema

/-! ## What becomes of a statement -/

/-- The tables of the server, by database and name. -/
abbrev Tables := String × String → Option Schema

/-- The documented effect of a statement that is applied.  `ALTER` needs its table. -/
def Statement.effect (tables : Tables) : Statement → Option Tables
  | .createDatabase _ => some tables
  | .createTable db table _ =>
      let schema := (tables (db, table)).getD baseSchema
      some (Function.update tables (db, table) (some schema))
  | .migrate db table name _ => (tables (db, table)).map fun schema =>
      Function.update tables (db, table) (some (schema.addBase name))
  | .addTarget db table target => (tables (db, table)).map fun schema =>
      Function.update tables (db, table) (some (schema.addColumn (safeName target)))

/-- The part of ClickHouse the DDL rests on: what the statements it applies do to the
tables.  Which ones it applies is its own affair. -/
structure Server where
  applies : Statement → Tables → Tables → Prop
  /-- `CREATE DATABASE` touches no table. -/
  createDatabase {db : String} {tables after : Tables}
    (h : applies (.createDatabase db) tables after) : after = tables
  /-- `CREATE TABLE IF NOT EXISTS` leaves a table alone that is there. -/
  createTable {db table : String} {ttlDays : Option ℕ} {tables after : Tables}
    (h : applies (.createTable db table ttlDays) tables after) :
    after = Function.update tables (db, table) (some ((tables (db, table)).getD baseSchema))
  /-- `ADD COLUMN IF NOT EXISTS` puts a column behind the others. -/
  migrate {db table name definition : String} {tables after : Tables}
    (h : applies (.migrate db table name definition) tables after) :
    ∃ schema, tables (db, table) = some schema ∧
      after = Function.update tables (db, table) (some (schema.addBase name))
  /-- A materialized column is added the same way. -/
  addTarget {db table target : String} {tables after : Tables}
    (h : applies (.addTarget db table target) tables after) :
    ∃ schema, tables (db, table) = some schema ∧
      after = Function.update tables (db, table) (some (schema.addColumn (safeName target)))

namespace Server

/-- What a server applies has the documented effect. -/
theorem effect_of_applies (server : Server) {statement : Statement} {tables after : Tables}
    (h : server.applies statement tables after) : statement.effect tables = some after := by
  cases statement with
  | createDatabase db => exact congrArg some (server.createDatabase h).symm
  | createTable db table ttlDays => exact congrArg some (server.createTable h).symm
  | migrate db table name definition =>
      obtain ⟨schema, hschema, rfl⟩ := server.migrate h
      rw [Statement.effect, hschema, Option.map_some]
  | addTarget db table target =>
      obtain ⟨schema, hschema, rfl⟩ := server.addTarget h
      rw [Statement.effect, hschema, Option.map_some]

/-- The server that applies whatever it can. -/
def willing : Server where
  applies statement tables after := statement.effect tables = some after
  createDatabase h := (Option.some.inj h).symm
  createTable h := (Option.some.inj h).symm
  migrate h := by
    obtain ⟨schema, hschema, rfl⟩ := Option.map_eq_some_iff.mp h
    exact ⟨schema, hschema, rfl⟩
  addTarget h := by
    obtain ⟨schema, hschema, rfl⟩ := Option.map_eq_some_iff.mp h
    exact ⟨schema, hschema, rfl⟩

end Server

/-- What can become of a statement: whether it is confirmed, and the tables after it. -/
inductive Sent (server : Server) (statement : Statement) (tables : Tables) : Bool → Tables → Prop
  | confirmed {after : Tables} (h : server.applies statement tables after) :
      Sent server statement tables true after
  | refused : Sent server statement tables false tables
  /-- It was applied, and the connection broke before the answer. -/
  | lost {after : Tables} (h : server.applies statement tables after) :
      Sent server statement tables false after

/-- Statements one after the other, up to the first that is not confirmed. -/
inductive SentAll (server : Server) : List Statement → Tables → Bool → Tables → Prop
  | done (tables : Tables) : SentAll server [] tables true tables
  | next {statement : Statement} {rest : List Statement} {tables middle after : Tables} {ok : Bool}
      (hfirst : Sent server statement tables true middle)
      (hrest : SentAll server rest middle ok after) :
      SentAll server (statement :: rest) tables ok after
  | stop {statement : Statement} {rest : List Statement} {tables after : Tables}
      (hfirst : Sent server statement tables false after) :
      SentAll server (statement :: rest) tables false after

/-- No table is gone, and none has lost a column. -/
def Extends (before after : Tables) : Prop :=
  ∀ key schema, before key = some schema → ∃ schema', after key = some schema' ∧ schema <+: schema'

/-- Every table is of this or an earlier release. -/
def Upgradable (tables : Tables) : Prop :=
  ∀ key schema, tables key = some schema → schema.LacksOnly migratedNames

theorem Extends.refl (tables : Tables) : Extends tables tables :=
  fun _ schema h => ⟨schema, h, List.prefix_rfl⟩

theorem Extends.trans {before middle after : Tables} (h : Extends before middle)
    (h' : Extends middle after) : Extends before after := by
  intro key schema hkey
  obtain ⟨schema', hkey', hpre⟩ := h key schema hkey
  obtain ⟨schema'', hkey'', hpre'⟩ := h' key schema' hkey'
  exact ⟨schema'', hkey'', hpre.trans hpre'⟩

/-- A table that gains columns, or is new. -/
theorem extends_update {tables : Tables} {key : String × String} {schema : Schema}
    (h : ∀ old, tables key = some old → old <+: schema) :
    Extends tables (Function.update tables key (some schema)) := by
  intro key' old hold
  by_cases hsame : key' = key
  · subst hsame
    exact ⟨schema, Function.update_self .., h old hold⟩
  · exact ⟨old, by rw [Function.update_of_ne hsame, hold], List.prefix_rfl⟩

theorem Upgradable.update {tables : Tables} (h : Upgradable tables) {key : String × String}
    {schema : Schema} (hschema : schema.LacksOnly migratedNames) :
    Upgradable (Function.update tables key (some schema)) := by
  intro key' old hold
  by_cases hsame : key' = key
  · subst hsame
    rw [Function.update_self] at hold
    exact Option.some.inj hold ▸ hschema
  · rw [Function.update_of_ne hsame] at hold
    exact h key' old hold

namespace Statement

variable {statement : Statement} {tables after : Tables}

theorem extends_of_effect (h : statement.effect tables = some after) : Extends tables after := by
  cases statement with
  | createDatabase db => exact Option.some.inj h ▸ .refl tables
  | createTable db table ttlDays =>
      obtain rfl := Option.some.inj h
      exact extends_update fun old hold => by rw [hold, Option.getD_some]
  | migrate db table name definition =>
      obtain ⟨schema, hschema, rfl⟩ := Option.map_eq_some_iff.mp h
      refine extends_update fun old hold => ?_
      obtain rfl := Option.some.inj (hold.symm.trans hschema)
      exact old.prefix_addBase name
  | addTarget db table target =>
      obtain ⟨schema, hschema, rfl⟩ := Option.map_eq_some_iff.mp h
      refine extends_update fun old hold => ?_
      obtain rfl := Option.some.inj (hold.symm.trans hschema)
      exact old.prefix_addColumn _

/-- The statements of `ensure_table`: a custom column is added by none of them. -/
def Ensures : Statement → Prop
  | .addTarget _ _ _ => False
  | _ => True

theorem upgradable_of_effect (hensures : statement.Ensures) (hup : Upgradable tables)
    (h : statement.effect tables = some after) : Upgradable after := by
  cases statement with
  | createDatabase db => exact Option.some.inj h ▸ hup
  | createTable db table ttlDays =>
      obtain rfl := Option.some.inj h
      refine hup.update ?_
      cases hold : tables (db, table) with
      | none => exact Schema.takes_baseSchema.lacksOnly _
      | some old => exact hup _ old hold
  | migrate db table name definition =>
      obtain ⟨schema, hschema, rfl⟩ := Option.map_eq_some_iff.mp h
      exact hup.update ((hup _ schema hschema).addBase_same name)
  | addTarget db table target => exact hensures.elim

end Statement

variable {server : Server} {tables after : Tables}

theorem Sent.effect_or_same {statement : Statement} {ok : Bool}
    (h : Sent server statement tables ok after) :
    statement.effect tables = some after ∨ ok = false ∧ after = tables := by
  cases h with
  | confirmed h => exact .inl (server.effect_of_applies h)
  | refused => exact .inr ⟨rfl, rfl⟩
  | lost h => exact .inl (server.effect_of_applies h)

theorem Sent.extends {statement : Statement} {ok : Bool}
    (h : Sent server statement tables ok after) :
    Extends tables after := by
  rcases h.effect_or_same with heffect | ⟨-, rfl⟩
  · exact Statement.extends_of_effect heffect
  · exact .refl after

theorem Sent.upgradable {statement : Statement} {ok : Bool}
    (h : Sent server statement tables ok after)
    (hensures : statement.Ensures) (hup : Upgradable tables) : Upgradable after := by
  rcases h.effect_or_same with heffect | ⟨-, rfl⟩
  · exact Statement.upgradable_of_effect hensures hup heffect
  · exact hup

theorem SentAll.extends {statements : List Statement} {ok : Bool}
    (h : SentAll server statements tables ok after) : Extends tables after := by
  induction h with
  | done tables => exact .refl tables
  | next hfirst _ ih => exact hfirst.extends.trans ih
  | stop hfirst => exact hfirst.extends

theorem SentAll.upgradable {statements : List Statement} {ok : Bool}
    (h : SentAll server statements tables ok after) (hensures : ∀ s ∈ statements, s.Ensures)
    (hup : Upgradable tables) : Upgradable after := by
  induction h with
  | done tables => exact hup
  | next hfirst _ ih =>
      rw [List.forall_mem_cons] at hensures
      exact ih hensures.2 (hfirst.upgradable hensures.1 hup)
  | stop hfirst => exact hfirst.upgradable (List.forall_mem_cons.mp hensures).1 hup

/-! ## A table that is ensured -/

theorem Sent.effect_of_true {statement : Statement} (h : Sent server statement tables true after) :
    statement.effect tables = some after := by
  cases h with
  | confirmed h => exact server.effect_of_applies h

/-- Once every migration is confirmed, no column is missing. -/
theorem SentAll.takes_of_migrations {db table : String} {columns : List (String × String)}
    (h : SentAll server (columns.map fun column => .migrate db table column.1 column.2) tables true
      after)
    {schema : Schema} (hschema : tables (db, table) = some schema)
    (hlacks : schema.LacksOnly (columns.map Prod.fst)) :
    ∃ schema', after (db, table) = some schema' ∧ schema'.Takes := by
  induction columns generalizing tables schema with
  | nil =>
      cases h with
      | done => exact ⟨schema, hschema, hlacks.takes⟩
  | cons column rest ih =>
      cases h with
      | next hfirst hrest =>
          have heffect := hfirst.effect_of_true
          rw [Statement.effect, hschema, Option.map_some, Option.some.injEq] at heffect
          subst heffect
          exact ih hrest (Function.update_self ..) hlacks.addBase

/-- `ensure_table` returns `Ok` only when the table takes the rows. -/
theorem SentAll.takes {db table : String} {ttlDays : Option ℕ}
    (h : SentAll server (ensureStatements db table ttlDays) tables true after)
    (hup : Upgradable tables) :
    ∃ schema, after (tableKey db table) = some schema ∧ schema.Takes := by
  rw [ensureStatements] at h
  generalize tableKey db table = key at h ⊢
  obtain ⟨dbPart, tblPart⟩ := key
  cases h with
  | next hdatabase hrest =>
      obtain rfl := Option.some.inj hdatabase.effect_of_true
      cases hrest with
      | next hcreate hmigrate =>
          obtain rfl := Option.some.inj hcreate.effect_of_true
          refine hmigrate.takes_of_migrations (Function.update_self ..) ?_
          cases hold : tables (dbPart, tblPart) with
          | none => exact Schema.takes_baseSchema.lacksOnly _
          | some old => exact hup _ old hold

theorem ensures_ensureStatements (db table : String) (ttlDays : Option ℕ) :
    ∀ statement ∈ ensureStatements db table ttlDays, statement.Ensures := by
  intro statement hstatement
  rcases List.mem_cons.mp hstatement with rfl | hrest
  · trivial
  · rcases List.mem_cons.mp hrest with rfl | hmigrate
    · trivial
    · obtain ⟨column, -, rfl⟩ := List.mem_map.mp hmigrate
      trivial

end WazuhOcsf
