import SchemaLedger.Sql.CaptureHook
import SchemaLedger.Sql.SnapshotFunction

/-!
# The state schema

The statements that create the tool's own tables, indexes and functions in the state schema, and
those that drop them again. All of them can be repeated.
-/

namespace SchemaLedger.Sql

/-- The statement that creates the table of migrations; `s` is the quoted state schema. -/
def migrationsTable (s : String) : String :=
  unlines
    [s!"CREATE TABLE IF NOT EXISTS {s}.migrations (",
     "    schema name NOT NULL,",
     "    name text NOT NULL,",
     "    migration jsonb NOT NULL,",
     "    created_at timestamptz NOT NULL DEFAULT CURRENT_TIMESTAMP,",
     "    updated_at timestamptz NOT NULL DEFAULT CURRENT_TIMESTAMP,",
     "    parent text,",
     "    done boolean NOT NULL DEFAULT FALSE,",
     "    resulting_schema jsonb NOT NULL DEFAULT '\x7b\x7d'::jsonb,",
     "    migration_type varchar(32) DEFAULT 'pgroll'",
     "        CONSTRAINT migration_type_check CHECK (migration_type IN ('pgroll', 'inferred', 'baseline')),",
     "    PRIMARY KEY (schema, name),",
     s!"    CONSTRAINT migrations_parent_fkey FOREIGN KEY (schema, parent) REFERENCES {s}.migrations (schema, name)",
     ")"]

/-- The statement that creates the table of tool versions. -/
def versionsTable (s : String) : String :=
  unlines
    [s!"CREATE TABLE IF NOT EXISTS {s}.pgroll_version (",
     "    version text NOT NULL,",
     "    initialized_at timestamptz NOT NULL DEFAULT CURRENT_TIMESTAMP,",
     "    PRIMARY KEY (version)",
     ")"]

/-- The statements that create the schema, its tables and the unique indexes: one migration in
progress for a schema, one root for a schema, and no two steps with the same parent. -/
def createTables (s : String) : List String :=
  [s!"CREATE SCHEMA IF NOT EXISTS {s}",
    migrationsTable s,
    s!"CREATE UNIQUE INDEX IF NOT EXISTS only_one_active ON {s}.migrations (schema) WHERE done = FALSE",
    s!"CREATE UNIQUE INDEX IF NOT EXISTS only_first_migration_without_parent ON {s}.migrations (schema) WHERE parent IS NULL",
    s!"CREATE UNIQUE INDEX IF NOT EXISTS history_is_linear ON {s}.migrations (schema, parent)",
    versionsTable s]

/-- Tells whether a migration is in progress. -/
def activeFunction (s : String) : String :=
  unlines
    [s!"CREATE OR REPLACE FUNCTION {s}.is_active_migration_period (schemaname name)",
     "    RETURNS boolean",
     "    LANGUAGE sql",
     "    STABLE",
     "    AS $$",
     "    SELECT EXISTS (",
     s!"        SELECT 1 FROM {s}.migrations",
     "        WHERE schema = schemaname AND done = FALSE)",
     "$$"]

/-- Tells the tip of a history. -/
def latestMigrationFunction (s : String) : String :=
  unlines
    [s!"CREATE OR REPLACE FUNCTION {s}.latest_migration (schemaname name)",
     "    RETURNS text",
     "    LANGUAGE sql",
     "    STABLE",
     "    SECURITY DEFINER",
     s!"    SET search_path = {s}, pg_catalog, pg_temp",
     "    AS $$",
     "    SELECT p.name",
     s!"    FROM {s}.migrations p",
     "    WHERE p.schema = schemaname",
     "        AND NOT EXISTS (",
     s!"            SELECT 1 FROM {s}.migrations c",
     "            WHERE c.schema = schemaname AND c.parent = p.name)",
     "    ORDER BY p.created_at DESC",
     "    LIMIT 1",
     "$$"]

/-- Tells the parent of the tip. -/
def previousMigrationFunction (s : String) : String :=
  unlines
    [s!"CREATE OR REPLACE FUNCTION {s}.previous_migration (schemaname name)",
     "    RETURNS text",
     "    LANGUAGE sql",
     "    STABLE",
     "    AS $$",
     "    SELECT parent",
     s!"    FROM {s}.migrations",
     "    WHERE schema = schemaname",
     s!"        AND name = {s}.latest_migration (schemaname)",
     "$$"]

/-- Finds the version schema a number of present namespaces back from the tip. -/
def findVersionFunction (s : String) : String :=
  unlines
    [s!"CREATE OR REPLACE FUNCTION {s}.find_version_schema (p_schema_name name, p_depth integer DEFAULT 0)",
     "    RETURNS text",
     "    LANGUAGE sql",
     "    STABLE",
     "    AS $$",
     "    WITH RECURSIVE ancestors AS (",
     "        SELECT name, COALESCE(migration ->> 'version_schema', name) AS version_schema,",
     "            schema, parent, 0 AS depth",
     s!"        FROM {s}.migrations",
     "        WHERE schema = p_schema_name",
     s!"            AND name = {s}.latest_migration (p_schema_name)",
     "        UNION ALL",
     "        SELECT m.name, COALESCE(m.migration ->> 'version_schema', m.name),",
     "            m.schema, m.parent, a.depth + 1",
     s!"        FROM {s}.migrations m",
     "        JOIN ancestors a ON m.name = a.parent AND m.schema = a.schema",
     "    )",
     "    SELECT a.version_schema",
     "    FROM ancestors a",
     "    WHERE EXISTS (",
     "        SELECT 1 FROM information_schema.schemata sc",
     "        WHERE sc.schema_name = p_schema_name || '_' || a.version_schema)",
     "    ORDER BY a.depth ASC",
     "    OFFSET p_depth",
     "    LIMIT 1",
     "$$"]

/-- Tells the latest version schema. -/
def latestVersionFunction (s : String) : String :=
  unlines
    [s!"CREATE OR REPLACE FUNCTION {s}.latest_version (schemaname name)",
     "    RETURNS text",
     "    LANGUAGE sql",
     "    STABLE",
     "    AS $$",
     s!"    SELECT {s}.find_version_schema (schemaname, 0)",
     "$$"]

/-- Tells the version schema before the latest. -/
def previousVersionFunction (s : String) : String :=
  unlines
    [s!"CREATE OR REPLACE FUNCTION {s}.previous_version (schemaname name)",
     "    RETURNS text",
     "    LANGUAGE sql",
     "    STABLE",
     "    AS $$",
     s!"    SELECT {s}.find_version_schema (schemaname, 1)",
     "$$"]

/-- The statements that create the helper functions. -/
def createHelpers (s : String) : List String :=
  [activeFunction s, latestMigrationFunction s, previousMigrationFunction s,
    findVersionFunction s, latestVersionFunction s, previousVersionFunction s]

/-- The statements that create or upgrade the state schema, in order. Without `capture` the event
triggers of an earlier installation are removed. -/
def initStatements (stateSchema : String) (capture : Bool) : List String :=
  let s := quoteIdent stateSchema
  createTables s ++ createHelpers s ++ [snapshotFunction stateSchema] ++
    (if capture then installCapture stateSchema else dropCapture)

/-- The functions of the state schema, each after those that use it. -/
def helperSignatures : List String :=
  ["raw_migration ()", "read_schema (text)", "previous_version (name)", "latest_version (name)",
    "find_version_schema (name, integer)", "previous_migration (name)", "latest_migration (name)",
    "is_active_migration_period (name)"]

/-- The statements that drop everything in the state schema but keep the schema. -/
def dropObjects (stateSchema : String) : List String :=
  let s := quoteIdent stateSchema
  dropCapture ++ helperSignatures.map (fun f => s!"DROP FUNCTION IF EXISTS {s}.{f}") ++
    [s!"DROP TABLE IF EXISTS {s}.migrations", s!"DROP TABLE IF EXISTS {s}.pgroll_version"]

/-- The statements that drop the state schema with everything in it. -/
def dropStateSchema (stateSchema : String) : List String :=
  dropCapture ++ [s!"DROP SCHEMA IF EXISTS {quoteIdent stateSchema} CASCADE"]

/-- The statement that records a version of the tool. -/
def recordVersion (stateSchema version : String) : String :=
  s!"INSERT INTO {quoteIdent stateSchema}.pgroll_version (version) " ++
    s!"VALUES ({quoteLiteral version}) ON CONFLICT DO NOTHING"

/-- A statement as a paragraph of its own. -/
def paragraph (statement : String) : String := "\n" ++ statement ++ "\n"

end SchemaLedger.Sql
