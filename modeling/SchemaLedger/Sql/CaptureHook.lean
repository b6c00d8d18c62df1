import SchemaLedger.Sql.Quote

/-!
# The hook for statements from outside

The database itself reports every schema-altering statement to a function of the state schema,
which records an inferred step in the transaction of that statement. The function decides as the
recorder of this library does. It is installed together with two event triggers that call it.
-/

namespace SchemaLedger.Sql

/-- The setting by which a transaction keeps its statements out of the history. -/
def suppressSetting : String := "pgroll.no_inferred_migrations"

/-- The event trigger that reports finished commands. -/
def commandTrigger : String := "pg_roll_handle_ddl"

/-- The event trigger that reports dropped objects. -/
def dropTrigger : String := "pg_roll_handle_drop"

/-- The statement that creates the recording function. -/
def captureFunction (stateSchema : String) : String :=
  let s := quoteIdent stateSchema
  let setting := quoteLiteral suppressSetting
  let searchPath := s ++ ", pg_catalog, pg_temp"
  unlines
    [s!"CREATE OR REPLACE FUNCTION {s}.raw_migration ()",
     "    RETURNS event_trigger",
     "    LANGUAGE plpgsql",
     "    SECURITY DEFINER",
     s!"    SET search_path = {searchPath}",
     "    AS $$",
     "DECLARE",
     "    schemaname text;",
     "    migration_id text;",
     "    base_name text;",
     "    stamp text;",
     "BEGIN",
     s!"    IF (pg_catalog.current_setting({setting}, TRUE) = 'TRUE') THEN",
     "        RETURN;",
     "    END IF;",
     "",
     "    IF tg_event = 'sql_drop' AND tg_tag = 'DROP SCHEMA' THEN",
     "        SELECT object_identity INTO schemaname",
     "        FROM pg_catalog.pg_event_trigger_dropped_objects ()",
     "        WHERE object_type = 'schema'",
     "        LIMIT 1;",
     "    ELSIF tg_event = 'sql_drop' AND tg_tag != 'ALTER TABLE' THEN",
     "        SELECT schema_name INTO schemaname",
     "        FROM pg_catalog.pg_event_trigger_dropped_objects ()",
     "        WHERE schema_name IS NOT NULL",
     "        LIMIT 1;",
     "    ELSIF tg_event = 'ddl_command_end' THEN",
     "        IF (",
     "            SELECT pg_catalog.count(DISTINCT schema_name)",
     "            FROM pg_catalog.pg_event_trigger_ddl_commands ()",
     "            WHERE schema_name IS NOT NULL) > 1 THEN",
     "            RETURN;",
     "        END IF;",
     "        IF tg_tag = 'CREATE SCHEMA' THEN",
     "            SELECT object_identity INTO schemaname",
     "            FROM pg_catalog.pg_event_trigger_ddl_commands ()",
     "            LIMIT 1;",
     "        ELSE",
     "            SELECT schema_name INTO schemaname",
     "            FROM pg_catalog.pg_event_trigger_ddl_commands ()",
     "            WHERE schema_name IS NOT NULL",
     "            LIMIT 1;",
     "        END IF;",
     "    END IF;",
     "",
     "    IF schemaname IS NULL THEN",
     "        RETURN;",
     "    END IF;",
     "",
     s!"    IF {s}.is_active_migration_period (schemaname) THEN",
     "        RETURN;",
     "    END IF;",
     "",
     s!"    DELETE FROM {s}.migrations",
     "    WHERE schema = schemaname",
     "        AND created_at = pg_catalog.statement_timestamp()",
     "        AND migration_type = 'inferred'",
     "        AND migration -> 'operations' -> 0 -> 'sql' ->> 'up' = pg_catalog.current_query();",
     "",
     "    SELECT name INTO base_name",
     s!"    FROM {s}.migrations",
     "    WHERE schema = schemaname",
     "        AND migration_type != 'inferred'",
     "    ORDER BY created_at DESC",
     "    LIMIT 1;",
     "",
     "    stamp := pg_catalog.to_char(pg_catalog.clock_timestamp(), 'YYYYMMDDHH24MISSUS');",
     "    IF base_name IS NULL THEN",
     "        migration_id := pg_catalog.format('00000_initial_%s', stamp);",
     "    ELSE",
     "        migration_id := pg_catalog.format('%s_%s', base_name, stamp);",
     "    END IF;",
     "",
     s!"    INSERT INTO {s}.migrations (schema, name, migration, resulting_schema, done, parent, migration_type, created_at, updated_at)",
     "    VALUES (",
     "        schemaname,",
     "        migration_id,",
     "        pg_catalog.jsonb_build_object(",
     "            'version_schema', 'sql_' || pg_catalog.substring(pg_catalog.md5(pg_catalog.random()::text), 1, 8),",
     "            'operations', pg_catalog.jsonb_build_array(",
     "                pg_catalog.jsonb_build_object('sql', pg_catalog.jsonb_build_object('up', pg_catalog.current_query())))),",
     s!"        {s}.read_schema (schemaname),",
     "        TRUE,",
     s!"        {s}.latest_migration (schemaname),",
     "        'inferred',",
     "        pg_catalog.statement_timestamp(),",
     "        pg_catalog.statement_timestamp());",
     "END;",
     "$$;"]

/-- The statements that remove the event triggers. -/
def dropCapture : List String :=
  ["DROP EVENT TRIGGER IF EXISTS " ++ commandTrigger,
    "DROP EVENT TRIGGER IF EXISTS " ++ dropTrigger]

/-- The statements that replace the event triggers. -/
def captureTriggers (stateSchema : String) : List String :=
  let s := quoteIdent stateSchema
  ["DROP EVENT TRIGGER IF EXISTS " ++ commandTrigger,
    s!"CREATE EVENT TRIGGER {commandTrigger} ON ddl_command_end EXECUTE FUNCTION {s}.raw_migration ()",
    "DROP EVENT TRIGGER IF EXISTS " ++ dropTrigger,
    s!"CREATE EVENT TRIGGER {dropTrigger} ON sql_drop EXECUTE FUNCTION {s}.raw_migration ()"]

/-- The statements that install the hook. -/
def installCapture (stateSchema : String) : List String :=
  captureFunction stateSchema :: captureTriggers stateSchema

end SchemaLedger.Sql
