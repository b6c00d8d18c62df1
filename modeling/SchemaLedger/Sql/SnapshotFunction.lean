import SchemaLedger.Sql.Quote

/-!
# Schema snapshots

A function of the state schema describes a schema as a document: its tables with their columns,
keys, indexes and constraints. A snapshot is read by calling it.
-/

namespace SchemaLedger.Sql

/-- An expression that spells out the action of a foreign key. -/
def actionCase (column : String) : String :=
  s!"CASE {column} WHEN 'a' THEN 'NO ACTION' WHEN 'r' THEN 'RESTRICT' " ++
    "WHEN 'c' THEN 'CASCADE' WHEN 'd' THEN 'SET DEFAULT' WHEN 'n' THEN 'SET NULL' END"

/-- An expression for the columns of a constraint, in the order of its keys. -/
def constraintColumns (relation keys : String) : String :=
  s!"(SELECT jsonb_agg(a.attname ORDER BY array_position({keys}::int[], a.attnum::int)) " ++
    "FROM pg_catalog.pg_attribute a " ++
    s!"WHERE a.attrelid = {relation} AND a.attnum = ANY ({keys}))"

/-- The statement that creates the describing function. -/
def snapshotFunction (stateSchema : String) : String :=
  let s := quoteIdent stateSchema
  let columns := constraintColumns "con.conrelid" "con.conkey"
  let referenced := constraintColumns "con.confrelid" "con.confkey"
  let onDelete := actionCase "con.confdeltype"
  let onUpdate := actionCase "con.confupdtype"
  unlines
    [s!"CREATE OR REPLACE FUNCTION {s}.read_schema (schemaname text)",
     "    RETURNS jsonb",
     "    LANGUAGE sql",
     "    STABLE",
     "    AS $$",
     "    SELECT jsonb_build_object('name', schemaname, 'tables', COALESCE((",
     "        SELECT jsonb_object_agg(t.relname, jsonb_strip_nulls(jsonb_build_object(",
     "            'name', t.relname,",
     "            'oid', t.oid,",
     "            'comment', pg_catalog.obj_description(t.oid, 'pg_class'),",
     "            'columns', (",
     "                SELECT jsonb_object_agg(a.attname, jsonb_build_object(",
     "                    'name', a.attname,",
     "                    'default', pg_catalog.pg_get_expr(d.adbin, d.adrelid),",
     "                    'nullable', NOT (a.attnotnull OR (tp.typtype = 'd' AND tp.typnotnull)),",
     "                    'type', replace(replace(pg_catalog.format_type(a.atttypid, a.atttypmod),",
     "                        'character varying', 'varchar'), 'timestamp with time zone', 'timestamptz'),",
     "                    'comment', pg_catalog.col_description(t.oid, a.attnum),",
     "                    'unique', EXISTS (",
     "                        SELECT 1 FROM pg_catalog.pg_index i",
     "                        WHERE i.indrelid = t.oid AND i.indisunique",
     "                            AND ARRAY[a.attnum::int] @> i.indkey::int[]),",
     "                    'enumValues', (",
     "                        SELECT jsonb_agg(e.enumlabel ORDER BY e.enumsortorder)",
     "                        FROM pg_catalog.pg_enum e WHERE e.enumtypid = tp.oid),",
     "                    'postgresType', CASE tp.typtype",
     "                        WHEN 'b' THEN 'base' WHEN 'c' THEN 'composite' WHEN 'd' THEN 'domain'",
     "                        WHEN 'e' THEN 'enum' WHEN 'p' THEN 'pseudo' WHEN 'r' THEN 'range'",
     "                        WHEN 'm' THEN 'multirange' END))",
     "                FROM pg_catalog.pg_attribute a",
     "                JOIN pg_catalog.pg_type tp ON tp.oid = a.atttypid",
     "                LEFT JOIN pg_catalog.pg_attrdef d ON d.adrelid = a.attrelid AND d.adnum = a.attnum",
     "                WHERE a.attrelid = t.oid AND a.attnum > 0 AND NOT a.attisdropped),",
     "            'primaryKey', (",
     "                SELECT jsonb_agg(a.attname ORDER BY array_position(i.indkey::int[], a.attnum::int))",
     "                FROM pg_catalog.pg_index i",
     "                JOIN pg_catalog.pg_attribute a ON a.attrelid = i.indrelid AND a.attnum = ANY (i.indkey)",
     "                WHERE i.indrelid = t.oid AND i.indisprimary),",
     "            'indexes', (",
     "                SELECT jsonb_object_agg(c.relname, jsonb_build_object(",
     "                    'name', c.relname,",
     "                    'unique', i.indisunique,",
     "                    'exclusion', i.indisexclusion,",
     "                    'columns', (",
     "                        SELECT jsonb_agg(a.attname ORDER BY array_position(i.indkey::int[], a.attnum::int))",
     "                        FROM pg_catalog.pg_attribute a",
     "                        WHERE a.attrelid = i.indrelid AND a.attnum = ANY (i.indkey)),",
     "                    'predicate', pg_catalog.pg_get_expr(i.indpred, i.indrelid),",
     "                    'method', am.amname,",
     "                    'definition', pg_catalog.pg_get_indexdef(i.indexrelid)))",
     "                FROM pg_catalog.pg_index i",
     "                JOIN pg_catalog.pg_class c ON c.oid = i.indexrelid",
     "                JOIN pg_catalog.pg_am am ON am.oid = c.relam",
     "                WHERE i.indrelid = t.oid),",
     "            'checkConstraints', (",
     "                SELECT jsonb_object_agg(con.conname, jsonb_build_object(",
     "                    'name', con.conname,",
     s!"                    'columns', {columns},",
     "                    'definition', pg_catalog.pg_get_constraintdef(con.oid),",
     "                    'noInherit', con.connoinherit))",
     "                FROM pg_catalog.pg_constraint con",
     "                WHERE con.conrelid = t.oid AND con.contype = 'c'),",
     "            'uniqueConstraints', (",
     "                SELECT jsonb_object_agg(con.conname, jsonb_build_object(",
     "                    'name', con.conname,",
     s!"                    'columns', {columns}))",
     "                FROM pg_catalog.pg_constraint con",
     "                WHERE con.conrelid = t.oid AND con.contype = 'u'),",
     "            'excludeConstraints', (",
     "                SELECT jsonb_object_agg(con.conname, jsonb_build_object(",
     "                    'name', con.conname,",
     s!"                    'columns', {columns},",
     "                    'definition', pg_catalog.pg_get_constraintdef(con.oid)))",
     "                FROM pg_catalog.pg_constraint con",
     "                WHERE con.conrelid = t.oid AND con.contype = 'x'),",
     "            'foreignKeys', (",
     "                SELECT jsonb_object_agg(con.conname, jsonb_build_object(",
     "                    'name', con.conname,",
     s!"                    'columns', {columns},",
     "                    'referencedTable', (SELECT r.relname FROM pg_catalog.pg_class r WHERE r.oid = con.confrelid),",
     s!"                    'referencedColumns', {referenced},",
     "                    'matchType', CASE con.confmatchtype",
     "                        WHEN 'f' THEN 'FULL' WHEN 'p' THEN 'PARTIAL' WHEN 's' THEN 'SIMPLE' END,",
     s!"                    'onDelete', {onDelete},",
     s!"                    'onUpdate', {onUpdate}))",
     "                FROM pg_catalog.pg_constraint con",
     "                WHERE con.conrelid = t.oid AND con.contype = 'f'))))",
     "        FROM pg_catalog.pg_class t",
     "        JOIN pg_catalog.pg_namespace ns ON ns.oid = t.relnamespace",
     "        WHERE ns.nspname = schemaname",
     "            AND t.relkind IN ('r', 'p')), '\x7b\x7d'::jsonb));",
     "$$;"]

/-- The statement that reads a snapshot; the name of the schema is its parameter. -/
def readSnapshot (stateSchema : String) : String :=
  s!"select {quoteIdent stateSchema}.read_schema(:name)"

end SchemaLedger.Sql
