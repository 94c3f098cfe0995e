import Tabulary.Value

/-!
The ways in which a table definition, or a row offered to a table, can break the rules of its
schema.
-/

namespace Tabulary

inductive SchemaError where
  | emptyTableName
  | duplicateColumn (column table : String)
  | missingKey (table : String)
  | malformedKey (table : String)
  | secondKey
  | notOneKey (table : String)
  | unknownType (name : String)
  | unsupportedType (name column : String)
  | rowWithoutKey
  | rowColumns (given : List String) (table : String) (expected : List String)
  | rowKeyDiffers (id : Value)
  | keyChange (id : Value)
  | tableName (name : String)
  | databaseName (name : String)
  | fileCollision (name other : String)
deriving DecidableEq, Repr

namespace SchemaError

def message : SchemaError → String
  | emptyTableName => "Table name must not be empty"
  | duplicateColumn column table => s!"Duplicate column '{column}' in table '{table}'"
  | missingKey table =>
    s!"Table '{table}' must include an '{Value.keyColumn}' column of type 'int'"
  | malformedKey table =>
    s!"Column '{Value.keyColumn}' of table '{table}' must be an int primary key"
  | secondKey => s!"Only column '{Value.keyColumn}' can be the primary key"
  | notOneKey table =>
    s!"Table '{table}' must include exactly one '{Value.keyColumn}' column of type 'int'"
  | unknownType name => s!"Unsupported column type '{name}' (expected int or string)"
  | unsupportedType name column =>
    s!"Unsupported type '{name}' for column '{column}' (expected int or string)"
  | rowWithoutKey => s!"Row is missing the '{Value.keyColumn}' column"
  | rowColumns given table expected =>
    "Row columns " ++ Text.quotedList given ++ " do not match table '" ++ table ++ "' columns " ++
      Text.quotedList expected
  | rowKeyDiffers id =>
    "Row id " ++ id.plain ++ " does not match its '" ++ Value.keyColumn ++ "' value"
  | keyChange id => "Cannot change '" ++ Value.keyColumn ++ "' of row " ++ id.plain
  | tableName name => s!"Invalid table name '{name}'"
  | databaseName name => s!"Invalid database name '{name}'"
  | fileCollision name other => s!"Table name '{name}' collides with table '{other}'"

/-- The value that the message shows, if it shows one. -/
def value? : SchemaError → Option Value
  | rowKeyDiffers id | keyChange id => some id
  | _ => none

end SchemaError
end Tabulary
