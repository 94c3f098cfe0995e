/-!
The ways in which a command can be refused before it touches a table: text outside the grammar, and
clauses or references that the engine does not support.
-/

namespace Tabulary

inductive CommandError where
  | empty
  | unknownCommand (word : String)
  | unparsable
  | manyStatements
  | statementType (name : String)
  | createKind (kind : String)
  | createUsage
  | noColumns
  | tableElement (text : String)
  | columnWithoutType (column : String)
  | columnConstraint (column text : String)
  | dropKind (kind : String)
  | noTableName (verb : String)
  | insertColumns
  | insertSource
  | insertRows
  | projection
  | clause (name : String)
  | noFrom
  | fromShape
  | joinCount
  | joinWithWhere
  | joinKind (kind : String)
  | joinShape
  | noJoinCondition
  | joinCondition
  | assignment
  | noAssignments
  | updateWithoutWhere
  | deleteWithoutWhere
  | conditionOnKey (verb : String)
  | condition
  | conditionWithoutColumn
  | nullValue
  | notLiteral (text : String)
  | valueCount (expected : Nat) (table : String) (given : Nat)
  | selfJoin
  | joinSides
  | keyAssignment
  | unknownColumn (column table : String)
  | unknownTable (table : String)
  | unknownJoinTable (table : String)
  | unknownJoinColumn (column : String)
  | ambiguousJoinColumn (column : String)
deriving DecidableEq, Repr

namespace CommandError

/-- Whether the text is malformed; otherwise it asks for something outside the supported grammar. -/
def isSyntax : CommandError → Bool
  | empty | unparsable | createUsage | noColumns | columnWithoutType _ | noTableName _ | noFrom
  | noJoinCondition | assignment | noAssignments | conditionWithoutColumn | notLiteral _
  | valueCount _ _ _ | unknownColumn _ _ | unknownTable _ | unknownJoinTable _
  | unknownJoinColumn _ | ambiguousJoinColumn _ => true
  | _ => false

def message : CommandError → String
  | empty => "Empty command"
  | unknownCommand word => s!"Unknown command '{word}'"
  | unparsable => "Failed to parse command: not a well-formed statement"
  | manyStatements => "Multiple statements not supported"
  | statementType name => s!"Unsupported statement type: {name}"
  | createKind kind => s!"CREATE {kind} is not supported"
  | createUsage => "Syntax error. Usage: CREATE TABLE name (col type [UNIQUE], ...)"
  | noColumns => "CREATE TABLE requires at least one column"
  | tableElement text => s!"Unsupported table element: {text}"
  | columnWithoutType column => s!"Column '{column}' is missing a type"
  | columnConstraint column text => s!"Unsupported constraint on column '{column}': {text}"
  | dropKind kind => s!"DROP {kind} is not supported"
  | noTableName verb => s!"{verb} requires a table name"
  | insertColumns =>
    "INSERT column lists are not supported; supply every value in column order"
  | insertSource => "INSERT requires a VALUES list"
  | insertRows => "INSERT supports exactly one row of values"
  | projection => "Only SELECT * is supported"
  | clause name => s!"{name} is not supported"
  | noFrom => "SELECT requires FROM clause"
  | fromShape => "SELECT supports only plain table names in FROM"
  | joinCount => "Only two-table joins are supported"
  | joinWithWhere => "WHERE is not supported together with JOIN"
  | joinKind kind => s!"{kind} JOIN is not supported"
  | joinShape => "JOIN supports only plain table names"
  | noJoinCondition => "JOIN requires an ON t1.col = t2.col condition"
  | joinCondition => "JOIN condition must be an equality between two columns"
  | assignment => "SET expects col = value assignments"
  | noAssignments => "UPDATE requires at least one SET assignment"
  | updateWithoutWhere => "UPDATE requires WHERE id = <value>"
  | deleteWithoutWhere => "Only DELETE ... WHERE id = <value> is supported"
  | conditionOnKey verb => s!"Only {verb} ... WHERE id = <value> is supported"
  | condition => "Only 'column = value' conditions are supported in WHERE"
  | conditionWithoutColumn => "WHERE condition must reference a column"
  | nullValue => "NULL values are not supported"
  | notLiteral text => s!"Expected a literal value, got '{text}'"
  | valueCount expected table given =>
    s!"Expected {expected} values for table '{table}', got {given}"
  | selfJoin => "Self-joins are not supported"
  | joinSides => "JOIN condition must reference one column from each table"
  | keyAssignment => "Cannot update primary key column 'id'"
  | unknownColumn column table => s!"Unknown column '{column}' in table '{table}'"
  | unknownTable table => s!"Unknown table '{table}' in condition"
  | unknownJoinTable table => s!"Unknown table '{table}' in JOIN condition"
  | unknownJoinColumn column => s!"Unknown column '{column}' in JOIN condition"
  | ambiguousJoinColumn column => s!"Ambiguous column '{column}' in JOIN condition"

end CommandError
end Tabulary
