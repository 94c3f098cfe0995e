import Tabulary.Sql.Grammar.Query

/-!
Definitions: the elements of a table, the types and rules of its columns, and the statements that
create and drop things.
-/

namespace Tabulary
namespace Sql
namespace Grammar

open Sql.Parser

/-- The words that name a type, and the name each is shown as. -/
def typeNames : List (String × String) :=
  [("INT", "INT"), ("INTEGER", "INT"), ("INT4", "INT"), ("BIGINT", "BIGINT"), ("INT8", "BIGINT"),
   ("SIGNED", "BIGINT"), ("UNSIGNED", "UBIGINT"), ("TINYINT", "TINYINT"), ("INT1", "TINYINT"),
   ("SMALLINT", "SMALLINT"), ("INT2", "SMALLINT"), ("MEDIUMINT", "MEDIUMINT"),
   ("STRING", "TEXT"), ("TEXT", "TEXT"), ("CLOB", "TEXT"), ("LONGVARCHAR", "TEXT"),
   ("TINYTEXT", "TEXT"), ("MEDIUMTEXT", "TEXT"), ("LONGTEXT", "TEXT"), ("VARCHAR", "VARCHAR"),
   ("NVARCHAR", "VARCHAR"), ("CHARACTER VARYING", "VARCHAR"), ("CHAR VARYING", "VARCHAR"),
   ("CHAR", "CHAR"), ("NCHAR", "CHAR"), ("CHARACTER", "CHAR"), ("BOOL", "BOOLEAN"),
   ("BOOLEAN", "BOOLEAN"), ("BIT", "BIT"), ("DECIMAL", "DECIMAL"), ("DEC", "DECIMAL"),
   ("NUMERIC", "DECIMAL"), ("FIXED", "DECIMAL"), ("FLOAT", "FLOAT"), ("FLOAT4", "FLOAT"),
   ("REAL", "FLOAT"), ("DOUBLE", "DOUBLE"), ("DOUBLE PRECISION", "DOUBLE"), ("FLOAT8", "DOUBLE"),
   ("DATE", "DATE"), ("TIME", "TIME"), ("DATETIME", "DATETIME"), ("TIMESTAMP", "TIMESTAMPTZ"),
   ("YEAR", "YEAR"), ("JSON", "JSON"), ("UUID", "UUID"), ("XML", "XML"), ("ENUM", "ENUM"),
   ("SET", "SET"), ("BINARY", "BINARY"), ("VARBINARY", "VARBINARY"), ("BLOB", "VARBINARY"),
   ("TINYBLOB", "TINYBLOB"), ("MEDIUMBLOB", "MEDIUMBLOB"), ("LONGBLOB", "LONGBLOB"),
   ("GEOMETRY", "GEOMETRY")]

/-- Types that can be without a sign. -/
def signedTypes : List String :=
  ["INT", "BIGINT", "SMALLINT", "TINYINT", "MEDIUMINT", "DECIMAL", "DOUBLE"]

/-- The first word of a type, which may stand between back quotes. -/
def typeWord : Parser (Option String) :=
  acceptMap fun
    | .word w | .name w => typeNames.lookup (Text.capitals w)
    | _ => none

/-- An argument of a type: a value, or a word in capitals. -/
def typeArgument (g : Grammar) : Parser (Option String) := do
  match ← operand g with
  | none => pure none
  | some (.column ⟨[], n⟩) => return some (Text.capitals n.text)
  | some e => return some e.print

def dataType (g : Grammar) : Parser (Option String) := attempt do
  match ← typeWord with
  | none => pure none
  | some w =>
    let arguments ← if ← symbol "(" then do
        let found ← csv (typeArgument g)
        guard !found.isEmpty
        expectSymbol ")"
        pure (parens found)
      else pure ""
    if ← word "UNSIGNED" then
      guard (signedTypes.contains w)
      return some ("U" ++ w ++ arguments)
    else return some (w ++ arguments)

/-- What becomes of a row that refers to one that is changed or deleted. -/
def reaction : Parser (Option String) := attempt do
  if !(← word "ON") then return none
  let occasion ← need (oneOfWords [("DELETE", "DELETE"), ("UPDATE", "UPDATE")])
  let action ← if ← words ["NO", "ACTION"] then pure "NO ACTION"
    else if ← words ["SET", "NULL"] then pure "SET NULL"
    else if ← words ["SET", "DEFAULT"] then pure "SET DEFAULT"
    else need (oneOfWords [("CASCADE", "CASCADE"), ("RESTRICT", "RESTRICT")])
  return some (" ON " ++ occasion ++ " " ++ action)

def columnNames : Parser String := do
  return parens ((← wrapped (csv name)).map Name.print)

/-- The table and columns that are referred to, after `REFERENCES`. -/
def reference : Parser String := do
  let t ← need tableName
  let columns ← if ← sees (·.isSymbol "(") then (" " ++ ·) <$> columnNames else pure ""
  let reactions ← many reaction
  return "REFERENCES " ++ t.print ++ columns ++ "".intercalate reactions

def keyParts (g : Grammar) : Parser String := do
  return parens (← wrapped (csv (orderItem g)))

/-- The rest of a uniqueness rule.  A name that follows is the name of its index. -/
def uniqueRest (g : Grammar) : Parser String := do
  let _ ← oneOfWords [("KEY", ()), ("INDEX", ())]
  let name? ← name
  let columns ← if ← sees (·.isSymbol "(") then (" " ++ ·) <$> keyParts g else pure ""
  return (name?.map fun n => " " ++ n.print).getD "" ++ columns

def check (g : Grammar) : Parser String := do
  let e ← wrapped (need (condition g))
  let enforced ← word "ENFORCED"
  return "CHECK (" ++ e.print ++ ")" ++ if enforced then " ENFORCED" else ""

def columnRule (g : Grammar) : Parser (Option ColumnRule) := do
  let label? ← if ← word "CONSTRAINT" then some <$> need name else pure none
  let other (text : String) : ColumnRule :=
    .other ((label?.map fun n => "CONSTRAINT " ++ n.print ++ " ").getD "" ++ text)
  if ← word "UNIQUE" then
    let _ ← uniqueRest g
    return some .unique
  if ← word "PRIMARY KEY" then
    if ← sees (·.isSymbol "(") then return some (other ("PRIMARY KEY " ++ (← keyParts g)))
    let _ ← oneOfWords [("ASC", ()), ("DESC", ())]
    return some .primaryKey
  if ← words ["NOT", "NULL"] then return some (other "NOT NULL")
  if ← word "NULL" then return some (other "NULL")
  if ← word "DEFAULT" then return some (other ("DEFAULT " ++ (← need (bitwise g)).print))
  if ← accept fun t => t.isWord "AUTO_INCREMENT" || t.isWord "AUTOINCREMENT" then
    return some (other "AUTO_INCREMENT")
  if ← word "CHECK" then return some (other (← check g))
  if ← word "COMMENT" then return some (other ("COMMENT " ++ (← need strings).print))
  if ← word "COLLATE" then return some (other ("COLLATE " ++ (← need anyName).print))
  if ← word "REFERENCES" then return some (other (← reference))
  if ← words ["ON", "UPDATE"] then
    return some (other ("ON UPDATE " ++ (← need (operand g)).print))
  if ← word "ZEROFILL" then return some (other "ZEROFILL")
  if label?.isSome then failure else return none

def indexRule (g : Grammar) : Parser (Option String) := do
  let kind? ← oneOfWords [("INDEX", "INDEX"), ("KEY", "INDEX"), ("FULLTEXT", "FULLTEXT INDEX"),
    ("SPATIAL", "SPATIAL INDEX")]
  match kind? with
  | none => pure none
  | some kind =>
    if kind ≠ "INDEX" then
      let _ ← oneOfWords [("KEY", ()), ("INDEX", ())]
    let name? ← name
    let columns ← keyParts g
    return some (kind ++ (name?.map fun n => " " ++ n.print).getD "" ++ " " ++ columns)

def tableRule (g : Grammar) : Parser (Option String) := do
  if ← word "PRIMARY KEY" then
    let name? ← attempt do
      match ← name with
      | none => pure none
      | some n => return if ← sees (·.isSymbol "(") then some n else none
    let shown := (name?.map fun n => " " ++ n.print).getD ""
    if ← sees (·.isSymbol "(") then
      return some ("PRIMARY KEY" ++ shown ++ " " ++ (← keyParts g))
    else return some "PRIMARY KEY"
  if ← word "UNIQUE" then return some ("UNIQUE" ++ (← uniqueRest g))
  if ← word "CHECK" then return some (← check g)
  if ← word "FOREIGN KEY" then
    let columns ← columnNames
    if !(← word "REFERENCES") then return some ("FOREIGN KEY " ++ columns)
    return some ("FOREIGN KEY " ++ columns ++ " " ++ (← reference))
  if ← word "LIKE" then return some ("LIKE " ++ (← need tableName).print)
  indexRule g

def fieldName : Parser (Option (String × String)) := do
  match ← firstOf [acceptMap atom?, strings] with
  | some e => return some (valueName e, e.print)
  | none => return (← anyName).map fun n => (n.text, n.print)
where
  valueName : Expr → String
    | .number s | .text s | .marked _ s => s
    | .null => "NULL"
    | .star => "*"
    | _ => ""

def element (g : Grammar) : Parser (Option Element) := do
  if ← word "CONSTRAINT" then
    let label ← need name
    let rules ← many (tableRule g)
    return some (.other ("CONSTRAINT " ++ " ".intercalate (label.print :: rules)))
  if let some s ← tableRule g then return some (.other s)
  match ← fieldName with
  | none => pure none
  | some (name, shown) =>
    let type? ← dataType g
    let rules ← many (columnRule g)
    if type?.isNone && rules.isEmpty then return some (.other shown)
    else return some (.column name type? rules)

/-- The elements of a table between parentheses, unless these hold a query. -/
def elements (g : Grammar) : Parser (Option (List Element)) := fun ts =>
  match ts with
  | .symbol "(" :: rest =>
    if rest.head?.any fun t => t.isSymbol "(" || t.isWord "SELECT" || t.isWord "WITH" then
      some (none, ts)
    else (return some (← wrapped (csv (element g))) : Parser _) ts
  | _ => some (none, ts)

def property (g : Grammar) : Parser (Option Unit) := attempt do
  if ← word "LIKE" then
    let _ ← need tableName
    return some ()
  let _ ← word "DEFAULT"
  match ← oneOfWords (["ENGINE", "COMMENT", "AUTO_INCREMENT", "CHARSET", "CHARACTER SET",
    "COLLATE", "ROW_FORMAT"].map (·, ())) with
  | some _ =>
    let _ ← symbol "="
    let _ ← need anyName
    return some ()
  | none =>
    let _ ← need column
    expectSymbol "="
    match ← bitwise g with
    | some _ => return some ()
    | none =>
      let _ ← need anyName
      return some ()

/-- A query, with or without parentheses. -/
def innerQuery (g : Grammar) : Parser (Option Query) := do
  match ← g.query with
  | some q => return some q
  | none => attempt (return some (← wrapped (need g.query)))

/-- The words that make a definition conditional, behind another that is passed over.  The first of
each is not told apart from a name, and stays taken even if the others do not follow. -/
def ifExists (negated : Bool) : Parser Bool := do
  let _ ← spelled "CONCURRENTLY"
  if !(← spelled "IF") then return false
  if negated then
    if !(← word "NOT") then return false
  word "EXISTS"

/-- A statement that could not be read to its end is taken as a whole, unless it is cut by a bracket
or a comma. -/
def wholeOr (s : Statement) : Parser Statement := do
  if ← sees fun t => !(t.isSymbol ")" || t.isSymbol ",") then
    skipAll
    return .other "Command"
  else return s

def createIndex (g : Grammar) : Parser Statement := do
  if !(← sees (·.isWord "ON")) then
    let _ ← need name
  let _ ← word "ON"
  let _ ← word "TABLE"
  let _ ← need tableName
  if ← sees (·.isSymbol "(") then
    let _ ← keyParts g
  wholeOr (.create "INDEX")

def temporary : Parser (Option Unit) := oneOfWords [("TEMPORARY", ()), ("TEMP", ())]

def create (g : Grammar) : Parser Statement := do
  let _ ← words ["OR", "REPLACE"]
  let _ ← word "UNIQUE"
  let _ ← temporary
  match ← oneOfWords (["TABLE", "VIEW", "INDEX", "DATABASE", "SCHEMA"].map fun w => (w, w)) with
  | none =>
    skipAll
    return .other "Command"
  | some kind =>
    let ifNotExists ← ifExists true
    if kind = "INDEX" then createIndex g
    else
      let t ← need tableName
      let _ ← symbol ","
      let elements? ← elements g
      let _ ← many (property g)
      let _ ← word "AS"
      let _ ← many (property g)
      let _ ← innerQuery g
      wholeOr (if kind = "TABLE" then .createTable t ifNotExists elements? else .create kind)

def drop : Parser Statement := do
  let _ ← temporary
  match ← oneOfWords (["TABLE", "VIEW", "INDEX", "DATABASE"].map fun w => (w, w)) with
  | none =>
    skipAll
    return .other "Command"
  | some kind =>
    let ifExists ← ifExists false
    let t ← need tableName
    if ← word "ON" then
      let _ ← need name
    let _ ← word "CASCADE"
    let _ ← word "CONSTRAINTS"
    let _ ← word "PURGE"
    return .drop kind ifExists t

end Grammar
end Sql
end Tabulary
