import Tabulary.Sql.Tree
import Tabulary.Text.Upper

/-!
The normal form in which expressions are shown: one blank around an operator, keywords in capitals,
strings between single quotes, and back quotes around a name only where it needs them or had them.
-/

namespace Tabulary
namespace Sql

/-- Words that a name is told apart from by back quotes. -/
def reservedNames : List String :=
  ["accessible", "add", "all", "alter", "analyze", "and", "as", "asc", "asensitive", "before",
   "between", "bigint", "binary", "blob", "both", "by", "call", "cascade", "case", "change", "char",
   "character", "check", "collate", "column", "condition", "constraint", "continue", "convert",
   "create", "cross", "cube", "cume_dist", "current_date", "current_time", "current_timestamp",
   "current_user", "cursor", "database", "databases", "day_hour", "day_microsecond", "day_minute",
   "day_second", "dec", "decimal", "declare", "default", "delayed", "delete", "dense_rank", "desc",
   "describe", "deterministic", "distinct", "distinctrow", "div", "double", "drop", "dual", "each",
   "else", "elseif", "empty", "enclosed", "escaped", "except", "exists", "exit", "explain", "false",
   "fetch", "first_value", "float", "float4", "float8", "for", "force", "foreign", "from",
   "fulltext", "function", "generated", "get", "grant", "group", "grouping", "groups", "having",
   "high_priority", "hour_microsecond", "hour_minute", "hour_second", "if", "ignore", "in", "index",
   "infile", "inner", "inout", "insensitive", "insert", "int", "int1", "int2", "int3", "int4",
   "int8", "integer", "intersect", "interval", "into", "io_after_gtids", "io_before_gtids", "is",
   "iterate", "join", "json_table", "key", "keys", "kill", "lag", "last_value", "lateral", "lead",
   "leading", "leave", "left", "like", "limit", "linear", "lines", "load", "localtime",
   "localtimestamp", "lock", "long", "longblob", "longtext", "loop", "low_priority", "master_bind",
   "master_ssl_verify_server_cert", "match", "maxvalue", "mediumblob", "mediumint", "mediumtext",
   "middleint", "minute_microsecond", "minute_second", "mod", "modifies", "natural", "not",
   "no_write_to_binlog", "nth_value", "ntile", "null", "numeric", "of", "on", "optimize",
   "optimizer_costs", "option", "optionally", "or", "order", "out", "outer", "outfile", "over",
   "partition", "percent_rank", "precision", "primary", "procedure", "purge", "range", "rank",
   "read", "reads", "read_write", "real", "recursive", "references", "regexp", "release", "rename",
   "repeat", "replace", "require", "resignal", "restrict", "return", "revoke", "right", "rlike",
   "row", "rows", "row_number", "schema", "schemas", "second_microsecond", "select", "sensitive",
   "separator", "set", "show", "signal", "smallint", "spatial", "specific", "sql", "sqlexception",
   "sqlstate", "sqlwarning", "sql_big_result", "sql_calc_found_rows", "sql_small_result", "ssl",
   "starting", "stored", "straight_join", "system", "table", "terminated", "then", "tinyblob",
   "tinyint", "tinytext", "to", "trailing", "trigger", "true", "undo", "union", "unique", "unlock",
   "unsigned", "update", "usage", "use", "using", "utc_date", "utc_time", "utc_timestamp", "values",
   "varbinary", "varchar", "varcharacter", "varying", "virtual", "when", "where", "while", "window",
   "with", "write", "xor", "year_month", "zerofill"]

namespace Name

def print (n : Name) : String :=
  let doubled := String.ofList (n.text.toList.flatMap fun c => if c = '\x60' then [c, c] else [c])
  if n.quoted || reservedNames.contains (String.ofList (n.text.toList.map Char.toLower)) then
    "\x60" ++ doubled ++ "\x60"
  else doubled

end Name

namespace QualifiedName

def print (q : QualifiedName) : String :=
  ".".intercalate ((q.qualifiers ++ [q.name]).map Name.print)

end QualifiedName

namespace Operator

def print : Operator → String
  | or => "OR" | xor => "XOR" | and => "AND"
  | eq => "=" | neq => "<>" | sameAs => "<=>"
  | lt => "<" | le => "<=" | gt => ">" | ge => ">="
  | bitAnd => "&" | bitOr => "|" | bitXor => "^" | shiftLeft => "<<" | shiftRight => ">>"
  | add => "+" | sub => "-" | mod => "%" | mul => "*" | div => "/" | intDiv => "DIV"
  | like => "LIKE" | regexp => "RLIKE" | isValue => "IS"

def typeName : Operator → String
  | or => "Or" | xor => "Xor" | and => "And"
  | eq => "EQ" | neq => "NEQ" | sameAs => "NullSafeEQ"
  | lt => "LT" | le => "LTE" | gt => "GT" | ge => "GTE"
  | bitAnd => "BitwiseAnd" | bitOr => "BitwiseOr" | bitXor => "BitwiseXor"
  | shiftLeft => "BitwiseLeftShift" | shiftRight => "BitwiseRightShift"
  | add => "Add" | sub => "Sub" | mod => "Mod" | mul => "Mul" | div => "Div" | intDiv => "IntDiv"
  | like => "Like" | regexp => "RegexpLike" | isValue => "Is"

end Operator

def printChar (c : Char) : List Char :=
  match c with
  | '\x27' => ['\x27', '\x27']
  | '\\' => ['\\', '\\']
  | '\x07' => ['\\', 'a']
  | '\x08' => ['\\', 'b']
  | '\x0c' => ['\\', 'f']
  | '\n' => ['\\', 'n']
  | '\r' => ['\\', 'r']
  | '\t' => ['\\', 't']
  | '\x0b' => ['\\', 'v']
  | c => [c]

def printText (s : String) : String :=
  String.ofList ('\x27' :: s.toList.flatMap printChar ++ ['\x27'])

def printAlias : Option Name → String
  | none => ""
  | some a => " AS " ++ a.print

def parens (items : List String) : String := "(" ++ ", ".intercalate items ++ ")"

def printClause (c : Clause) (clauses : List (Clause × String)) : String :=
  match clauses.find? (·.1 = c) with
  | some (_, s) => " " ++ s
  | none => ""

mutual

def Expr.print : Expr → String
  | .number s => s
  | .text s => printText s
  | .marked m s => String.singleton m ++ printText s
  | .null => "NULL"
  | .bool b => if b then "TRUE" else "FALSE"
  | .star => "*"
  | .column c => c.print
  | .allOf t => t.print ++ ".*"
  | .dot e name => e.print ++ "." ++ name.print
  | .neg e =>
    let s := e.print
    if s.startsWith "-" then "- " ++ s else "-" ++ s
  | .bitNot e => "~" ++ e.print
  | .not e => "NOT " ++ e.print
  | .binary op l r => l.print ++ " " ++ op.print ++ " " ++ r.print
  | .between e low high => e.print ++ " BETWEEN " ++ low.print ++ " AND " ++ high.print
  | .inside e items => e.print ++ " IN " ++ parens (printAll items)
  | .insideQuery e q => e.print ++ " IN (" ++ q.print ++ ")"
  | .paren e => "(" ++ e.print ++ ")"
  | .tuple items => parens (printAll items)
  | .subquery q => "(" ++ q.print ++ ")"
  | .exists q => "EXISTS(" ++ q.print ++ ")"
  | .call name args =>
    (if name.quoted then name.print else Text.capitals name.text) ++ parens (printAll args)
  | .concat items => "CONCAT" ++ parens (printAll items)
  | .alias e name => e.print ++ " AS " ++ name.print
  | .cast e type => "CAST(" ++ e.print ++ " AS " ++ type ++ ")"
  | .verbatim s => s

def printAll : List Expr → List String
  | [] => []
  | e :: rest => e.print :: printAll rest

def Source.print : Source → String
  | .table t a joins => t.print ++ printAlias a ++ "".intercalate (printJoins joins)
  | .query q a => "(" ++ q.print ++ ")" ++ printAlias a
  | .other s => s

def Join.print : Join → String
  | .mk "" source none => ", " ++ source.print
  | .mk kind source on? =>
    (if kind = "" then " JOIN " else " " ++ kind ++ " JOIN ") ++ source.print ++
      match on? with
      | none => ""
      | some e => " ON " ++ e.print

def printJoins : List Join → List String
  | [] => []
  | j :: rest => j.print :: printJoins rest

def Query.print : Query → String
  | .mk projections source? joins where? clauses =>
    "SELECT" ++ printClause .distinct clauses ++
      (if projections.isEmpty then "" else " ") ++ ", ".intercalate (printAll projections) ++
      (match source? with
        | none => ""
        | some s => " FROM " ++ s.print) ++
      "".intercalate (printJoins joins) ++
      (match where? with
        | none => ""
        | some e => " WHERE " ++ e.print) ++
      printClause .group clauses ++ printClause .having clauses ++ printClause .qualify clauses ++
      printClause .order clauses ++ printClause .limit clauses ++ printClause .offset clauses
  | .combined operation l r => l.print ++ " " ++ operation ++ " " ++ r.print

end

def Expr.typeName : Expr → String
  | .number _ | .text _ => "Literal"
  | .marked 'x' _ => "HexString"
  | .marked 'b' _ => "BitString"
  | .marked _ _ => "National"
  | .null => "Null"
  | .bool _ => "Boolean"
  | .star => "Star"
  | .column _ | .allOf _ => "Column"
  | .dot _ _ => "Dot"
  | .neg _ => "Neg"
  | .bitNot _ => "BitwiseNot"
  | .not _ => "Not"
  | .binary op _ _ => op.typeName
  | .between _ _ _ => "Between"
  | .inside _ _ | .insideQuery _ _ => "In"
  | .paren _ => "Paren"
  | .tuple _ => "Tuple"
  | .subquery _ => "Subquery"
  | .exists _ => "Exists"
  | .call _ _ => "Anonymous"
  | .concat _ => "Concat"
  | .alias _ _ => "Alias"
  | .cast _ _ => "Cast"
  | .verbatim _ => "Placeholder"

end Sql
end Tabulary
