import Tabulary.Sql.Grammar.Basic

/-!
Expressions.  From the loosest operators to the tightest: `OR`; `AND` and `XOR`; `=` and `<>`; `<`
and its kin; `BETWEEN`, `IN`, `LIKE` and `IS`; the bitwise ones; sums; products; signs.
-/

namespace Tabulary
namespace Sql
namespace Grammar

open Sql.Parser

def operator (table : List (Token × Operator)) : Parser (Option (Expr → Expr → Expr)) :=
  acceptMap fun t =>
    (table.find? fun (shape, _) =>
      match shape with
      | .word w => t.isWord w
      | shape => t = shape).map fun (_, op) => Expr.binary op

/-- How many rows are wanted, and how many are passed over before them. -/
def limit (g : Grammar) : Parser (Option (Expr × Option Expr)) := do
  if !(← word "LIMIT") then return none
  let first ← need g.expr
  if ← symbol "," then return some (← need g.expr, some first)
  else return some (first, none)

/-- How many rows are passed over. -/
def offset (g : Grammar) : Parser (Option Expr) := do
  if !(← word "OFFSET") then return none
  let count ← need g.expr
  let _ ← oneOfWords [("ROW", ()), ("ROWS", ())]
  return some count

/-- Whether the next token begins a `LIMIT` or an `OFFSET` and not a name. -/
def limitFollows (g : Grammar) : Parser Bool := fun ts =>
  match limit g ts, offset g ts with
  | some (some _, _), _ | _, some (some _, _) => some (true, ts)
  | _, _ => some (false, ts)

def aliased (g : Grammar) (expr : Parser (Option Expr)) : Parser (Option Expr) := do
  let e? ← expr
  if ← limitFollows g then return e?
  let alias? ← if ← word "AS" then anyName else do
    match ← name with
    | some n => pure (some n)
    | none => textName
  match e?, alias? with
  | e?, none => pure e?
  | some e, some a => return some (.alias e a)
  | none, some _ => failure

def atom? : Token → Option Expr
  | .number s => some (.number s)
  | .marked m s => some (.marked m s)
  | .word w =>
    match Text.capitals w with
    | "NULL" => some .null
    | "TRUE" => some (.bool true)
    | "FALSE" => some (.bool false)
    | _ => none
  | .symbol "*" => some .star
  | .symbol "?" => some (.verbatim "?")
  | _ => none

/-- Strings next to each other are joined. -/
def strings : Parser (Option Expr) := do
  let items ← many (acceptMap fun
    | .text s => some (Expr.text s)
    | _ => none)
  match items with
  | [] => pure none
  | [e] => return some e
  | items => return some (.concat items)

/-- What stands between parentheses: a query, an expression, or a tuple. -/
def inParens (g : Grammar) : Parser (Option Expr) := do
  if !(← symbol "(") then return none
  let e ← (do
    match ← g.query with
    | some q => return Expr.subquery q
    | none =>
      let items ← slots (aliased g g.expr)
      match items with
      | [some e] => return .paren e
      | items =>
        match items.flatMap Option.toList, items.getLast? with
        | [e], some (some _) => return .paren e
        | es, _ => return .tuple es)
  expectSymbol ")"
  return some e

def parameter : Parser (Option Expr) := do
  match ← oneOf with
  | none => pure none
  | some mark => return some (.verbatim (mark ++ (← need anyName).text))
where
  oneOf : Parser (Option String) :=
    acceptMap fun
      | .symbol ":" => some ":"
      | .symbol "@" => some "@"
      | _ => none

/-- A fraction without digits before its point. -/
def fraction : Parser (Option Expr) := attempt do
  if !(← symbol ".") then return none
  acceptMap fun
    | .number s => some (Expr.number ("0." ++ s))
    | _ => none

/-- Types that turn a string behind them into a value of that type, and the type it is cast to. -/
def literalTypes : List (String × String) :=
  [("DATE", "DATE"), ("TIME", "TIME"), ("DATETIME", "DATETIME"), ("INT", "SIGNED"),
   ("INTEGER", "SIGNED"), ("BIGINT", "SIGNED"), ("SMALLINT", "SIGNED"), ("TINYINT", "SIGNED"),
   ("DECIMAL", "DECIMAL"), ("FLOAT", "FLOAT"), ("DOUBLE", "DOUBLE"), ("CHAR", "CHAR"),
   ("VARCHAR", "CHAR"), ("TEXT", "CHAR"), ("JSON", "JSON")]

def typed : Parser (Option Expr) := attempt do
  match ← oneOfWords literalTypes with
  | none => pure none
  | some type => acceptMap fun
    | .text s => some (Expr.cast (.text s) type)
    | .number s => some (Expr.cast (.number s) type)
    | _ => none

/-- A call of a function, of which `VALUES` is one. -/
def call (g : Grammar) : Parser (Option Expr) := attempt do
  match ← nameExcept (keywords.erase "VALUES") with
  | none => pure none
  | some f =>
    if !(← symbol "(") then return none
    if !f.quoted && Text.capitals f.text = "EXISTS" then
      if let some q ← g.query then
        expectSymbol ")"
        return some (.exists q)
    let args ← csv (aliased g g.expr)
    expectSymbol ")"
    return some (.call f args)

def bareCalls : List String := ["CURRENT_TIMESTAMP", "CURRENT_DATE", "CURRENT_TIME", "CURRENT_USER"]

def column : Parser (Option Expr) := do
  match ← name with
  | none => pure none
  | some n =>
    if !n.quoted && bareCalls.contains (Text.capitals n.text) then return some (.call n [])
    else return some (.column ⟨[], n⟩)

/-- The first of some parsers that finds something. -/
def firstOf : List (Parser (Option Expr)) → Parser (Option Expr)
  | [] => pure none
  | p :: rest => do
    match ← p with
    | some e => return some e
    | none => firstOf rest

/-- A name behind a point.  A column has at most three names before its own. -/
def member (e : Expr) (part : Option Name) : Expr :=
  match e, part with
  | .column c, some n =>
    if c.qualifiers.length < 3 then .column ⟨c.qualifiers ++ [c.name], n⟩ else .dot e n
  | .column c, none => if c.qualifiers.length < 3 then .allOf c else .dot e ⟨"*", false⟩
  | e, some n => .dot e n
  | e, none => .dot e ⟨"*", false⟩

def operand (g : Grammar) : Parser (Option Expr) := do
  match ← firstOf [typed, acceptMap atom?, strings, fraction, inParens g, call g, column,
    parameter] with
  | none => pure none
  | some e =>
    let parts ← many do
      if !(← symbol ".") then return none
      if ← symbol "*" then return some none
      return some (some (← need anyName))
    return some (parts.foldl member e)

/-- An operand with its signs.  A plus sign is passed over; `NOT` takes a whole comparison. -/
def signed (g : Grammar) : Parser (Option Expr) := do
  if ← symbol "+" then g.unary
  else if ← symbol "-" then return some (.neg (← need g.unary))
  else if ← symbol "~" then return some (.bitNot (← need g.unary))
  else if ← accept (fun t => t.isWord "NOT" || t.isSymbol "!") then
    return some (.not (← need g.equality))
  else operand g

def product (g : Grammar) : Parser (Option Expr) :=
  chain (operator [(.symbol "*", .mul), (.symbol "/", .div), (.word "DIV", .intDiv)]) (signed g)

def sum (g : Grammar) : Parser (Option Expr) :=
  chain (operator [(.symbol "+", .add), (.symbol "-", .sub), (.symbol "%", .mod),
    (.word "MOD", .mod)]) (product g)

def bitwise (g : Grammar) : Parser (Option Expr) :=
  chain (operator [(.symbol "&", .bitAnd), (.symbol "|", .bitOr), (.symbol "^", .bitXor),
    (.symbol "<<", .shiftLeft), (.symbol ">>", .shiftRight)]) (sum g)

/-- The test that follows an operand, if one does. -/
def test (g : Grammar) (e : Expr) : Parser (Option Expr) := do
  if ← word "BETWEEN" then
    let low ← need (bitwise g)
    if !(← word "AND") then failure
    return some (.between e low (← need (bitwise g)))
  else if ← word "IN" then
    expectSymbol "("
    let tested ← match ← g.query with
      | some q => pure (Expr.insideQuery e q)
      | none => Expr.inside e <$> csv (aliased g g.expr)
    expectSymbol ")"
    return some tested
  else match ← oneOfWords [("LIKE", Operator.like), ("RLIKE", .regexp), ("REGEXP", .regexp)] with
    | some op => return some (.binary op e (← need (bitwise g)))
    | none => return none

def range (g : Grammar) : Parser (Option Expr) := do
  match ← bitwise g with
  | none =>
    if ← sees fun t => ["BETWEEN", "IN", "LIKE", "RLIKE", "REGEXP"].any t.isWord then failure
    else return none
  | some e =>
    let negated ← word "NOT"
    let tested := (← test g e).getD e
    let e := if negated then .not tested else tested
    if ← word "IS" then
      let negated ← word "NOT"
      let value ← match ← oneOfWords [("NULL", Expr.null)] with
        | some e => pure e
        | none => need (bitwise g)
      let e := Expr.binary .isValue e value
      return some (if negated then .not e else e)
    else return some e

def comparison (g : Grammar) : Parser (Option Expr) :=
  chain (operator [(.symbol "<", .lt), (.symbol "<=", .le), (.symbol ">", .gt),
    (.symbol ">=", .ge)]) (range g)

def equalities (g : Grammar) : Parser (Option Expr) :=
  chain (operator [(.symbol "=", .eq), (.symbol "==", .eq), (.symbol "<>", .neq),
    (.symbol "!=", .neq), (.symbol "<=>", .sameAs)]) (comparison g)

def conjunction (g : Grammar) : Parser (Option Expr) :=
  chain (operator [(.word "AND", .and), (.symbol "&&", .and), (.word "XOR", .xor)]) (equalities g)

def condition (g : Grammar) : Parser (Option Expr) :=
  chain (operator [(.word "OR", .or), (.symbol "||", .or)]) (conjunction g)

/-- A condition or value, perhaps with an alias. -/
def item (g : Grammar) : Parser (Option Expr) := aliased g (condition g)

end Grammar
end Sql
end Tabulary
