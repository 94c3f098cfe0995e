import Tabulary.Sql.Token

/-!
Parsers over tokens.  A parser of an optional value gives `none` where nothing it knows begins, so
that the caller can go on; where something has begun that cannot be completed it fails, and with it
the whole statement.
-/

namespace Tabulary
namespace Sql

abbrev Parser (α : Type) := StateT (List Token) Option α

namespace Parser

variable {α β : Type}

/-- Takes the next token if it satisfies `p`. -/
def accept (p : Token → Bool) : Parser Bool := fun
  | [] => some (false, [])
  | t :: rest => some (if p t then (true, rest) else (false, t :: rest))

def acceptMap (f : Token → Option α) : Parser (Option α) := fun
  | [] => some (none, [])
  | t :: rest =>
    match f t with
    | some a => some (some a, rest)
    | none => some (none, t :: rest)

/-- Whether the next token satisfies `p`; takes none. -/
def sees (p : Token → Bool) : Parser Bool := fun ts => some (ts.head?.any p, ts)

def word (w : String) : Parser Bool := accept (·.isWord w)

/-- A word where back quotes make no difference. -/
def spelled (w : String) : Parser Bool := accept (·.isSpelled w)

def symbol (s : String) : Parser Bool := accept (·.isSymbol s)

/-- Takes a sequence of words, or nothing. -/
def words : List String → Parser Bool
  | ws => fun ts =>
    if ws.length ≤ ts.length ∧ (ws.zip ts).all (fun (w, t) => t.isWord w) then
      some (true, ts.drop ws.length)
    else some (false, ts)

def expectSymbol (s : String) : Parser Unit := do
  guard (← symbol s)

/-- The value of `p`, which has to be there. -/
def need (p : Parser (Option α)) : Parser α := do
  match ← p with
  | some a => pure a
  | none => failure

/-- What `p` finds; where it fails or finds nothing, nothing is taken. -/
def attempt (p : Parser (Option α)) : Parser (Option α) := fun ts =>
  match p ts with
  | some (some a, rest) => some (some a, rest)
  | _ => some (none, ts)

/-- Takes one of the given words and gives what stands for it. -/
def oneOfWords (table : List (String × α)) : Parser (Option α) :=
  acceptMap fun t => (table.find? fun (w, _) => t.isWord w).map Prod.snd

/-- Runs `p` as long as it finds something, at most `n` times. -/
def upTo (p : Parser (Option α)) : Nat → Parser (List α)
  | 0 => pure []
  | n + 1 => do
    match ← p with
    | none => pure []
    | some a => return a :: (← upTo p n)

/-- Runs `p`, which takes a token whenever it finds something, as long as it does. -/
def many (p : Parser (Option α)) : Parser (List α) := do
  match ← p with
  | none => pure []
  | some a => return a :: (← upTo p (← get).length)

/-- Items with commas between them, any of which may be missing. -/
def slots (p : Parser (Option α)) : Parser (List (Option α)) := do
  let first? ← p
  let more ← many do
    if ← symbol "," then return some (← p) else pure none
  return first? :: more

def csv (p : Parser (Option α)) : Parser (List α) := do
  return (← slots p).flatMap Option.toList

def wrapped (p : Parser α) : Parser α := do
  expectSymbol "("
  let a ← p
  expectSymbol ")"
  return a

/-- Operands with operators between them that group to the left.  Beside an operator both have to be
there. -/
def chain (op? : Parser (Option (α → α → α))) (operand : Parser (Option α)) :
    Parser (Option α) := do
  let first? ← operand
  let more ← many do
    match ← op? with
    | none => pure none
    | some f => return some (f, ← need operand)
  match first?, more with
  | some a, more => return some (more.foldl (fun l (f, r) => f l r) a)
  | none, [] => pure none
  | none, _ => failure

def skipAll : Parser Unit := set ([] : List Token)

end Parser
end Sql
end Tabulary
