/-!
Trace spans: one covers each command.
-/

namespace Tabulary

inductive SpanStatus where
  | unset
  | ok
  | error (description : String)
deriving DecidableEq, Repr

structure Span where
  name : String
  attributes : List (String × String)
  status : SpanStatus
deriving DecidableEq, Repr

namespace Span

/-- The most characters of a statement that a span keeps. -/
def maxStatement : Nat := 256

def command (database statement : String) : Span where
  name := "command.execute"
  attributes := [("db.system", "mini_rdbms"), ("db.name", database),
    ("db.statement", String.ofList (statement.toList.take maxStatement))]
  status := .unset

/-- Tags a span with the operation and, for a failed command, the kind of error. -/
def finish (s : Span) (operation : String) (errorKind : Option String) : Span :=
  let attributes := s.attributes ++ [("db.operation", operation)]
  match errorKind with
  | none => { s with attributes, status := .ok }
  | some kind =>
    { s with attributes := attributes ++ [("mini_rdbms.error_kind", kind)], status := .error kind }

/-- Marks a span whose command ended in a failure that is no result. -/
def abort (s : Span) (label message : String) : Span :=
  { s with status := .error (label ++ ": " ++ message) }

end Span
end Tabulary
