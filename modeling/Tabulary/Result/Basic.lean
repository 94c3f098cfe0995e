import Tabulary.Json.Printer
import Tabulary.Result.Row

/-!
Results of commands.  A query has rows, any other command a message, and a failed command the kind
of its error besides.
-/

namespace Tabulary

structure Result where
  rows : List ResultRow
  columns : List String
  affected : Int
  message : String
  errorKind : Option String
  isQuery : Bool
deriving DecidableEq, Repr

namespace Result

def succeeded (r : Result) : Bool := r.errorKind.isNone

def done (message : String) (affected : Int) : Result :=
  ⟨[], [], affected, message, none, false⟩

def query (columns : List String) (rows : List ResultRow) : Result :=
  ⟨rows, columns, 0, "OK: " ++ toString rows.length ++ " row(s)", none, true⟩

def failed (kind message : String) : Result := ⟨[], [], 0, message, some kind, false⟩

def ofError (e : EngineError) : Result := failed e.kind e.message

/-- What an interactive session prints: a query's rows one a line, or the message. -/
def toText (r : Result) : String :=
  match r.errorKind with
  | some kind => "Error (" ++ kind ++ "): " ++ r.message
  | none =>
    if r.isQuery then
      if r.rows.isEmpty then "No results."
      else "\n".intercalate (r.rows.map fun row => row.toJson.render)
    else r.message

end Result
end Tabulary
