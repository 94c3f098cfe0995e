import Tabulary.Error.Command
import Tabulary.Error.Schema
import Tabulary.Schema.ColumnType

/-!
Recoverable errors: the failures that a command's result reports under a kind.
-/

namespace Tabulary

inductive EngineError where
  | command (e : CommandError)
  | schema (e : SchemaError)
  | typeMismatch (column : String) (value : Value) (expected : ColumnType)
  | noTable (name : String)
  | tableDropped (name : String)
  | tableExists (name : String)
  | noDatabase (name : String)
  | databaseExists (name : String)
  | duplicateKey (id : Value)
  | valueTaken (column : String) (value : Value)
  | noRecord (id : Value)
deriving DecidableEq, Repr

namespace EngineError

def kind : EngineError → String
  | command e => if e.isSyntax then "SyntaxError" else "UnsupportedOperation"
  | schema _ => "SchemaValidation"
  | typeMismatch _ _ _ => "TypeMismatch"
  | noTable _ => "TableNotFound"
  | tableDropped _ => "TableNotFound"
  | tableExists _ => "TableExists"
  | noDatabase _ => "DatabaseNotFound"
  | databaseExists _ => "DatabaseExists"
  | duplicateKey _ => "DuplicateKey"
  | valueTaken _ _ => "UniqueConstraintViolation"
  | noRecord _ => "RecordNotFound"

def message : EngineError → String
  | command e => e.message
  | schema e => e.message
  | typeMismatch column value expected =>
    "Value " ++ value.shown ++ " is not a valid " ++ expected.name ++
      " for column '" ++ column ++ "'"
  | noTable name => s!"Table '{name}' does not exist"
  | tableDropped name => s!"Table '{name}' has been dropped"
  | tableExists name => s!"Table '{name}' already exists"
  | noDatabase name => s!"Database '{name}' does not exist"
  | databaseExists name => s!"Database '{name}' already exists"
  | duplicateKey id => "Duplicate primary key: " ++ id.plain
  | valueTaken column value =>
    "Violation of UNIQUE constraint on column '" ++ column ++ "': value " ++ value.shown ++
      " already exists"
  | noRecord id => "Record with id " ++ id.plain ++ " not found"

/-- The value that the message shows, if it shows one. -/
def value? : EngineError → Option Value
  | schema e => e.value?
  | typeMismatch _ v _ | valueTaken _ v => some v
  | duplicateKey id | noRecord id => some id
  | _ => none

end EngineError
end Tabulary
