import Tabulary.Json.Basic

/-!
Log events: a name, a level and named values.
-/

namespace Tabulary

inductive Level where
  | debug
  | info
  | warning
  | error
deriving DecidableEq, Repr

def Level.name : Level → String
  | debug => "debug"
  | info => "info"
  | warning => "warning"
  | error => "error"

structure Event where
  level : Level
  name : String
  fields : List (String × Json)
deriving Repr

namespace Event

/-- Adds a field unless there is one of that name. -/
def stamp {α : Type} (name : String) (value : α) (fields : List (String × α)) :
    List (String × α) :=
  if fields.any (·.1 == name) then fields else fields ++ [(name, value)]

def service : String := "mini_rdbms"

/-- An event of a service as one object. -/
def document (service : String) (e : Event) : Json :=
  .object (("event", .text e.name) :: ("level", .text e.level.name) ::
    stamp "service" (.text service) e.fields)

end Event
end Tabulary
