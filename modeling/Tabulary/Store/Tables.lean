import Tabulary.Store.Basic

/-!
Named stores, in the order of their creation.
-/

namespace Tabulary

abbrev Tables := List (String × Store)

namespace Tables

def get (name : String) : Work Tables Store := do
  match (← Work.state).lookup name with
  | some s => return s
  | none => throw (.engine (.noTable name))

def on {α : Type} (name : String) (x : Work Store α) : Work Tables α := do
  let (result, s) ← Work.beside (← get name) x
  Work.setState (Keyed.set name s (← Work.state))
  Attempt.ofExcept result

def onEach (x : Work Store Unit) : Work Tables Unit := do
  (Keyed.keys (← Work.state)).forM fun name => on name x

end Tables
end Tabulary
