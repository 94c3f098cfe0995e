import Tabulary.Engine

/-!
Line sessions.  Each line is a command whose result is shown; blank lines are passed over, and
`exit` or `quit` ends the session.
-/

namespace Tabulary

/-- How a session ended, with the lines that were not read. -/
inductive Session.Ending where
  | left (unread : List String)
  | outOfLines
  /-- A command failed in a way that is no result. -/
  | failed (e : Fault) (unread : List String)
deriving Repr

/-- A session: what was shown for each line read, nothing for a blank one, and how it ended. -/
structure Session where
  answers : List (Option String)
  ending : Session.Ending
deriving Repr

namespace Session

def prompt : String := "mini_rdbms> "

def farewells : List String := ["exit", "quit"]

def isFarewell (line : String) : Bool :=
  farewells.contains (String.ofList (line.toList.map Char.toLower))

def run (database? : Option String) : List String → Work Engine Session
  | [] => return ⟨[], .outOfLines⟩
  | line :: rest => do
    let command := Text.trim line
    if command.isEmpty then
      let s ← run database? rest
      return { s with answers := none :: s.answers }
    else if isFarewell command then return ⟨[], .left rest⟩
    else match ← (Engine.execute command database?).outcome with
      | .error e => return ⟨[], .failed e rest⟩
      | .ok r =>
        let s ← run database? rest
        return { s with answers := some r.toText :: s.answers }

def executed (s : Session) : Nat := (s.answers.filterMap id).length

def unread (s : Session) : List String :=
  match s.ending with
  | .left rest | .failed _ rest => rest
  | .outOfLines => []

/-- What shows after a line: its answer, and the prompt for the next line. -/
def reply : Option String → String
  | none => prompt
  | some text => text ++ "\n" ++ prompt

/-- What shows on a terminal that does not echo. -/
def shown (s : Session) : String := prompt ++ "".intercalate (s.answers.map reply)

/-- The lines of an input.  A line ends with a line feed, a carriage return, or both. -/
def linesOf (input : String) : List String :=
  (split [] input.toList).map String.ofList
where
  split (line : List Char) : List Char → List (List Char)
    | [] => if line.isEmpty then [] else [line.reverse]
    | '\r' :: '\n' :: rest => line.reverse :: split [] rest
    | c :: rest =>
      if c = '\n' ∨ c = '\r' then line.reverse :: split [] rest else split (c :: line) rest

end Session
end Tabulary
