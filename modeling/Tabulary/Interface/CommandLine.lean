import Tabulary.Interface.Session
import Tabulary.Settings

/-!
The command line: one command with `execute`, or a session with `repl`.
-/

namespace Tabulary
namespace CommandLine

inductive Invocation where
  | execute (command : String) (database? : Option String)
  | session (database? : Option String)
deriving DecidableEq, Repr

/-- Splits the arguments of a command into the value of the database option and the others.  Fails
where an option is unknown or lacks its value. -/
def options : Option String → List String → Option (Option String × List String)
  | database?, [] => some (database?, [])
  | database?, "--" :: rest => some (database?, rest)
  | _, "--db" :: value :: rest | _, "-d" :: value :: rest => options (some value) rest
  | database?, a :: rest =>
    match a.toList with
    | '-' :: '-' :: 'd' :: 'b' :: '=' :: value => options (some (String.ofList value)) rest
    | '-' :: 'd' :: c :: value => options (some (String.ofList (c :: value))) rest
    | '-' :: _ :: _ => none
    | _ => (options database? rest).map fun (db, others) => (db, a :: others)

/-- What the arguments ask for, if they ask for something that there is. -/
def invocation? : List String → Option Invocation
  | "execute" :: rest =>
    match options none rest with
    | some (database?, [command]) => some (.execute command database?)
    | _ => none
  | "repl" :: rest =>
    match options none rest with
    | some (database?, []) => some (.session database?)
    | _ => none
  | _ => none

/-- What a run leaves: its exit code, what it wrote, and the failure that ended it, if one did. -/
structure Outcome where
  exitCode : Nat
  output : String
  failure : Option Fault

def Outcome.failed (output : String) (e : Fault) : Outcome := ⟨1, output, some e⟩

def greeting (e : Engine) (database? : Option String) : String :=
  let name := match database? with
    | some "" | none => e.defaultDatabase
    | some name => name
  s!"Connected to database '{name}'. Type 'exit' to quit.\n"

/-- Runs what was asked for on a started engine. -/
def runStarted (input : String) : Invocation → Work Engine Outcome
  | .execute command database? => do
    match ← (Engine.execute command database?).outcome with
    | .error e => return .failed "" e
    | .ok r => return ⟨if r.succeeded then 0 else 1, r.toText ++ "\n", none⟩
  | .session database? => do
    let e ← Work.state
    let s ← Session.run database? (Session.linesOf input)
    let output := greeting e database? ++ s.shown
    match s.ending with
    | .failed e _ => return .failed output e
    | _ => return ⟨0, output, none⟩

/-- Starts the engine, runs what was asked for, and stops the engine. -/
def withEngine (input : String) (i : Invocation) : Work Engine Outcome := do
  match ← Engine.start.outcome with
  | .error e => return .failed "" e
  | .ok () =>
    let o ← runStarted input i
    match ← Engine.stop.outcome with
    | .error e => return .failed o.output e
    | .ok () => return o

/-- The engine that an environment describes, in the data directory that `locate` finds. -/
def engineOf {σ : Type} (environment : List (String × String)) (locate : String → Path) :
    Work σ Engine := do
  let s ← Attempt.ofExcept (Settings.ofEnvironment environment)
  Engine.make (locate s.storage.dataDir) s.catalog.defaultDatabase s.catalog.seedDemoData

/-- Runs the program with its arguments, environment and input. -/
def run (environment : List (String × String)) (locate : String → Path) (arguments : List String)
    (input : String) : Work Unit Outcome := do
  match invocation? arguments with
  | none => return ⟨2, "", none⟩
  | some i =>
    match ← (engineOf environment locate).outcome with
    | .error e => return .failed "" e
    | .ok engine =>
      let (outcome, _) ← Work.beside engine (withEngine input i)
      Attempt.ofExcept outcome

end CommandLine
end Tabulary
