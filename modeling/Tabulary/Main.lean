import Tabulary.Interface.CommandLine

/-!
The program.  It reads the data directory, runs what its arguments ask for, and writes what has
changed back to the disk.  Answers go to the standard output; events, as JSON, and failures go to
the standard error.
-/

namespace Tabulary
namespace Disk

/-- Adds what a directory of the disk holds to a tree. -/
partial def addEntries (fs : Files) (p : Path) (entries : Array IO.FS.DirEntry) : IO Files :=
  entries.foldlM (fun fs entry => do
    let place := p ++ [entry.fileName]
    let inner? ← try some <$> entry.path.readDir catch _ => pure none
    match inner? with
    | some inner => addEntries (fs.ensureDirectory place).2 place inner
    | none =>
      let bytes ← IO.FS.readBinFile entry.path
      return (fs.write place bytes.toList).toOption.getD fs) fs

/-- The text before the paths in a directory. -/
def anchorOf (directory : String) : String :=
  if directory = "." then "" else if directory = "/" then "/" else directory ++ "/"

def load (directory : String) : IO Files := do
  let place := (← IO.currentDir) / directory
  let entries ← try place.readDir catch _ => pure #[]
  addEntries (.empty (anchorOf directory)) [] entries

/-- Brings the disk from one tree to another. -/
def save (before after : Files) : IO Unit := do
  IO.FS.createDirAll (Path.text after.anchor [])
  for (p, entry) in before.entries do
    if (after.entry? p).isNone && (after.entry? p.dropLast).isSome then
      match entry with
      | .file _ => IO.FS.removeFile (p.text after.anchor)
      | .directory => IO.FS.removeDirAll (p.text after.anchor)
  for (p, entry) in after.entries do
    match entry with
    | .directory => IO.FS.createDirAll (p.text after.anchor)
    | .file node =>
      let bytes := after.nodeBytes node
      if (before.read p).toOption ≠ some bytes then
        IO.FS.writeBinFile (p.text after.anchor) bytes.toByteArray

end Disk

namespace Program

def put (text : String) : IO Unit := do
  let out ← IO.getStdout
  out.putStr text
  out.flush

/-- Does some work, writes out its events, and saves what it changed. -/
def perform {σ α : Type} (settings : Settings) (x : Work σ α) (s : σ × World) :
    IO (Except Fault α × (σ × World)) := do
  let (result, t, w) := x.run s
  let (events, w) := w.takeEvents
  for e in events do
    if settings.shows e.level then
      IO.eprintln (e.document settings.observability.serviceName).render
  Disk.save s.2.files w.files
  return (result, t, w)

/-- Answers the lines of the input one by one until one of them, or the input, ends the session. -/
partial def converse (settings : Settings) (database? : Option String) (s : Engine × World) :
    IO (Except Fault Unit × (Engine × World)) := do
  let line ← (← IO.getStdin).getLine
  if line.isEmpty then return (.ok (), s)
  match ← perform settings (Session.run database? (Session.linesOf line)) s with
  | (.error e, s) => return (.error e, s)
  | (.ok session, s) =>
    put ("".intercalate (session.answers.map Session.reply))
    match session.ending with
    | .left _ => return (.ok (), s)
    | .failed e _ => return (.error e, s)
    | .outOfLines => converse settings database? s

/-- A session on an engine, which is started before it and stopped after it. -/
def session (settings : Settings) (database? : Option String) (s : Engine × World) :
    IO (Except Fault Unit) := do
  match ← perform settings Engine.start s with
  | (.error e, _) => return .error e
  | (.ok (), s) =>
    put (CommandLine.greeting s.1 database? ++ Session.prompt)
    let (ending, s) ← converse settings database? s
    let (stopped, _) ← perform settings Engine.stop s
    return stopped.bind fun _ => ending

def report (e : Fault) : IO Unit := do
  IO.eprintln (": ".intercalate (e.label :: e.message?.toList))
  if let .invalid complaints := e then
    for c in complaints do
      IO.eprintln s!"  {c.location}: {c.rule}"

/-- Runs what the arguments ask for, and gives the exit code. -/
def run (arguments : List String) : IO UInt32 := do
  let environment ← Settings.variableNames.filterMapM fun name => do
    return (← IO.getEnv name).map fun text => (name, text)
  match CommandLine.invocation? arguments, Settings.ofEnvironment environment with
  | none, _ =>
    IO.eprintln "Usage: tabulary (execute COMMAND | repl) [--db NAME]"
    return 2
  | _, .error e =>
    report e
    return 1
  | some i, .ok settings =>
    let files ← Disk.load settings.storage.dataDir
    let world := { World.empty files.anchor with files := files }
    let locate (_ : String) : Path := []
    match i with
    | .execute _ _ =>
      let (outcome, _) ←
        perform settings (CommandLine.run environment locate arguments "") ((), world)
      match outcome with
      | .error e =>
        report e
        return 1
      | .ok o =>
        put o.output
        o.failure.forM report
        return o.exitCode.toUInt32
    | .session database? =>
      let (engine, _, world) ←
        perform settings (CommandLine.engineOf environment locate) ((), world)
      match ← engine.toOption.mapM fun e => session settings database? (e, world) with
      | some (.ok ()) => return 0
      | some (.error e) =>
        report e
        return 1
      | none => return 1

end Program
end Tabulary

def main (arguments : List String) : IO UInt32 := Tabulary.Program.run arguments
