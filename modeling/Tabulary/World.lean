import Tabulary.Attempt
import Tabulary.Files.Basic
import Tabulary.Telemetry.Event
import Tabulary.Telemetry.Metrics
import Tabulary.Telemetry.Span

/-!
What the engine acts on besides its own state: the files, and the record it leaves in counts, events
and spans.
-/

namespace Tabulary

structure World where
  files : Files
  metrics : Metrics
  /-- Events, the latest first. -/
  events : List Event
  /-- Finished spans, the latest first. -/
  spans : List Span
  /-- The database of the command that runs. -/
  database : Option String
  /-- How many databases have been opened so far. -/
  opened : Nat
deriving Repr

/-- Work on a state and on the world. -/
abbrev Work (σ α : Type) := Attempt Fault (σ × World) α

namespace World

def empty (anchor : String) : World := ⟨Files.empty anchor, Metrics.zero, [], [], none, 0⟩

/-- Records an event, with the database of the command that runs. -/
def log (w : World) (level : Level) (name : String) (fields : List (String × Json)) : World :=
  let fields := match w.database with
    | some database => Event.stamp "database" (.text database) fields
    | none => fields
  { w with events := ⟨level, name, fields⟩ :: w.events }

/-- The events in the order they happened, and the world without them. -/
def takeEvents (w : World) : List Event × World := (w.events.reverse, { w with events := [] })

/-- The spans in the order they finished, and the world without them. -/
def takeSpans (w : World) : List Span × World := (w.spans.reverse, { w with spans := [] })

end World

namespace Work

variable {σ τ α : Type}

def world : Work σ World := do return (← get).2

def state : Work σ σ := do return (← get).1

def setState (s : σ) : Work σ Unit := modify fun x => (s, x.2)

def changeWorld (f : World → World) : Work σ Unit := modify fun x => (x.1, f x.2)

def log (level : Level) (name : String) (fields : List (String × Json)) : Work σ Unit :=
  changeWorld fun w => w.log level name fields

def count (c : Counter) : Work σ Unit :=
  changeWorld fun w => { w with metrics := w.metrics.count c }

def addOpenTables (n : Int) : Work σ Unit :=
  changeWorld fun w => { w with metrics :=
    { w.metrics with openTables := w.metrics.openTables + n } }

def setFiles (fs : Files) : Work σ Unit := changeWorld fun w => { w with files := fs }

def query (f : Files → Except Fault α) : Work σ α := do
  Attempt.ofExcept (f (← world).files)

/-- Changes the file system, or leaves it as it is. -/
def change (f : Files → Except Fault Files) : Work σ Unit := do
  setFiles (← query f)

def pathText (p : Path) : Work σ String := do return p.text (← world).files.anchor

def ensureDirectory (p : Path) : Work σ Unit := do
  let (result, fs) := (← world).files.ensureDirectory p
  setFiles fs
  Attempt.ofExcept result

/-- A number that no database opened before has. -/
def takeSerial : Work σ Nat := do
  let serial := (← world).opened
  changeWorld fun w => { w with opened := serial + 1 }
  return serial

/-- Work on another state in the same world; gives the result, or the failure, with that state. -/
def beside (t : τ) (x : Work τ α) : Work σ (Except Fault α × τ) := do
  let (result, t', w) := x.run (t, ← world)
  changeWorld fun _ => w
  return (result, t')

@[simp] theorem run_state (x : σ × World) : (state : Work σ σ).run x = (.ok x.1, x) := rfl

@[simp] theorem run_setState (s : σ) (x : σ × World) :
    (setState s).run x = (.ok (), (s, x.2)) := rfl

@[simp] theorem run_count (c : Counter) (x : σ × World) :
    (count c : Work σ Unit).run x =
      (.ok (), (x.1, { x.2 with metrics := x.2.metrics.count c })) := rfl

@[simp] theorem run_addOpenTables (n : Int) (x : σ × World) :
    (addOpenTables n : Work σ Unit).run x =
      (.ok (), (x.1, { x.2 with
        metrics := { x.2.metrics with openTables := x.2.metrics.openTables + n } })) := rfl

@[simp] theorem run_query (f : Files → Except Fault α) (x : σ × World) :
    (query f : Work σ α).run x = (f x.2.files, x) := rfl

theorem run_change (f : Files → Except Fault Files) (x : σ × World) :
    (change f : Work σ Unit).run x = match f x.2.files with
      | .ok fs => (.ok (), (x.1, { x.2 with files := fs }))
      | .error e => (.error e, x) := by
  rw [change, Attempt.run_bind, run_query]
  cases f x.2.files <;> rfl

@[simp] theorem run_pathText (p : Path) (x : σ × World) :
    (pathText p : Work σ String).run x = (.ok (p.text x.2.files.anchor), x) := rfl

theorem run_ensureDirectory (p : Path) (x : σ × World) :
    (ensureDirectory p : Work σ Unit).run x =
      ((x.2.files.ensureDirectory p).1,
        (x.1, { x.2 with files := (x.2.files.ensureDirectory p).2 })) := rfl

theorem run_beside (t : τ) (y : Work τ α) (x : σ × World) :
    (beside t y : Work σ (Except Fault α × τ)).run x =
      (.ok ((y.run (t, x.2)).1, (y.run (t, x.2)).2.1), (x.1, (y.run (t, x.2)).2.2)) := rfl

end Work

end Tabulary
