import Tabulary.Error.Fault
import Tabulary.Files.Path
import Tabulary.Keyed
import Tabulary.Text.Utf8

/-!
A tree of files and directories.  A file's entry names a node, and the node holds the bytes; a node
whose entry is gone keeps its bytes for those that still hold it.  Every operation refuses what a
Unix file system refuses, with the same choice among several reasons.
-/

namespace Tabulary

abbrev Bytes := List UInt8

inductive Files.Entry where
  | directory
  | file (node : Nat)
deriving DecidableEq, Repr

structure Files where
  /-- The text before every path in a message. -/
  anchor : String
  entries : List (Path × Files.Entry)
  contents : List (Nat × Bytes)
  fresh : Nat
deriving Repr

namespace Files

def empty (anchor : String) : Files := ⟨anchor, [], [], 0⟩

/-- The longest name, in bytes. -/
def maxName : Nat := 255

/-- What a place holds; the anchor itself is a directory. -/
def entry? (fs : Files) (p : Path) : Option Entry :=
  if p = [] then some .directory else fs.entries.lookup p

def nodeBytes (fs : Files) (node : Nat) : Bytes := (fs.contents.lookup node).getD []

def setNode (fs : Files) (node : Nat) (bytes : Bytes) : Files :=
  { fs with contents := Keyed.set node bytes fs.contents }

/-- Follows a path from a place to where it leads; nothing need be there yet. -/
def walk (fs : Files) (here : Path) : Path → Except Refusal Path
  | [] => .ok here
  | name :: rest =>
    match fs.entry? here with
    | none => .error .missing
    | some (.file _) => .error .notDirectory
    | some .directory =>
      if maxName < (Text.toBytes name).length then .error .nameTooLong
      else if name = ".." then walk fs here.dropLast rest
      else walk fs (here ++ [name]) rest

def find (fs : Files) (p : Path) : Except Refusal (Path × Entry) := do
  let place ← fs.walk [] p
  match fs.entry? place with
  | some e => return (place, e)
  | none => throw .missing

/-- A path with a NUL character reaches no file system. -/
def hasNul (p : Path) : Bool := p.any fun name => name.toList.contains '\x00'

/-- The result of an operation on a path, with a refusal as a fault that names it. -/
def guarded {α : Type} (fs : Files) (p : Path) (r : Except Refusal α) : Except Fault α :=
  if hasNul p then .error .nulInPath
  else match r with
    | .ok a => .ok a
    | .error why => .error (.refused why (p.text fs.anchor) none)

/-- Whether a path leads to something.  A name that is too long is a refusal, not an answer. -/
def isThere (fs : Files) (p : Path) : Except Fault Bool :=
  if hasNul p then .ok false
  else match fs.find p with
    | .ok _ => .ok true
    | .error .missing => .ok false
    | .error .notDirectory => .ok false
    | .error why => .error (.refused why (p.text fs.anchor) none)

def isDirectory (fs : Files) (p : Path) : Bool :=
  match fs.find p with
  | .ok (_, .directory) => true
  | _ => false

def makeOne (fs : Files) (p : Path) : Except Refusal Files := do
  let place ← fs.walk [] p
  match fs.entry? place with
  | some _ => throw .alreadyExists
  | none => match fs.entry? place.dropLast with
    | some .directory => return { fs with entries := fs.entries ++ [(place, Entry.directory)] }
    | some (.file _) => throw .notDirectory
    | none => throw .missing

/-- Makes one directory, unless it is there. -/
def ensureOne (fs : Files) (p : Path) : Except Fault Files :=
  match fs.guarded p (fs.makeOne p) with
  | .ok fs' => .ok fs'
  | .error e => if fs.isDirectory p then .ok fs else .error e

theorem length_dropLast_lt {p : Path} (h : ¬p = []) : p.dropLast.length < p.length := by
  have := List.length_pos_iff.mpr h
  simp only [List.length_dropLast]
  omega

/-- Makes a directory and those above it, as far as they are not there.  A failure half way leaves
the ones already made. -/
def ensureDirectory (fs : Files) (p : Path) : Except Fault Unit × Files :=
  match fs.guarded p (fs.makeOne p) with
  | .ok fs' => (.ok (), fs')
  | .error (.refused .missing path target) =>
    if _h : p = [] then (.error (.refused .missing path target), fs)
    else
      match ensureDirectory fs p.dropLast with
      | (.error e, fs') => (.error e, fs')
      | (.ok (), fs') => match fs'.ensureOne p with
        | .ok fs'' => (.ok (), fs'')
        | .error e => (.error e, fs')
  | .error e => if fs.isDirectory p then (.ok (), fs) else (.error e, fs)
termination_by p.length
decreasing_by exact length_dropLast_lt ‹_›

/-- A written path as it is seen from a directory.  One that begins with a slash says all of the
path, and nothing is there outside the anchor. -/
def locate (fs : Files) (directory : Path) (written : String) : Except Fault Path :=
  if written.toList.head? = some '/' then
    match (Path.parts fs.anchor).isPrefixOf? (Path.parts written) with
    | some rest => .ok rest
    | none => .error (.refused .missing written none)
  else .ok (directory ++ Path.parts written)

def openFile (fs : Files) (p : Path) : Except Fault Nat :=
  fs.guarded p do
    let (_, entry) ← fs.find p
    match entry with
    | .file node => return node
    | .directory => throw .isDirectory

def read (fs : Files) (p : Path) : Except Fault Bytes := do
  return fs.nodeBytes (← fs.openFile p)

/-- Makes an empty file, or empties the one that is there. -/
def create (fs : Files) (p : Path) : Except Fault (Nat × Files) :=
  fs.guarded p do
    let place ← fs.walk [] p
    match fs.entry? place with
    | some (.file node) => return (node, fs.setNode node [])
    | some .directory => throw .isDirectory
    | none => match fs.entry? place.dropLast with
      | some .directory =>
        let made := { fs with
          entries := fs.entries ++ [(place, Entry.file fs.fresh)], fresh := fs.fresh + 1 }
        return (fs.fresh, made.setNode fs.fresh [])
      | some (.file _) => throw .notDirectory
      | none => throw .missing

def write (fs : Files) (p : Path) (bytes : Bytes) : Except Fault Files := do
  let (node, fs) ← fs.create p
  return fs.setNode node bytes

def remove (fs : Files) (p : Path) : Except Fault Files :=
  fs.guarded p do
    let (place, entry) ← fs.find p
    match entry with
    | .file _ => return { fs with entries := Keyed.erase place fs.entries }
    | .directory => throw .isDirectory

/-- Removes the entry of a file, if there is one. -/
def removeIfThere (fs : Files) (p : Path) : Except Fault Files :=
  match fs.remove p with
  | .error (.refused .missing _ _) => .ok fs
  | r => r

/-- Moves a file to a place, over the file that is there. -/
def move (fs : Files) (source target : Path) : Except Fault Files :=
  let refuse (why : Refusal) : Except Fault Files :=
    .error (.refused why (source.text fs.anchor) (some (target.text fs.anchor)))
  if hasNul source || hasNul target then .error .nulInPath
  else match fs.find source, fs.walk [] target with
    | .error why, _ => refuse why
    | _, .error why => refuse why
    | .ok (place, moved), .ok goal =>
      match moved, fs.entry? goal with
      | .file _, some .directory => refuse .isDirectory
      | .directory, some (.file _) => refuse .notDirectory
      | .directory, some .directory => refuse .notEmpty
      | moved, _ =>
        .ok { fs with
          entries := Keyed.set goal moved (Keyed.erase place fs.entries) }

def removeTree (fs : Files) (p : Path) : Except Fault Files :=
  fs.guarded p do
    let (place, entry) ← fs.find p
    match entry with
    | .file _ => throw .notDirectory
    | .directory =>
      return { fs with entries := fs.entries.filter fun e => !place.isPrefixOf e.1 }

/-- The names in a directory, in the order of their characters. -/
def names (fs : Files) (p : Path) : List String :=
  match fs.find p with
  | .ok (place, .directory) =>
    (fs.entries.filterMap fun e =>
      if e.1.dropLast = place then e.1.getLast? else none).mergeSort fun a b => a ≤ b
  | _ => []

end Files
end Tabulary
