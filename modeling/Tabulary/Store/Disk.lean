import Tabulary.Attempt
import Tabulary.Store.Handle
import Tabulary.Table.Basic

/-!
How the bytes of a change reach the disk, and what is done where the disk refuses them.

What is written to an open file waits in a buffer until it is passed on.  The disk may take a part
of it at a time, and may refuse any request: to write, to cut the file off, and to force out what
was written.  Bytes that were refused stay in the buffer, and whatever is done next with the file
passes them on first.  A record that cannot be appended is cut off again, and a record that cannot
be replaced has its flag set back; both are requests to the same disk.
-/

namespace Tabulary

/-- What a disk makes of one request. -/
inductive Reply where
  | granted
  /-- Of the bytes to be written only so many are taken; the others are asked for again. -/
  | part (taken : Nat)
  | refused (why : DiskFault)
deriving DecidableEq, Repr

/-- A disk by its replies to the requests to come; those beyond the last are granted.  What is
written may have to be forced out each time. -/
structure Disk where
  forced : Bool
  replies : List Reply
deriving DecidableEq, Repr

/-- A file that is being written to, with the bytes that wait to be passed on and their place. -/
structure Draft where
  disk : Disk
  file : Bytes
  place : Nat
  pending : Bytes
deriving DecidableEq, Repr

/-- Work on a file that the disk may stop. -/
abbrev Drafting (α : Type) := Attempt DiskFault Draft α

namespace Draft

/-- A file of which nothing waits to be written. -/
def ofFile (disk : Disk) (file : Bytes) : Draft := ⟨disk, file, 0, []⟩

/-- The draft after the disk has taken the first bytes that were waiting. -/
def took (d : Draft) (taken : Nat) : Draft :=
  { d with
    file := Patch.apply ⟨d.place, d.pending.take taken⟩ d.file
    place := d.place + taken
    pending := d.pending.drop taken }

/-- The draft before the replies to come. -/
def facing (d : Draft) (replies : List Reply) : Draft := { d with disk.replies := replies }

/-- Passes bytes on until no more than `slack` of them wait, with these replies. -/
def pour (slack : Nat) (d : Draft) : List Reply → Except DiskFault Unit × Draft
  | [] => (.ok (), (if d.pending.length ≤ slack then d else d.took d.pending.length).facing [])
  | reply :: rest =>
    if d.pending.length ≤ slack then (.ok (), d.facing (reply :: rest))
    else match reply with
      | .granted => (.ok (), (d.took d.pending.length).facing rest)
      | .part taken => pour slack (d.took taken) rest
      | .refused why => (.error why, d.facing rest)

def pass (slack : Nat) : Drafting Unit := ⟨fun d => pour slack d d.disk.replies⟩

/-- Passes on all that waits; moving to another place in the file begins with this. -/
def flush : Drafting Unit := pass 0

/-- Puts bytes into the empty buffer, and passes on what it cannot hold.  Where that is refused,
none wait. -/
def write (p : Patch) : Drafting Unit := do
  modify fun d => { d with place := p.offset, pending := p.bytes }
  tryCatch (pass Handle.blockSize) fun why => do
    modify fun d => { d with pending := [] }
    throw why

/-- A request that is not about bytes. -/
def request : Drafting Unit :=
  ⟨fun d => match d.disk.replies with
    | [] => (.ok (), d)
    | .refused why :: rest => (.error why, d.facing rest)
    | _ :: rest => (.ok (), d.facing rest)⟩

/-- Forces out what was passed on, where that is asked for. -/
def sync : Drafting Unit := do
  if (← get).disk.forced then request

/-- Cuts the file off. -/
def cut (length : Nat) : Drafting Unit := do
  flush
  request
  modify fun d => { d with file := d.file.take length }

/-- Writes bytes and passes them on. -/
def put (p : Patch) : Drafting Unit := do
  write p
  flush
  sync

/-- Writes over bytes of the file. -/
def overwrite (p : Patch) : Drafting Unit := do
  flush
  put p

/-- Writes bytes behind the others; where they are refused, the file is cut back to its length
before. -/
def append (p : Patch) : Drafting Unit := do
  flush
  tryCatch (put p) fun why => do
    cut p.offset
    throw why

/-- Writes the patches of a change, of which those before `stop` set a flag.  Where what follows a
flag is refused, the flag is set back. -/
def commit (stop : Nat) : List Patch → Drafting Unit
  | [] => pure ()
  | p :: ps =>
    if p.offset < stop then do
      overwrite p
      tryCatch (commit stop ps) fun why => do
        overwrite (Table.flag p.offset false)
        throw why
    else do
      append p
      commit stop ps

end Draft
end Tabulary
