import Tabulary.Error.Fault

/-!
A lock that many readers or one writer may hold.  A writer that waits keeps new readers out, so
readers cannot starve it.  Requests here never wait: they are granted at once or time out, except
that a writer may queue.
-/

namespace Tabulary

structure Lock where
  readers : Nat
  writer : Bool
  waiting : Nat
  /-- How many writers that waited were granted the lock. -/
  granted : Nat
deriving DecidableEq, Repr

namespace Lock

def free : Lock := ⟨0, false, 0, 0⟩

/-- Whether a request in this mode is granted at once. -/
def available (l : Lock) : LockMode → Bool
  | .shared => !l.writer && l.waiting == 0
  | .exclusive => !l.writer && l.readers == 0

def acquire (l : Lock) (mode : LockMode) : Except Fault Lock :=
  if l.available mode then
    match mode with
    | .shared => .ok { l with readers := l.readers + 1 }
    | .exclusive => .ok { l with writer := true }
  else .error (.lockTimeout mode)

def release (l : Lock) : LockMode → Except Fault Lock
  | .shared =>
    if l.readers = 0 then .error (.lockNotHeld .shared)
    else .ok { l with readers := l.readers - 1 }
  | .exclusive =>
    if l.writer then .ok { l with writer := false } else .error (.lockNotHeld .exclusive)

def enqueue (l : Lock) : Lock := { l with waiting := l.waiting + 1 }

/-- Grants the lock to a waiting writer if it is free for one. -/
def settle (l : Lock) : Lock :=
  if l.waiting ≠ 0 ∧ l.available .exclusive then
    { l with writer := true, waiting := l.waiting - 1, granted := l.granted + 1 }
  else l

/-- Programs over one lock.  A block holds the lock in its mode around the steps inside it. -/
inductive Step where
  | acquire (mode : LockMode)
  | release (mode : LockMode)
  | queueWriter
  | block (mode : LockMode) (steps : List Step)
deriving Inhabited

/-- A completed step: what it was, how it failed if it did, and the lock after it. -/
structure Entry where
  step : Step
  failure : Option Fault
  lock : Lock

/-- The lock after a request, and the failure that leaves it as it was. -/
def attempt (l : Lock) (r : Except Fault Lock) : Lock × Option Fault :=
  match r with
  | .ok l' => (l'.settle, none)
  | .error e => (l.settle, some e)

mutual

/-- Runs a step; the entries of a block's inner steps come before its own.  A block that does not
get the lock runs none of them. -/
def run (l : Lock) : Step → Lock × List Entry
  | .acquire mode =>
    let (l', failure) := attempt l (l.acquire mode)
    (l', [⟨.acquire mode, failure, l'⟩])
  | .release mode =>
    let (l', failure) := attempt l (l.release mode)
    (l', [⟨.release mode, failure, l'⟩])
  | .queueWriter =>
    let l' := l.enqueue.settle
    (l', [⟨.queueWriter, none, l'⟩])
  | .block mode steps =>
    match l.acquire mode with
    | .error e => (l.settle, [⟨.block mode steps, some e, l.settle⟩])
    | .ok held =>
      let (inner, entries) := runAll held steps
      let (l', failure) := attempt inner (inner.release mode)
      (l', entries ++ [⟨.block mode steps, failure, l'⟩])

def runAll (l : Lock) : List Step → Lock × List Entry
  | [] => (l, [])
  | s :: rest =>
    let (l', entries) := run l s
    let (l'', more) := runAll l' rest
    (l'', entries ++ more)

end

end Lock
end Tabulary
