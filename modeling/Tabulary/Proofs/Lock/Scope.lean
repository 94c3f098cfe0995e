import Tabulary.Proofs.Attempt
import Tabulary.Proofs.Lock.Program

/-!
Code that has a lock by blocks alone.  A block asks for the lock with no time to wait, goes through
its steps and gives the lock back however they end; without the lock it fails before its first step.
The steps may nest in any way, fail at any depth, and go on after failures.

Main statement: where no writer waits, such code leaves the lock as it found it, and inside a block
that holds the lock every exclusive block fails, so that a failure in its place changes nothing
(`Script.lock_balanced`).  Programs of blocks, whose failures are noted and passed over, are such
code (`Nest.run_scripts`).
-/

namespace Tabulary
namespace Lock

variable {σ α : Type}

/-- What a thread does that shares a lock and has a state of its own. -/
abbrev Use (σ α : Type) := Attempt Fault (Lock × σ) α

namespace Use

/-- Work on the thread's own state, which may look at the lock. -/
def beside (work : Lock → Attempt Fault σ α) : Use σ α :=
  ⟨fun (l, s) => (((work l).run s).1, l, ((work l).run s).2)⟩

/-- Asks for the lock with no time to wait.  A writer counts among those who wait while it looks at
the lock, and no longer, whether it gets the lock or not. -/
def ask (mode : LockMode) : Use σ Unit :=
  ⟨fun (l, s) =>
    let counted := l.join mode
    if counted.available mode then (.ok (), (counted.leave mode).held mode, s)
    else (.error (.lockTimeout mode), (counted.leave mode).settle, s)⟩

def giveBack (mode : LockMode) : Use σ Unit :=
  ⟨fun (l, s) => match l.release mode with
    | .ok l' => (.ok (), l'.settle, s)
    | .error fault => (.error fault, l.settle, s)⟩

/-- Holds the lock meanwhile, and gives it back before it ends in the same way. -/
def holding (mode : LockMode) (x : Use σ α) : Use σ α := do
  ask mode
  let result ← x.outcome
  giveBack mode
  .ofExcept result

end Use

/-- A step of code that has the lock by blocks alone. -/
inductive Script (σ : Type) where
  | act (work : Lock → Attempt Fault σ Unit)
  | block (mode : LockMode) (body : List (Script σ))
  /-- Steps that others take over from when they fail. -/
  | guarded (body : List (Script σ)) (handler : Fault → List (Script σ))

namespace Script

mutual

def use : Script σ → Use σ Unit
  | act work => .beside work
  | block mode body => .holding mode (useAll body)
  | guarded body handler => tryCatch (useAll body) fun fault => useAll (handler fault)

def useAll : List (Script σ) → Use σ Unit
  | [] => pure ()
  | step :: rest => do
    step.use
    useAll rest

end

mutual

/-- The step with a failure in the place of each exclusive block, however deep inside. -/
def barred : Script σ → Script σ
  | act work => act work
  | block .shared body => block .shared (barredAll body)
  | block .exclusive _ => act fun _ => throw (.lockTimeout .exclusive)
  | guarded body handler => guarded (barredAll body) fun fault => barredAll (handler fault)

def barredAll : List (Script σ) → List (Script σ)
  | [] => []
  | step :: rest => step.barred :: barredAll rest

end

end Script

/-! ## One block -/

section block

variable {l held : Lock} {mode : LockMode} {fault : Fault} {x y : Use σ α}

theorem available_join_self (l : Lock) (mode : LockMode) :
    (l.join mode).available mode = l.available mode := by
  cases mode <;> rfl

theorem acquire_eq_ok (h : l.acquire mode = .ok held) :
    l.available mode = true ∧ held = l.held mode := by
  by_cases hav : l.available mode = true
  · rw [acquire_of_available hav] at h
    exact ⟨hav, (Except.ok.inj h).symm⟩
  · rw [acquire_of_not_available (Bool.eq_false_iff.mpr hav)] at h
    cases h

theorem acquire_eq_error (h : l.acquire mode = .error fault) :
    l.available mode = false ∧ fault = .lockTimeout mode := by
  by_cases hav : l.available mode = true
  · rw [acquire_of_available hav] at h
    cases h
  · rw [acquire_of_not_available (Bool.eq_false_iff.mpr hav)] at h
    exact ⟨Bool.eq_false_iff.mpr hav, (Except.error.inj h).symm⟩

/-- What a request has got is what its release gives back. -/
theorem release_of_acquire (h : l.acquire mode = .ok held) : held.release mode = .ok l := by
  obtain ⟨hav, rfl⟩ := acquire_eq_ok h
  cases mode with
  | shared =>
    have hreaders : (l.held .shared).readers ≠ 0 := Nat.succ_ne_zero l.readers
    rw [release, if_neg hreaders]
    rfl
  | exclusive =>
    have hwriter : l.writer = false := (available_exclusive.mp hav).1
    show Except.ok ({ l with writer := false } : Lock) = .ok l
    rw [← hwriter]

theorem waiting_of_acquire (h : l.acquire mode = .ok held) : held.waiting = l.waiting := by
  obtain ⟨-, rfl⟩ := acquire_eq_ok h
  cases mode <;> rfl

/-- Somebody who holds the lock keeps writers out, the holder's own included. -/
theorem not_available_of_acquire (h : l.acquire mode = .ok held) :
    held.available .exclusive = false := by
  obtain ⟨-, rfl⟩ := acquire_eq_ok h
  cases mode with
  | shared =>
    exact Bool.eq_false_iff.mpr fun hav => absurd (available_exclusive.mp hav).2
      (Nat.succ_ne_zero _)
  | exclusive => exact available_of_writer rfl .exclusive

/-- Nobody is served where no writer waits. -/
theorem settle_of_waiting (h : l.waiting = 0) :
    l.settle = l := Monitor.settle_eq_self fun hw => absurd h hw

namespace Use

theorem run_ask_ok (h : l.acquire mode = .ok held) (s : σ) :
    (ask mode).run (l, s) = (.ok (), held, s) := by
  obtain ⟨hav, rfl⟩ := acquire_eq_ok h
  show (if (l.join mode).available mode = true then _ else _ : Except Fault Unit × Lock × σ) = _
  rw [available_join_self, if_pos hav, Monitor.leave_join]

theorem run_ask_error (h : l.acquire mode = .error fault) (s : σ) :
    (ask mode).run (l, s) = (.error fault, l.settle, s) := by
  obtain ⟨hav, rfl⟩ := acquire_eq_error h
  show (if (l.join mode).available mode = true then _ else _ : Except Fault Unit × Lock × σ) = _
  rw [available_join_self, if_neg (Bool.eq_false_iff.mp hav), Monitor.leave_join]

theorem run_giveBack_ok {l' : Lock} (h : l.release mode = .ok l') (s : σ) :
    (giveBack mode).run (l, s) = (.ok (), l'.settle, s) := by
  unfold giveBack
  dsimp only
  rw [h]

theorem run_giveBack_error (h : l.release mode = .error fault) (s : σ) :
    (giveBack mode).run (l, s) = (.error fault, l.settle, s) := by
  unfold giveBack
  dsimp only
  rw [h]

/-- Without the lock nothing is done. -/
theorem run_holding_error (h : l.acquire mode = .error fault) (s : σ) :
    (holding mode x).run (l, s) = (.error fault, l.settle, s) :=
  Attempt.run_bind_of_error (run_ask_error h s)

/-- With the lock everything is done, and then the lock is given back. -/
theorem run_holding (h : l.acquire mode = .ok held) {s s' : σ} {inner : Lock}
    {result : Except Fault α} (hx : x.run (held, s) = (result, inner, s')) :
    (holding mode x).run (l, s) = (giveBack mode >>= fun _ => .ofExcept result).run
    (inner, s') := by
  have houtcome : x.outcome.run (held, s) = (.ok result, inner, s') := by
    show (Except.ok (x.run (held, s)).1, (x.run (held, s)).2) = _
    rw [hx]
  rw [holding, Attempt.run_bind_of_ok (run_ask_ok h s), Attempt.run_bind_of_ok houtcome]

/-- A lock that is kept meanwhile is given back as it was. -/
theorem run_holding_kept (h : l.acquire mode = .ok held) (hw : l.waiting = 0) {s : σ}
    (hkept : (x.run (held, s)).2.1 = held) :
    (holding mode x).run (l, s) = ((x.run (held, s)).1, l, (x.run (held, s)).2.2) := by
  have hx : x.run (held, s) = ((x.run (held, s)).1, held, (x.run (held, s)).2.2) :=
    Prod.ext rfl (Prod.ext hkept rfl)
  have hback := run_giveBack_ok (release_of_acquire h) (x.run (held, s)).2.2
  rw [settle_of_waiting hw] at hback
  rw [run_holding h hx, Attempt.run_bind_of_ok hback, Attempt.run_ofExcept]

/-- The same state twice, with this lock in it. -/
def Same (l : Lock) (a b : Lock × σ) : Prop := a.1 = l ∧ b = a

/-- Both do the same from where the lock is this one, and leave it. -/
abbrev Alike (l : Lock) (x y : Use σ α) : Prop := Attempt.Simulates (Same l) x y

theorem Alike.lock (h : Alike l x y) (s : σ) : (x.run (l, s)).2.1 = l := (h _ _ ⟨rfl, rfl⟩).2.1

theorem Alike.run_eq (h : Alike l x y) (s : σ) : y.run (l, s) = x.run (l, s) := by
  obtain ⟨hresult, -, hstate⟩ := h (l, s) (l, s) ⟨rfl, rfl⟩
  exact Prod.ext hresult.symm hstate

theorem alike_of_run (h : ∀ s, (x.run (l, s)).2.1 = l ∧ y.run (l, s) = x.run (l, s)) :
    Alike l x y := by
  rintro ⟨_, s⟩ _ ⟨rfl, rfl⟩
  obtain ⟨hlock, heq⟩ := h s
  exact ⟨congrArg Prod.fst heq.symm, hlock, congrArg Prod.snd heq⟩

/-- What is alike with the lock held is alike as the steps of a block. -/
theorem alike_holding (hw : l.waiting = 0)
    (h : ∀ held, l.acquire mode = .ok held → Alike held x y) :
    Alike l (holding mode x) (holding mode y) := by
  refine alike_of_run fun s => ?_
  cases hacquire : l.acquire mode with
  | error fault =>
    rw [run_holding_error hacquire, run_holding_error hacquire]
    exact ⟨settle_of_waiting hw, rfl⟩
  | ok held =>
    have hxy := h held hacquire
    have hkept : (y.run (held, s)).2.1 = held :=
      (congrArg (·.2.1) (hxy.run_eq s)).trans (hxy.lock s)
    rw [run_holding_kept hacquire hw (hxy.lock s), run_holding_kept hacquire hw hkept, hxy.run_eq s]
    exact ⟨rfl, rfl⟩

end Use

end block

/-! ## Whole scripts -/

namespace Script

open Use

mutual

/-- A step leaves the lock as it found it: a block gives back what it has taken, and takes nothing
where it fails. -/
theorem alike_use {l : Lock} (hw : l.waiting = 0) : ∀ step : Script σ, Alike l step.use step.use
  | act _ => alike_of_run fun _ => ⟨rfl, rfl⟩
  | block _ body => alike_holding hw fun _ h => alike_useAll ((waiting_of_acquire h).trans hw) body
  | guarded body handler =>
    (alike_useAll hw body).tryCatch fun fault => alike_useAll hw (handler fault)

theorem alike_useAll {l : Lock} (hw : l.waiting = 0) :
    ∀ steps : List (Script σ), Alike l (useAll steps) (useAll steps)
  | [] => Attempt.simulates_pure ()
  -- What comes after a step, or after its failure, finds the lock that the step has left, which is
  -- `l` again.
  | step :: rest => (alike_use hw step).bind fun _ => alike_useAll hw rest

end

mutual

/-- Where no writer is let in, a step does what it does with a failure for each exclusive block. -/
theorem alike_barred {l : Lock} (hw : l.waiting = 0) (hav : l.available .exclusive = false) :
    ∀ step : Script σ, Alike l step.use step.barred.use
  | act _ => alike_of_run fun _ => ⟨rfl, rfl⟩
  | block .shared body =>
    alike_holding hw fun _ h =>
      alike_barredAll ((waiting_of_acquire h).trans hw) (not_available_of_acquire h) body
  | block .exclusive body => by
    refine alike_of_run fun s => ?_
    rw [use, run_holding_error (acquire_of_not_available hav), settle_of_waiting hw]
    exact ⟨rfl, rfl⟩
  | guarded body handler =>
    (alike_barredAll hw hav body).tryCatch fun fault => alike_barredAll hw hav (handler fault)

theorem alike_barredAll {l : Lock} (hw : l.waiting = 0) (hav : l.available .exclusive = false) :
    ∀ steps : List (Script σ), Alike l (useAll steps) (useAll (barredAll steps))
  | [] => Attempt.simulates_pure ()
  | step :: rest => (alike_barred hw hav step).bind fun _ => alike_barredAll hw hav rest

end

end Script

/-! ## Programs of blocks -/

/-- A block with the blocks in it. -/
inductive Nest where
  | block (mode : LockMode) (inner : List Nest)

namespace Script

/-- Notes a step that is over, how it failed if it did, and the lock after it. -/
def note (step : Step) (failure : Option Fault) : Script (List Entry) :=
  act fun l => modify (· ++ [⟨step, failure, l⟩])

/-- Goes through a step and notes it, so that its failure goes no further. -/
def noted (step : Step) (script : Script (List Entry)) : Script (List Entry) :=
  guarded [script, note step none] fun fault => [note step (some fault)]

variable {l l' : Lock} {entries entries' : List Entry} {script : Script (List Entry)}

theorem run_noted_ok (step : Step) (h : script.use.run (l, entries) = (.ok (), l', entries')) :
    (noted step script).use.run (l, entries) = (.ok (), l', entries' ++ [⟨step, none, l'⟩]) :=
  Attempt.run_tryCatch_of_ok (Attempt.run_bind_of_ok h)

theorem run_noted_error (step : Step) {fault : Fault}
    (h : script.use.run (l, entries) = (.error fault, l', entries')) :
    (noted step script).use.run (l, entries) =
    (.ok (), l', entries' ++ [⟨step, some fault, l'⟩]) :=
  Attempt.run_tryCatch_of_error (Attempt.run_bind_of_error h)

end Script

namespace Nest

mutual

def step : Nest → Step
  | block mode inner => .block mode (steps inner)

def steps : List Nest → List Step
  | [] => []
  | nest :: rest => nest.step :: steps rest

end

mutual

/-- The block, which is noted when it is over. -/
def script : Nest → Script (List Entry)
  | block mode inner => .noted (.block mode (steps inner)) (.block mode (scripts inner))

def scripts : List Nest → List (Script (List Entry))
  | [] => []
  | nest :: rest => nest.script :: scripts rest

end

open Use Script

mutual

/-- A program of blocks is a script that notes what it does. -/
theorem run_script (l : Lock) (entries : List Entry) : ∀ nest : Nest,
    nest.script.use.run (l, entries) = (.ok (), (l.run nest.step).1, entries ++ (l.run nest.step).2)
  | block mode inner => by
    rw [script, step]
    cases hacquire : l.acquire mode with
    | error fault =>
      have hblock : (Script.block mode (scripts inner)).use.run (l, entries) =
          (.error fault, l.settle, entries) := run_holding_error hacquire entries
      rw [Monitor.run_block_error _ hacquire, run_noted_error _ hblock]
    | ok held =>
      have hblock : (Script.block mode (scripts inner)).use.run (l, entries) = _ :=
        run_holding hacquire (run_scripts held entries inner)
      rw [Monitor.run_block_ok _ hacquire, ← List.append_assoc]
      -- A release that fails is noted like any other failure, so what blocks leave of a lock is not
      -- needed here.
      cases hrelease : (held.runAll (steps inner)).1.release mode with
      | error fault =>
        rw [Attempt.run_bind_of_error (run_giveBack_error hrelease _)] at hblock
        exact run_noted_error _ hblock
      | ok l' =>
        rw [Attempt.run_bind_of_ok (run_giveBack_ok hrelease _)] at hblock
        exact run_noted_ok _ hblock

theorem run_scripts (l : Lock) (entries : List Entry) : ∀ nests : List Nest,
    (useAll (scripts nests)).run (l, entries) =
      (.ok (), (l.runAll (steps nests)).1, entries ++ (l.runAll (steps nests)).2)
  | [] => by
    rw [scripts, steps, runAll, List.append_nil]
    rfl
  | nest :: rest => by
    rw [scripts, steps, Monitor.runAll_step_cons, useAll,
      Attempt.run_bind_of_ok (run_script l entries nest), run_scripts _ _ rest, List.append_assoc]

end

end Nest

/-! ## What blocks leave -/

/-- Where no writer waits, code that has the lock by blocks alone leaves it as it found it, whatever
its blocks and its failures.  A block that does not get the lock fails without a step.  One that
gets it ends as its steps end, and gives it back; in it each exclusive block, however deep, fails
for want of time as if it had no steps.  The same goes for programs of blocks. -/
theorem Script.lock_balanced (l : Lock) (hw : l.waiting = 0) (s : σ) :
    (∀ steps : List (Script σ), ((useAll steps).run (l, s)).2.1 = l) ∧
      (∀ mode (body : List (Script σ)) fault, l.acquire mode = .error fault →
        (block mode body).use.run (l, s) = (.error fault, l, s)) ∧
      (∀ mode (body : List (Script σ)) held, l.acquire mode = .ok held →
        (block mode body).use.run (l, s) =
          (((useAll body).run (held, s)).1, l, ((useAll body).run (held, s)).2.2) ∧
        (useAll (barredAll body)).run (held, s) = (useAll body).run (held, s)) ∧
      ∀ nests : List Nest, (l.runAll (Nest.steps nests)).1 = l := by
  refine ⟨fun steps => (alike_useAll hw steps).lock s, fun mode body fault h => ?_,
    fun mode body held h => ⟨?_, ?_⟩, fun nests => ?_⟩
  · have hfails := Use.run_holding_error (x := useAll body) h s
    rwa [settle_of_waiting hw] at hfails
  · have hbody := alike_useAll ((waiting_of_acquire h).trans hw) body
    exact Use.run_holding_kept h hw (hbody.lock s)
  · have hbarred := alike_barredAll ((waiting_of_acquire h).trans hw)
      (not_available_of_acquire h) body
    exact hbarred.run_eq s
  · have hscripts := (alike_useAll hw (Nest.scripts nests)).lock ([] : List Entry)
    rwa [Nest.run_scripts] at hscripts

/-- Looks at the lock and remembers it. -/
def Script.look : Script (List Lock) := .act fun l => modify (· ++ [l])

/-- A writer that readers keep out, before and inside a block of a reader, and a failure two blocks
deep. -/
def errand : List (Script (List Lock)) :=
  [.guarded [.block .exclusive [.look]] fun _ => [],
    .block .shared
      [.look, .guarded [.block .exclusive [.look]] fun _ => [.look],
        .block .shared [.look, .act fun _ => throw .engineStopped], .look],
    .look]

theorem Script.lock_balanced_errand :
    let l : Lock := ⟨2, false, 0, 0⟩
    let inside : Lock := ⟨3, false, 0, 0⟩
    let body : List (Script (List Lock)) := [.block .exclusive [.look], .look]
    l.waiting = 0 ∧
      (useAll errand).run (l, []) =
      (.error .engineStopped, l, [inside, inside, ⟨4, false, 0, 0⟩]) ∧
      ((useAll errand).run (l, [])).2.1 = l ∧
      (l.acquire .exclusive = .error (.lockTimeout .exclusive) ∧
        (block .exclusive body).use.run (l, []) = (.error (.lockTimeout .exclusive), l, [])) ∧
      l.acquire .shared = .ok inside ∧ (useAll body).run (inside, []) =
        (.error (.lockTimeout .exclusive), inside, []) ∧
        (block .shared body).use.run (l, []) =
          (((useAll body).run (inside, [])).1, l, ((useAll body).run (inside, [])).2.2) ∧
        (useAll (barredAll body)).run (inside, []) = (useAll body).run (inside, []) := by
  intro l inside body
  obtain ⟨hsteps, hfails, hholds, -⟩ := Script.lock_balanced l rfl ([] : List Lock)
  exact ⟨rfl, rfl, hsteps errand, ⟨rfl, hfails _ body _ rfl⟩, rfl, rfl,
    hholds _ body inside rfl⟩

end Lock
end Tabulary
