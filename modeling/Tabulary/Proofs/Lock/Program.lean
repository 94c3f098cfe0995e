import Tabulary.Proofs.Lock.Exclusion
import Tabulary.Proofs.Lock.Preference

/-!
A program over one lock as a run of threads: the thread that runs the program asks with its time
already up, and each writer that queues is a thread of its own.  Main statement: every program is
such a run, with the same failures, and its lock after each step is one that the threads settle at
(`played_runAll`), so what holds of all threads holds of programs (`apart_of_mem_runAll`).
-/

namespace Tabulary
namespace Lock

/-- The failure that an event is. -/
def Event.fault? (e : Event) : Option Fault :=
  match e.outcome with
  | .failed fault => some fault
  | _ => none

def faults (es : List Event) : List Fault := es.filterMap Event.fault?

namespace Monitor

/-- The moves of some threads lead from one state to another. -/
def Reaches (m : Monitor) (es : List Event) (m' : Monitor) :
    Prop := ∃ moves, m.runAll moves = some (es, m')

/-- The threads are where a program has got to: its lock, and the writers that it queued.  Only the
tally of the writers that were served is not theirs. -/
structure Follows (l : Lock) (m : Monitor) : Prop where
  lock : m.lock = { l with granted := 0 }
  sound : Sound m
  queued : ∀ r ∈ m.requests, r.mode = .exclusive ∧ r.timed = false ∧ r.thread ≠ 0

/-- Besides, every wake-up has taken effect. -/
structure Plays (l : Lock) (m : Monitor) : Prop extends Follows l m where
  settled : m.Settled

variable {l : Lock} {m m₁ m' : Monitor} {move : Move} {e : Event} {es es' : List Event}
  {mode : LockMode}

theorem Reaches.refl (m : Monitor) : Reaches m [] m := ⟨[], rfl⟩

theorem Reaches.trans (h : Reaches m es m₁) (h' : Reaches m₁ es' m') :
    Reaches m (es ++ es') m' := by
  obtain ⟨moves, hrun⟩ := h
  obtain ⟨more, hrun'⟩ := h'
  exact ⟨moves ++ more, runAll_append hrun hrun'⟩

theorem Reaches.of_step (h : m.step move = some (e, m')) : Reaches m [e] m' :=
  ⟨[move], runAll_of_step h rfl⟩

theorem faults_append (es es' : List Event) : faults (es ++ es') = faults es ++ faults es' :=
  List.filterMap_append

/-! ## Wake-ups taking effect -/

theorem settle_of_available (hw : l.waiting ≠ 0) (hav : l.available .exclusive = true) :
    l.settle = ⟨l.readers, true, l.waiting - 1, l.granted + 1⟩ := if_pos ⟨hw, hav⟩

theorem settle_eq_self (h : l.waiting ≠ 0 → l.available .exclusive = false) : l.settle = l :=
  if_neg fun h' => Bool.eq_false_iff.mp (h h'.1) h'.2

theorem settle_of_writer (h : l.writer = true) : l.settle = l :=
  settle_eq_self fun _ => available_of_writer h .exclusive

theorem settle_settle (l : Lock) : l.settle.settle = l.settle := by
  by_cases h : l.waiting ≠ 0 ∧ l.available .exclusive = true
  · refine settle_of_writer ?_
    rw [settle_of_available h.1 h.2]
  · have hself : l.settle = l := if_neg h
    rw [hself, hself]

namespace Follows

theorem writer (h : Follows l m) {w : Waiter} (mem : w ∈ m.waiters) :
    w.mode = .exclusive ∧ w.timed = false ∧ w.thread ≠ 0 :=
    h.queued _ (List.mem_map_of_mem mem)

/-- A program's lock counts the writers that wait as the threads' does. -/
theorem waiting_ne_zero_iff (h : Follows l m) :
    l.waiting ≠ 0 ↔ ∃ w ∈ m.waiters, w.mode = .exclusive := by
  rw [← h.sound.waiting_ne_zero_iff, h.lock]

theorem available_eq (h : Follows l m) (mode : LockMode) :
    m.lock.available mode = l.available mode := by
  rw [h.lock]
  cases mode <;> rfl

/-- A writer that looks at the lock is served, or goes on waiting for it. -/
theorem look (h : Follows l m) (hlook : move.IsLook) (t : Turn m move e m') :
    ∃ l', l'.settle = l.settle ∧ Follows l' m' ∧ e.fault? = none := by
  have hs := h.sound.turn t
  cases t with
  | woken w late mem hav =>
    obtain ⟨hm, -, -⟩ := h.writer mem
    rw [hm, h.available_eq] at hav
    refine ⟨l.settle, settle_settle l, ⟨?_, hs, ?_⟩, rfl⟩
    · rw [settle_of_available (h.waiting_ne_zero_iff.mpr ⟨w, mem, hm⟩) hav, hm, h.lock]
      rfl
    · intro r hr
      obtain ⟨v, hv, rfl⟩ := mem_requests hr
      exact h.writer (mem_others.mp hv).1
  | resumed w mem hav =>
    exact ⟨l, rfl,
      ⟨h.lock, hs, fun r hr => h.queued r (requests_putToSleep m w.thread ▸ hr)⟩, rfl⟩
  | expired w mem timed hav => exact absurd ((h.writer mem).2.1.symm.trans timed) nofun
  | admitted | queued | freed | refused => exact hlook.elim

theorem looks {moves : List Move} (h : Follows l m) (hlooks : ∀ move ∈ moves, move.IsLook)
    (hrun : m.runAll moves = some (es, m')) :
    ∃ l', l'.settle = l.settle ∧ Follows l' m' ∧ faults es = [] := by
  induction moves generalizing l m es with
  | nil =>
    cases hrun
    exact ⟨l, rfl, h, rfl⟩
  | cons move moves ih =>
    obtain ⟨e, m₁, rest, hstep, hrest, rfl⟩ := runAll_cons_eq_some hrun
    obtain ⟨hlook, hlooks⟩ := List.forall_mem_cons.mp hlooks
    obtain ⟨l₁, hl₁, h₁, he⟩ := h.look hlook (step_turn hstep)
    obtain ⟨l₂, hl₂, h₂, hrest⟩ := ih h₁ hlooks hrest
    refine ⟨l₂, hl₂.trans hl₁, h₂, ?_⟩
    rw [faults, List.filterMap_cons_none he]
    exact hrest

/-- Where every wake-up has taken effect, no writer is left that could be served. -/
theorem settle_eq (h : Follows l m) (hsettled : m.Settled) : l.settle = l := by
  refine settle_eq_self fun hw => ?_
  obtain ⟨w, mem, hm⟩ := h.waiting_ne_zero_iff.mp hw
  have hasleep := h.sound.asleep w mem (hsettled w mem)
  rwa [hm, h.available_eq] at hasleep

/-- The wake-ups that are due serve the writer that a program's lock serves next. -/
theorem exists_plays (h : Follows l m) :
    ∃ es m', Reaches m es m' ∧ faults es = [] ∧ Plays l.settle m' := by
  obtain ⟨moves, es, m', hlooks, hrun, hsettled⟩ := h.sound.exists_settled
  obtain ⟨l', hl', h', hfaults⟩ := h.looks hlooks hrun
  refine ⟨es, m', ⟨moves, hrun⟩, hfaults, ?_⟩
  rw [← hl', h'.settle_eq hsettled]
  exact ⟨h', hsettled⟩

end Follows

/-! ## One step of a program -/

/-- What the threads come to by the steps of a program: the same failures, and the program's
lock. -/
def Matches (m : Monitor) (l' : Lock) (failures : List Fault) : Prop :=
  ∃ es m', Reaches m es m' ∧ faults es = failures ∧ Plays l' m'

theorem Follows.matches {failures : List Fault} (hreach : Reaches m es m₁)
    (hfaults : faults es = failures) (h : Follows l m₁) : Matches m l.settle failures := by
  obtain ⟨es', m', hreach', hnone, hplays⟩ := h.exists_plays
  refine ⟨es ++ es', m', hreach.trans hreach', ?_, hplays⟩
  rw [faults_append, hnone, List.append_nil, hfaults]

namespace Plays

theorem waiter?_main (h : Plays l m) : m.waiter? 0 = none :=
  waiter?_eq_none.mpr fun _ mem => (h.writer mem).2.2

theorem step_request (h : Plays l m) {r : Request} (hidle : m.waiter? r.thread = none)
    (hav : l.available r.mode = true) :
    m.step (.request r) = some (⟨r.thread, r.mode, .granted⟩,
      { m with lock := m.lock.held r.mode }) := by
  rw [← h.available_eq] at hav
  simp only [step, hidle, Option.isNone_none, if_true, Monitor.request, acquire_eq, hav]

theorem step_request_waits (h : Plays l m) {r : Request} (hidle : m.waiter? r.thread = none)
    (hav : l.available r.mode = false) :
    m.step (.request r) =
      some (⟨r.thread, r.mode, .waits⟩,
        ⟨m.lock.join r.mode, m.waiters ++ [⟨r, false⟩]⟩) := by
  rw [← h.available_eq] at hav
  simp only [step, hidle, Option.isNone_none, if_true, Monitor.request, acquire_eq, hav,
    Bool.false_eq_true, if_false]

/-- The lock is taken. -/
theorem held (h : Plays l m) (hav : l.available mode = true) :
    Reaches m [⟨0, mode, .granted⟩] { m with lock := m.lock.held mode } ∧
      Plays (l.held mode) { m with lock := m.lock.held mode } := by
  have hstep := h.step_request (r := ⟨0, mode, true⟩) h.waiter?_main hav
  refine ⟨.of_step hstep, ⟨?_, h.sound.turn (step_turn hstep), h.queued⟩, h.settled⟩
  show m.lock.held mode = _
  rw [h.lock]
  cases mode <;> rfl

/-- The lock is not to be had: the thread waits until its time is up, which it is, and leaves no
trace. -/
theorem not_held (h : Plays l m) (hav : l.available mode = false) :
    ∃ m', Reaches m [⟨0, mode, .waits⟩, ⟨0, mode, .failed (.lockTimeout mode)⟩] m' ∧
    Follows l m' := by
  have hstep := h.step_request_waits (r := ⟨0, mode, true⟩) h.waiter?_main hav
  generalize hm₁ :
    (⟨m.lock.join mode, m.waiters ++ [⟨⟨0, mode, true⟩, false⟩]⟩ : Monitor) =
    m₁ at hstep
  have hmem : (⟨⟨0, mode, true⟩, false⟩ : Waiter) ∈ m₁.waiters := by simp [← hm₁]
  have ht := step_turn hstep
  have hs := h.sound.turn ht
  have hlook := hs.step_look hmem (.inr rfl) true fun _ => rfl
  generalize m₁.look ⟨⟨0, mode, true⟩, false⟩ true = p at hlook
  obtain ⟨e, m'⟩ := p
  obtain ⟨h', -⟩ | ⟨-, rfl, hlock, hrequests⟩ :=
    (Asked.of_request ht hmem rfl).look hs (step_turn hlook)
  · cases h'
  · refine ⟨m', (Reaches.of_step hstep).trans (.of_step hlook), hlock.trans h.lock, ?_, ?_⟩
    · exact hs.turn (step_turn hlook)
    · exact hrequests.symm ▸ h.queued

theorem attempt_acquire (h : Plays l m) (mode : LockMode) :
    Matches m (l.attempt (l.acquire mode)).1 (l.attempt (l.acquire mode)).2.toList := by
  cases hav : l.available mode with
  | true =>
    obtain ⟨hreach, hplays⟩ := h.held hav
    rw [acquire_of_available hav]
    exact Follows.matches hreach rfl hplays.toFollows
  | false =>
    rw [acquire_of_not_available hav]
    obtain ⟨m', hreach, hfollows⟩ := h.not_held hav
    exact Follows.matches hreach rfl hfollows

theorem release_uncounted (l : Lock) (mode : LockMode) :
    ({ l with granted := 0 } : Lock).release mode =
    (l.release mode).map ({ · with granted := 0 }) := by
  cases mode with
  | shared =>
    rw [Lock.release, Lock.release]
    split <;> rfl
  | exclusive =>
    rw [Lock.release, Lock.release]
    split <;> rfl

theorem attempt_release (h : Plays l m) (mode : LockMode) :
    Matches m (l.attempt (l.release mode)).1 (l.attempt (l.release mode)).2.toList := by
  have hidle : (m.waiter? 0).isNone = true := by rw [h.waiter?_main, Option.isNone_none]
  have hstep : m.step (.release 0 mode) = some (m.release 0 mode) := if_pos hidle
  have hlock := release_uncounted l mode
  rw [← h.lock] at hlock
  rw [Monitor.release, hlock] at hstep
  cases hl : l.release mode with
  | error fault =>
    rw [hl] at hstep
    exact Follows.matches (.of_step hstep) rfl h.toFollows
  | ok l' =>
    rw [hl] at hstep
    have ht := step_turn hstep
    refine Follows.matches (.of_step hstep) rfl
      ⟨?_, h.sound.turn ht, requests_of_release ht ▸ h.queued⟩
    split <;> rfl

theorem exists_fresh (numbers : List Nat) : ∃ n, 0 < n ∧ ∀ k ∈ numbers, k < n := by
  induction numbers with
  | nil => exact ⟨1, Nat.one_pos, nofun⟩
  | cons k numbers ih =>
    obtain ⟨n, hn, hlt⟩ := ih
    refine ⟨n + k + 1, by omega, List.forall_mem_cons.mpr ⟨by omega, fun j hj => ?_⟩⟩
    have := hlt j hj
    omega

/-- A writer queues on a thread of its own. -/
theorem queueWriter (h : Plays l m) : Matches m l.enqueue.settle [] := by
  obtain ⟨thread, hpos, hlt⟩ := exists_fresh (m.waiters.map (·.thread))
  have hidle : m.waiter? thread = none :=
    waiter?_eq_none.mpr fun w mem => Nat.ne_of_lt (hlt _ (List.mem_map_of_mem mem))
  cases hav : l.available .exclusive with
  | true =>
    have hstep := h.step_request (r := ⟨thread, .exclusive, false⟩) hidle hav
    rw [← settle_settle]
    refine Follows.matches (.of_step hstep) rfl ⟨?_, h.sound.turn (step_turn hstep), h.queued⟩
    rw [settle_of_available (l := l.enqueue) (Nat.succ_ne_zero _) hav]
    show m.lock.held .exclusive = _
    rw [h.lock]
    rfl
  | false =>
    have hstep := h.step_request_waits (r := ⟨thread, .exclusive, false⟩) hidle hav
    refine Follows.matches (.of_step hstep) rfl
      ⟨?_, h.sound.turn (step_turn hstep), fun r hr => ?_⟩
    · show m.lock.enqueue = _
      rw [h.lock]
      rfl
    · rw [requests, List.map_append] at hr
      obtain hr | hr := List.mem_append.mp hr
      · exact h.queued r hr
      · obtain rfl := List.mem_singleton.mp hr
        exact ⟨rfl, rfl, Nat.ne_of_gt hpos⟩

end Plays

/-! ## Whole programs -/

theorem run_acquire (l : Lock) (mode : LockMode) :
    l.run (.acquire mode) =
      ((l.attempt (l.acquire mode)).1,
        [⟨.acquire mode, (l.attempt (l.acquire mode)).2, (l.attempt (l.acquire mode)).1⟩]) := by
  rw [Lock.run]

theorem run_release (l : Lock) (mode : LockMode) :
    l.run (.release mode) =
      ((l.attempt (l.release mode)).1,
        [⟨.release mode, (l.attempt (l.release mode)).2, (l.attempt (l.release mode)).1⟩]) := by
  rw [Lock.run]

theorem run_queueWriter (l : Lock) :
    l.run .queueWriter = (l.enqueue.settle, [⟨.queueWriter, none, l.enqueue.settle⟩]) := by
  rw [Lock.run]

theorem run_block_error {fault : Fault} (steps : List Step) (h : l.acquire mode = .error fault) :
    l.run (.block mode steps) = (l.settle, [⟨.block mode steps, some fault, l.settle⟩]) := by
  rw [Lock.run, h]

theorem run_block_ok {held : Lock} (steps : List Step) (h : l.acquire mode = .ok held) :
    l.run (.block mode steps) =
      (((held.runAll steps).1.attempt ((held.runAll steps).1.release mode)).1,
        (held.runAll steps).2 ++
          [⟨.block mode steps,
            ((held.runAll steps).1.attempt ((held.runAll steps).1.release mode)).2,
            ((held.runAll steps).1.attempt ((held.runAll steps).1.release mode)).1⟩]) := by
  rw [Lock.run, h]

theorem runAll_step_cons (l : Lock) (step : Step) (steps : List Step) :
    l.runAll (step :: steps) =
      (((l.run step).1.runAll steps).1, (l.run step).2 ++ ((l.run step).1.runAll steps).2) := by
  rw [Lock.runAll]

/-- A program's failures are those of a run of threads, and after each of its steps the lock is one
that the threads settle at. -/
structure Played (m : Monitor) (r : Lock × List Entry) : Prop where
  whole : Matches m r.1 (r.2.filterMap (·.failure))
  each : ∀ entry ∈ r.2, ∃ failures, Matches m entry.lock failures

theorem Matches.after {failures : List Fault} {l' : Lock} (hreach : Reaches m es m₁)
    (h : Matches m₁ l' failures) : Matches m l' (faults es ++ failures) := by
  obtain ⟨es', m', hreach', hfaults, hplays⟩ := h
  exact ⟨es ++ es', m', hreach.trans hreach', by rw [faults_append, hfaults], hplays⟩

namespace Played

/-- A step that completes with one entry. -/
theorem single {l' : Lock} {failure : Option Fault} (step : Step)
    (h : Matches m l' failure.toList) : Played m (l', [⟨step, failure, l'⟩]) where
  whole := by cases failure <;> exact h
  each entry hmem := by
    obtain rfl := List.mem_singleton.mp hmem
    exact ⟨_, h⟩

/-- One piece of a program after another. -/
theorem append {l₁ l₂ : Lock} {first second : List Entry} (h : Played m (l₁, first))
    (h' : ∀ m₁, Plays l₁ m₁ → Played m₁ (l₂, second)) :
    Played m (l₂, first ++ second) := by
  obtain ⟨es, m₁, hreach, hfaults, hplays⟩ := h.whole
  have hsecond := h' m₁ hplays
  refine ⟨?_, fun entry hmem => ?_⟩
  · rw [List.filterMap_append, ← hfaults]
    exact hsecond.whole.after hreach
  · obtain hmem | hmem := List.mem_append.mp hmem
    · exact h.each entry hmem
    · obtain ⟨failures, hm⟩ := hsecond.each entry hmem
      exact ⟨_, hm.after hreach⟩

/-- A piece of a program that starts after moves without a failure. -/
theorem after {r : Lock × List Entry} (hreach : Reaches m es m₁) (hnone : faults es = [])
    (h : Played m₁ r) : Played m r where
  whole := by
    have := h.whole.after hreach
    rwa [hnone] at this
  each entry hmem := by
    obtain ⟨failures, hm⟩ := h.each entry hmem
    exact ⟨_, hm.after hreach⟩

end Played

mutual

theorem Plays.run {l : Lock} {m : Monitor} (h : Plays l m) : ∀ step : Step, Played m (l.run step)
  | .acquire mode => by
    rw [run_acquire]
    exact .single _ (h.attempt_acquire mode)
  | .release mode => by
    rw [run_release]
    exact .single _ (h.attempt_release mode)
  | .queueWriter => by
    rw [run_queueWriter]
    exact .single _ h.queueWriter
  | .block mode steps => by
    cases hav : l.available mode with
    | true =>
      obtain ⟨hreach, hheld⟩ := h.held hav
      rw [run_block_ok steps (acquire_of_available hav)]
      refine .after hreach rfl (.append (Plays.runAll hheld steps) fun m₁ hinner => ?_)
      exact .single _ (hinner.attempt_release mode)
    | false =>
      obtain ⟨m', hreach, hfollows⟩ := h.not_held hav
      rw [run_block_error steps (acquire_of_not_available hav)]
      exact .single _ (Follows.matches hreach rfl hfollows)

theorem Plays.runAll {l : Lock} {m : Monitor} (h : Plays l m) :
    ∀ steps : List Step, Played m (l.runAll steps)
  | [] => by
    rw [Lock.runAll]
    exact ⟨⟨[], m, .refl m, rfl, h⟩, nofun⟩
  | step :: steps => by
    rw [runAll_step_cons]
    exact .append (h.run step) fun m₁ h₁ => h₁.runAll steps

end

theorem plays_free : Plays .free free := ⟨⟨rfl, sound_free, nofun⟩, nofun⟩

/-- Every program is a run of threads that share a free lock. -/
theorem played_runAll (steps : List Step) :
    Played free (Lock.free.runAll steps) := plays_free.runAll steps

/-- After each step of a program, readers and writers are apart, and a writer waits only for
somebody who holds the lock. -/
theorem apart_of_mem_runAll {steps : List Step} {entry : Entry}
    (h : entry ∈ (Lock.free.runAll steps).2) :
    (entry.lock.writer = true → entry.lock.readers = 0) ∧
      (entry.lock.waiting ≠ 0 → entry.lock.writer = true ∨ 0 < entry.lock.readers) := by
  obtain ⟨failures, es, m, -, -, hplays⟩ := (played_runAll steps).each entry h
  have hlock := hplays.lock
  have hapart := hplays.sound.apart
  rw [hlock] at hapart
  refine ⟨hapart, fun hw => ?_⟩
  by_contra hfree
  have hav : entry.lock.available .exclusive = true :=
    available_exclusive.mpr ⟨by simpa using fun h => hfree (.inl h), by omega⟩
  have hsettle := hplays.settle_eq hplays.settled
  rw [settle_of_available hw hav] at hsettle
  have := congrArg Lock.waiting hsettle
  dsimp only at this
  omega

end Monitor
end Lock
end Tabulary
