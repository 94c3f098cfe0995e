import Mathlib.Data.List.Nodup
import Tabulary.Lock

/-!
Threads that share one lock.  A request that cannot be granted at once waits: its thread sleeps
until it is woken or its time is up, looks at the lock again, and then goes on with the lock, gives
up, or sleeps on.  Each move here is what one thread does from taking the lock's mutex to giving it
up again, so a list of moves is one way in which any number of threads can follow one another.

What a move can come to is said once, by `Turn`, and what holds wherever the threads have got to, by
`Sound`.  A sleeping thread is never one that could go on (`Sound.asleep`): each move that makes a
condition true also wakes the threads that wait for it.
-/

namespace Tabulary
namespace Lock

/-- The lock with a request in this mode holding it. -/
def held (l : Lock) : LockMode → Lock
  | .shared => { l with readers := l.readers + 1 }
  | .exclusive => { l with writer := true }

/-- The lock with one more request waiting for it.  Only writers are counted. -/
def join (l : Lock) : LockMode → Lock
  | .shared => l
  | .exclusive => l.enqueue

def leave (l : Lock) : LockMode → Lock
  | .shared => l
  | .exclusive => { l with waiting := l.waiting - 1 }

/-- Whether a release that leaves the lock like this wakes the threads that wait. -/
def notifies (l : Lock) : LockMode → Bool
  | .shared => l.readers == 0
  | .exclusive => true

structure Request where
  thread : Nat
  mode : LockMode
  /-- Whether the thread waits for a limited time only. -/
  timed : Bool
deriving DecidableEq, Repr

/-- A request that was not granted at once. -/
structure Waiter extends Request where
  /-- Whether the thread was woken and has not looked at the lock since. -/
  awake : Bool
deriving DecidableEq, Repr

inductive Move where
  | request (r : Request)
  /-- A thread that waits looks at the lock, with its time up or not. -/
  | look (thread : Nat) (late : Bool)
  | release (thread : Nat) (mode : LockMode)
deriving DecidableEq, Repr

inductive Outcome where
  | granted
  | waits
  | released
  | failed (fault : Fault)
deriving DecidableEq, Repr

/-- What a thread's move came to, and the mode that it was about. -/
structure Event where
  thread : Nat
  mode : LockMode
  outcome : Outcome
deriving DecidableEq, Repr

/-- A lock and the requests that wait for it. -/
structure Monitor where
  lock : Lock
  waiters : List Waiter
deriving DecidableEq, Repr

namespace Monitor

def free : Monitor := ⟨.free, []⟩

def waiter? (m : Monitor) (thread : Nat) : Option Waiter := m.waiters.find? (·.thread == thread)

/-- The requests that wait, whether their threads sleep or not. -/
def requests (m : Monitor) : List Request := m.waiters.map (·.toRequest)

/-- The waiters but for one thread's. -/
def others (m : Monitor) (thread : Nat) : List Waiter := m.waiters.filter (·.thread ≠ thread)

def wakeAll (m : Monitor) :
    Monitor := { m with waiters := m.waiters.map ({ · with awake := true }) }

def putToSleep (m : Monitor) (thread : Nat) : Monitor :=
  { m with waiters := m.waiters.map fun w => if w.thread = thread then { w with awake := false }
    else w }

def request (m : Monitor) (r : Request) : Event × Monitor :=
  match m.lock.acquire r.mode with
  | .ok l => (⟨r.thread, r.mode, .granted⟩, { m with lock := l })
  | .error _ =>
    (⟨r.thread, r.mode, .waits⟩, ⟨m.lock.join r.mode, m.waiters ++ [⟨r, false⟩]⟩)

/-- A writer that gives up wakes the readers that it held back. -/
def giveUp (m : Monitor) (w : Waiter) : Monitor :=
  match w.mode with
  | .shared => ⟨m.lock.leave w.mode, m.others w.thread⟩
  | .exclusive => wakeAll ⟨m.lock.leave w.mode, m.others w.thread⟩

def look (m : Monitor) (w : Waiter) (late : Bool) : Event × Monitor :=
  match (m.lock.leave w.mode).acquire w.mode with
  | .ok l => (⟨w.thread, w.mode, .granted⟩, ⟨l, m.others w.thread⟩)
  | .error fault =>
    if late then (⟨w.thread, w.mode, .failed fault⟩, m.giveUp w)
    else (⟨w.thread, w.mode, .waits⟩, m.putToSleep w.thread)

def release (m : Monitor) (thread : Nat) (mode : LockMode) : Event × Monitor :=
  match m.lock.release mode with
  | .error fault => (⟨thread, mode, .failed fault⟩, m)
  | .ok l =>
    (⟨thread, mode, .released⟩, if l.notifies mode then wakeAll { m with lock := l }
      else { m with lock := l })

/-- What a move comes to, where it is possible: a thread that waits can only look at the lock, once
it was woken or if its wait is limited, and only a limited wait is ever over. -/
def step (m : Monitor) : Move → Option (Event × Monitor)
  | .request r => if (m.waiter? r.thread).isNone then some (m.request r) else none
  | .look thread late =>
    match m.waiter? thread with
    | some w => if (w.awake || w.timed) && (!late || w.timed) then some (m.look w late) else none
    | none => none
  | .release thread mode => if (m.waiter? thread).isNone then some (m.release thread mode) else none

def runAll (m : Monitor) : List Move → Option (List Event × Monitor)
  | [] => some ([], m)
  | move :: moves => do
    let (e, m') ← m.step move
    let (es, m'') ← runAll m' moves
    return (e :: es, m'')

/-- Every wake-up has taken effect. -/
def Settled (m : Monitor) : Prop := ∀ w ∈ m.waiters, w.awake = false

instance : DecidablePred Settled := fun m =>
  inferInstanceAs (Decidable (∀ w ∈ m.waiters, w.awake = false))

end Monitor

/-! ## One move -/

variable {l : Lock} {mode : LockMode}

theorem acquire_eq (l : Lock) (mode : LockMode) :
    l.acquire mode = if l.available mode then .ok (l.held mode)
    else .error (.lockTimeout mode) := by
  cases mode <;> rfl

theorem acquire_of_available (h : l.available mode = true) :
    l.acquire mode = .ok (l.held mode) := by
  rw [acquire_eq, if_pos h]

theorem acquire_of_not_available (h : l.available mode = false) :
    l.acquire mode = .error (.lockTimeout mode) := by
  rw [acquire_eq, if_neg (Bool.eq_false_iff.mp h)]

/-- A writer that waits does not stand in its own way. -/
theorem available_leave (l : Lock) (mode : LockMode) :
    (l.leave mode).available mode = l.available mode := by
  cases mode <;> rfl

theorem available_shared : l.available .shared = true ↔ l.writer = false ∧ l.waiting = 0 := by
  simp [available]

theorem available_exclusive : l.available .exclusive = true ↔ l.writer = false ∧
    l.readers = 0 := by
  simp [available]

/-- A writer keeps everybody out. -/
theorem available_of_writer (h : l.writer = true) (mode : LockMode) : l.available mode = false := by
  cases mode <;> simp [available, h]

/-- Who could not have the lock cannot have it once somebody else has got it or waits for it. -/
theorem available_held (other : LockMode) (h : l.available mode = false) :
    (l.held other).available mode = false := by
  cases other with
  | exclusive => exact available_of_writer rfl mode
  | shared => cases mode <;> simp_all [available, held]

theorem available_join (other : LockMode) (h : l.available mode = false) :
    (l.join other).available mode = false := by
  cases other with
  | shared => exact h
  | exclusive => cases mode <;> simp_all [available, join, enqueue]

theorem available_leave_held (other : LockMode) (h : l.available mode = false) :
    ((l.leave other).held other).available mode = false := by
  cases other with
  | shared => exact available_held .shared h
  | exclusive => exact available_of_writer rfl mode

/-- A request that is granted keeps writers and readers apart. -/
theorem apart_held (h : l.available mode = true) :
    (l.held mode).writer = true → (l.held mode).readers = 0 := by
  cases mode with
  | shared => exact fun hw => absurd ((available_shared.mp h).1.symm.trans hw) nofun
  | exclusive => exact fun _ => (available_exclusive.mp h).2

/-- What a release needs, and what it leaves. -/
theorem release_ok {l' : Lock} (h : l.release mode = .ok l') :
    (mode = .shared ∧ ∃ n, l.readers = n + 1 ∧ l' = { l with readers := n }) ∨
      (mode = .exclusive ∧ l.writer = true ∧ l' = { l with writer := false }) := by
  cases mode with
  | shared =>
    rw [release] at h
    by_cases hr : l.readers = 0
    · simp only [hr, if_true, reduceCtorEq] at h
    · rw [if_neg hr, Except.ok.injEq] at h
      subst h
      exact .inl ⟨rfl, _, (Nat.sub_add_cancel (Nat.pos_of_ne_zero hr)).symm, rfl⟩
  | exclusive =>
    rw [release] at h
    by_cases hw : l.writer = true
    · rw [if_pos hw, Except.ok.injEq] at h
      exact .inr ⟨rfl, hw, h.symm⟩
    · rw [if_neg hw] at h
      cases h

/-- A release fails only if the lock is not held in its mode. -/
theorem release_error {fault : Fault} (h : l.release mode = .error fault) :
    fault = .lockNotHeld mode ∧
      ((mode = .shared ∧ l.readers = 0) ∨ (mode = .exclusive ∧ l.writer = false)) := by
  cases mode with
  | shared =>
    rw [release] at h
    by_cases hr : l.readers = 0
    · rw [if_pos hr] at h
      exact ⟨(Except.error.inj h).symm, .inl ⟨rfl, hr⟩⟩
    · rw [if_neg hr] at h
      cases h
  | exclusive =>
    rw [release] at h
    by_cases hw : l.writer = true
    · rw [if_pos hw] at h
      cases h
    · rw [if_neg hw] at h
      exact ⟨(Except.error.inj h).symm, .inr ⟨rfl, Bool.not_eq_true _ ▸ hw⟩⟩

namespace Monitor

/-- All that a move can come to. -/
inductive Turn (m : Monitor) : Move → Event → Monitor → Prop where
  | admitted (r : Request) (idle : m.waiter? r.thread = none) (h : m.lock.available r.mode = true) :
      Turn m (.request r) ⟨r.thread, r.mode, .granted⟩ { m with lock := m.lock.held r.mode }
  | queued (r : Request) (idle : m.waiter? r.thread = none) (h : m.lock.available r.mode = false) :
      Turn m (.request r) ⟨r.thread, r.mode, .waits⟩
      ⟨m.lock.join r.mode, m.waiters ++ [⟨r, false⟩]⟩
  | woken (w : Waiter) (late : Bool) (mem : w ∈ m.waiters) (h : m.lock.available w.mode = true) :
      Turn m (.look w.thread late) ⟨w.thread, w.mode, .granted⟩
        ⟨(m.lock.leave w.mode).held w.mode, m.others w.thread⟩
  | resumed (w : Waiter) (mem : w ∈ m.waiters) (h : m.lock.available w.mode = false) :
      Turn m (.look w.thread false) ⟨w.thread, w.mode, .waits⟩ (m.putToSleep w.thread)
  | expired (w : Waiter) (mem : w ∈ m.waiters) (timed : w.timed = true)
      (h : m.lock.available w.mode = false) :
      Turn m (.look w.thread true) ⟨w.thread, w.mode, .failed (.lockTimeout w.mode)⟩
      (m.giveUp w)
  | freed (thread : Nat) (mode : LockMode) (l : Lock) (idle : m.waiter? thread = none)
      (h : m.lock.release mode = .ok l) :
      Turn m (.release thread mode) ⟨thread, mode, .released⟩
        (if l.notifies mode then wakeAll { m with lock := l } else { m with lock := l })
  | refused (thread : Nat) (mode : LockMode) (idle : m.waiter? thread = none)
      (h : m.lock.release mode = .error (.lockNotHeld mode)) :
      Turn m (.release thread mode) ⟨thread, mode, .failed (.lockNotHeld mode)⟩ m

variable {m m' : Monitor} {move : Move} {e : Event} {w : Waiter} {thread : Nat}

theorem mem_of_waiter? (h : m.waiter? thread = some w) : w ∈ m.waiters ∧ w.thread = thread :=
  ⟨List.mem_of_find?_eq_some h, by simpa using List.find?_some h⟩

theorem waiter?_eq_none : m.waiter? thread = none ↔ ∀ w ∈ m.waiters, w.thread ≠ thread := by
  simp [waiter?]

theorem step_turn (h : m.step move = some (e, m')) : Turn m move e m' := by
  cases move with
  | request r =>
    obtain ⟨hidle, heq⟩ := Option.ite_none_right_eq_some.mp h
    rw [Option.some.injEq, request, acquire_eq] at heq
    cases hav : m.lock.available r.mode with
    | true =>
      rw [hav] at heq
      cases heq
      exact .admitted r (Option.isNone_iff_eq_none.mp hidle) hav
    | false =>
      rw [hav] at heq
      cases heq
      exact .queued r (Option.isNone_iff_eq_none.mp hidle) hav
  | look thread late =>
    cases hw : m.waiter? thread with
    | none => simp only [step, hw, reduceCtorEq] at h
    | some w =>
      obtain ⟨hmem, rfl⟩ := mem_of_waiter? hw
      simp only [step, hw] at h
      obtain ⟨hready, heq⟩ := Option.ite_none_right_eq_some.mp h
      rw [Option.some.injEq, look, acquire_eq, available_leave] at heq
      cases hav : m.lock.available w.mode with
      | true =>
        rw [hav] at heq
        cases heq
        exact .woken w late hmem hav
      | false =>
        rw [hav] at heq
        cases late with
        | true =>
          cases heq
          exact .expired w hmem (by simpa using (Bool.and_eq_true_iff.mp hready).2) hav
        | false =>
          cases heq
          exact .resumed w hmem hav
  | release thread mode =>
    obtain ⟨hidle, heq⟩ := Option.ite_none_right_eq_some.mp h
    have hnone := Option.isNone_iff_eq_none.mp hidle
    rw [Option.some.injEq, release] at heq
    cases hl : m.lock.release mode with
    | error fault =>
      obtain ⟨rfl, -⟩ := release_error hl
      rw [hl] at heq
      cases heq
      exact .refused thread mode hnone hl
    | ok l =>
      rw [hl] at heq
      cases heq
      exact .freed thread mode l hnone hl

/-- Only a thread that waits looks at the lock. -/
theorem Turn.waits {late : Bool} (t : Turn m (.look thread late) e m') :
    ∃ w ∈ m.waiters, w.thread = thread := by
  cases t with
  | woken w _ mem hav => exact ⟨w, mem, rfl⟩
  | resumed w mem hav => exact ⟨w, mem, rfl⟩
  | expired w mem timed hav => exact ⟨w, mem, rfl⟩

/-! ## What holds everywhere -/

/-- How many waiters ask for the lock in a mode. -/
def blocked (m : Monitor) (mode : LockMode) : Nat := m.waiters.countP (·.mode = mode)

/-- What holds wherever threads that share a lock have got to. -/
structure Sound (m : Monitor) : Prop where
  apart : m.lock.writer = true → m.lock.readers = 0
  counted : m.lock.waiting = m.blocked .exclusive
  /-- A thread that sleeps could not go on. -/
  asleep : ∀ w ∈ m.waiters, w.awake = false → m.lock.available w.mode = false
  /-- No thread waits twice. -/
  distinct : (m.waiters.map (·.thread)).Nodup

theorem sound_free : Sound free := ⟨nofun, rfl, nofun, .nil⟩

theorem mem_others : w ∈ m.others thread ↔ w ∈ m.waiters ∧ w.thread ≠ thread := by
    simp [others]

theorem waiters_wakeAll (m : Monitor) :
    m.wakeAll.waiters = m.waiters.map ({ · with awake := true }) := rfl

theorem awake_of_mem_wakeAll (h : w ∈ m.wakeAll.waiters) : w.awake = true := by
  obtain ⟨v, -, rfl⟩ := List.mem_map.mp h
  rfl

theorem threads_wakeAll (m : Monitor) :
    m.wakeAll.waiters.map (·.thread) = m.waiters.map (·.thread) := by
  rw [waiters_wakeAll, List.map_map]
  rfl

theorem blocked_wakeAll (m : Monitor) (mode : LockMode) :
    m.wakeAll.blocked mode = m.blocked mode := by
  rw [blocked, waiters_wakeAll, List.countP_map]
  rfl

theorem requests_wakeAll (m : Monitor) : m.wakeAll.requests = m.requests := by
  rw [requests, waiters_wakeAll, List.map_map]
  rfl

theorem mem_requests {r : Request} (h : r ∈ m.requests) : ∃ w ∈ m.waiters, w.toRequest = r :=
  List.mem_map.mp h

theorem requests_others (m : Monitor) (thread : Nat) :
    (m.others thread).map (·.toRequest) = m.requests.filter (·.thread ≠ thread) := by
  rw [others, requests, List.filter_map]
  rfl

theorem requests_giveUp (m : Monitor) (w : Waiter) :
    (m.giveUp w).requests = m.requests.filter (·.thread ≠ w.thread) := by
  rw [giveUp]
  split
  · exact requests_others m w.thread
  · exact (requests_wakeAll _).trans (requests_others m w.thread)

theorem requests_putToSleep (m : Monitor) (thread : Nat) :
    (m.putToSleep thread).requests = m.requests := by
  rw [requests, putToSleep, List.map_map]
  refine List.map_congr_left fun v _ => ?_
  dsimp only [Function.comp]
  split <;> rfl

theorem lock_giveUp (m : Monitor) (w : Waiter) : (m.giveUp w).lock = m.lock.leave w.mode := by
  rw [giveUp]
  split <;> rfl

theorem readers_leave (l : Lock) (mode : LockMode) : (l.leave mode).readers = l.readers := by
  cases mode <;> rfl

theorem writer_leave (l : Lock) (mode : LockMode) : (l.leave mode).writer = l.writer := by
  cases mode <;> rfl

theorem readers_join (l : Lock) (mode : LockMode) : (l.join mode).readers = l.readers := by
  cases mode <;> rfl

theorem writer_join (l : Lock) (mode : LockMode) : (l.join mode).writer = l.writer := by
  cases mode <;> rfl

/-- Nobody sleeps any more, so nothing is to be checked of those who do. -/
theorem sound_wakeAll (apart : m.lock.writer = true → m.lock.readers = 0)
    (counted : m.lock.waiting = m.blocked .exclusive)
    (distinct : (m.waiters.map (·.thread)).Nodup) : Sound m.wakeAll where
  apart := apart
  counted := counted.trans (blocked_wakeAll m .exclusive).symm
  asleep _ hw hs := absurd ((awake_of_mem_wakeAll hw).symm.trans hs) nofun
  distinct := (threads_wakeAll m).symm ▸ distinct

namespace Sound

/-- A thread that waits is the one that its number finds. -/
theorem eq_of_thread (h : Sound m) {v : Waiter} (hv : v ∈ m.waiters) (mem : w ∈ m.waiters)
    (heq : v.thread = w.thread) : v = w := List.inj_on_of_nodup_map h.distinct hv mem heq

theorem threads_requests (h : Sound m) : (m.requests.map (·.thread)).Nodup := by
  rw [requests, List.map_map]
  exact h.distinct

/-- The lock counts a writer just where one waits. -/
theorem waiting_ne_zero_iff (h : Sound m) :
    m.lock.waiting ≠ 0 ↔ ∃ w ∈ m.waiters, w.mode = .exclusive := by
  rw [h.counted, blocked, ← Nat.pos_iff_ne_zero, List.countP_pos_iff]
  simp only [decide_eq_true_eq]

theorem waiter?_eq (h : Sound m) (mem : w ∈ m.waiters) : m.waiter? w.thread = some w := by
  cases hw : m.waiter? w.thread with
  | none => exact absurd rfl (waiter?_eq_none.mp hw w mem)
  | some v =>
    obtain ⟨hv, heq⟩ := mem_of_waiter? hw
    rw [h.eq_of_thread hv mem heq]

/-- Without a thread's request the other waiters are left, in their order. -/
theorem others_eq (h : Sound m) (mem : w ∈ m.waiters) :
    ∃ before after, m.waiters = before ++ w :: after ∧ m.others w.thread = before ++ after := by
  obtain ⟨before, after, hsplit⟩ := List.append_of_mem mem
  refine ⟨before, after, hsplit, ?_⟩
  have hd := h.distinct
  rw [hsplit, List.map_append, List.map_cons, List.nodup_middle, List.nodup_cons,
    ← List.map_append] at hd
  have hne : ∀ v ∈ before ++ after, decide (v.thread ≠ w.thread) = true := by
    intro v hv
    exact decide_eq_true fun heq => hd.1 (heq ▸ List.mem_map_of_mem hv)
  rw [List.forall_mem_append] at hne
  rw [others, hsplit, List.filter_append, List.filter_cons_of_neg (by simp),
    List.filter_eq_self.mpr hne.1, List.filter_eq_self.mpr hne.2]

theorem blocked_eq (h : Sound m) (mem : w ∈ m.waiters) (mode : LockMode) :
    m.blocked mode = (m.others w.thread).countP (·.mode = mode) + if w.mode = mode then 1
    else 0 := by
  obtain ⟨before, after, hsplit, hothers⟩ := h.others_eq mem
  rw [blocked, hsplit, hothers, List.countP_append, List.countP_append, List.countP_cons]
  simp only [decide_eq_true_eq]
  omega

/-- The waiting writers that are left when a request is over. -/
theorem leave_waiting (h : Sound m) (mem : w ∈ m.waiters) :
    (m.lock.leave w.mode).waiting = (m.others w.thread).countP (·.mode = .exclusive) := by
  have hb := h.blocked_eq mem .exclusive
  rw [← h.counted] at hb
  cases hm : w.mode with
  | shared =>
    rw [hm, if_neg (by decide), Nat.add_zero] at hb
    exact hb
  | exclusive =>
    rw [hm, if_pos rfl] at hb
    exact Nat.sub_eq_of_eq_add hb

theorem distinct_others (h : Sound m) (thread : Nat) : ((m.others thread).map (·.thread)).Nodup :=
  h.distinct.sublist (List.filter_sublist.map _)

/-- A thread whose request is over leaves the others as they are. -/
theorem giveUp (h : Sound m) (mem : w ∈ m.waiters) : Sound (m.giveUp w) := by
  have hcounted := h.leave_waiting mem
  have hdistinct := h.distinct_others w.thread
  have hapart : (m.lock.leave w.mode).writer = true → (m.lock.leave w.mode).readers = 0 := by
    cases w.mode <;> exact h.apart
  rw [Monitor.giveUp]
  split
  · next hm =>
    refine ⟨hapart, hcounted, fun v hv hs => ?_, hdistinct⟩
    rw [hm]
    exact h.asleep v (mem_others.mp hv).1 hs
  · exact sound_wakeAll hapart hcounted hdistinct

/-- No move breaks what holds everywhere. -/
theorem turn (h : Sound m) (t : Turn m move e m') : Sound m' := by
  cases t with
  | admitted r idle hav =>
    exact
      { apart := apart_held hav
        counted := by
          refine Eq.trans ?_ h.counted
          cases r.mode <;> rfl
        asleep := fun v hv hs => available_held r.mode (h.asleep v hv hs)
        distinct := h.distinct }
  | queued r idle hav =>
    refine ⟨?_, ?_, ?_, ?_⟩
    · cases hm : r.mode <;> exact h.apart
    · rw [blocked, List.countP_append, List.countP_singleton, ← blocked, ← h.counted]
      cases r.mode <;> rfl
    · intro v hv hs
      obtain hv | hv := List.mem_append.mp hv
      · exact available_join r.mode (h.asleep v hv hs)
      · obtain rfl := List.mem_singleton.mp hv
        exact available_join r.mode hav
    · rw [List.map_append, List.nodup_append]
      refine ⟨h.distinct, List.nodup_singleton _, ?_⟩
      intro a ha b hb
      obtain ⟨v, hv, rfl⟩ := List.mem_map.mp ha
      obtain rfl := List.mem_singleton.mp hb
      exact waiter?_eq_none.mp idle v hv
  | woken w late mem hav =>
    rw [← available_leave] at hav
    exact
      { apart := apart_held hav
        counted := by
          refine Eq.trans ?_ (h.leave_waiting mem)
          cases w.mode <;> rfl
        asleep := fun v hv hs => available_leave_held w.mode (h.asleep v (mem_others.mp hv).1 hs)
        distinct := h.distinct_others w.thread }
  | resumed w mem hav =>
    refine ⟨h.apart, ?_, ?_, ?_⟩
    · refine h.counted.trans ?_
      rw [blocked, blocked, putToSleep, List.countP_map]
      refine List.countP_congr fun v _ => ?_
      dsimp only [Function.comp]
      split <;> rfl
    · intro v hv hs
      obtain ⟨u, hu, rfl⟩ := List.mem_map.mp hv
      by_cases ht : u.thread = w.thread
      · rw [if_pos ht, h.eq_of_thread hu mem ht]
        exact hav
      · rw [if_neg ht] at hs ⊢
        exact h.asleep u hu hs
    · have hthreads : (m.putToSleep w.thread).waiters.map (·.thread) =
        m.waiters.map (·.thread) := by
        rw [putToSleep, List.map_map]
        refine List.map_congr_left fun v _ => ?_
        dsimp only [Function.comp]
        split <;> rfl
      exact hthreads.symm ▸ h.distinct
  | expired w mem timed hav => exact h.giveUp mem
  | freed thread mode l idle hl =>
    obtain ⟨rfl, n, hr, rfl⟩ | ⟨rfl, hw, rfl⟩ := release_ok hl
    · have hapart : m.lock.writer = true → n = 0 := fun hw => by
        have := h.apart hw
        omega
      split
      · exact sound_wakeAll hapart h.counted h.distinct
      · next hn =>
        refine ⟨hapart, h.counted, ?_, h.distinct⟩
        intro v hv hs
        have hold := h.asleep v hv hs
        cases hm : v.mode with
        | shared =>
          rw [hm] at hold
          exact hold
        | exclusive =>
          have hn : n ≠ 0 := by simpa [notifies] using hn
          exact Bool.eq_false_iff.mpr fun hav => hn (available_exclusive.mp hav).2
    · exact sound_wakeAll nofun h.counted h.distinct
  | refused thread mode idle hl => exact h

end Sound

/-! ## Whole runs -/

variable {moves : List Move} {es : List Event}

theorem runAll_cons (m : Monitor) (move : Move) (moves : List Move) :
    m.runAll (move :: moves) = (m.step move).bind fun p =>
      (p.2.runAll moves).bind fun q => some (p.1 :: q.1, q.2) := rfl

theorem runAll_cons_eq_some (h : m.runAll (move :: moves) = some (es, m')) :
    ∃ e m₁ rest, m.step move = some (e, m₁) ∧ m₁.runAll moves = some (rest, m') ∧
    es = e :: rest := by
  rw [runAll_cons] at h
  obtain ⟨⟨e, m₁⟩, hstep, h⟩ := Option.bind_eq_some_iff.mp h
  obtain ⟨⟨rest, m₂⟩, hrest, h⟩ := Option.bind_eq_some_iff.mp h
  cases h
  exact ⟨e, m₁, rest, hstep, hrest, rfl⟩

theorem runAll_of_step {rest : List Event} {m₁ : Monitor} (hstep : m.step move = some (e, m₁))
    (hrest : m₁.runAll moves = some (rest, m')) : m.runAll (move :: moves) =
    some (e :: rest, m') := by
  rw [runAll_cons, hstep, Option.bind_some, hrest]
  rfl

theorem runAll_append {es' : List Event} {m₁ : Monitor} {more : List Move}
    (h : m.runAll moves = some (es, m₁)) (h' : m₁.runAll more = some (es', m')) :
    m.runAll (moves ++ more) = some (es ++ es', m') := by
  induction moves generalizing m es with
  | nil =>
    cases h
    exact h'
  | cons move moves ih =>
    obtain ⟨e, m₂, rest, hstep, hrest, rfl⟩ := runAll_cons_eq_some h
    exact runAll_of_step hstep (ih hrest)

theorem Sound.runAll (h : Sound m) (hrun : m.runAll moves = some (es, m')) : Sound m' := by
  induction moves generalizing m es with
  | nil =>
    cases hrun
    exact h
  | cons move moves ih =>
    obtain ⟨e, m₁, rest, hstep, hrest, rfl⟩ := runAll_cons_eq_some hrun
    exact ih (h.turn (step_turn hstep)) hrest

end Monitor
end Lock
end Tabulary
