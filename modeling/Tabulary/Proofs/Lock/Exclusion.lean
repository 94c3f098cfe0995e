import Tabulary.Proofs.Lock.Monitor

/-!
Readers and writers never hold a lock together, and its counters are what has happened to it.  Main
statement: in every run of any number of threads, the readers and the writer are the grants less the
releases, the waiting count is the number of blocked writers, no reader gets past a writer, and a
thread that fails has changed nothing but its own request (`runAll_exclusion`).
-/

namespace Tabulary
namespace Lock
namespace Monitor

/-- How many of the events are of one kind. -/
def tally (events : List Event) (mode : LockMode) (outcome : Outcome) : Nat :=
  events.countP fun e => e.mode = mode ∧ e.outcome = outcome

/-- The lock and those who wait for it are accounted for by what has happened. -/
structure Accounted (events : List Event) (m : Monitor) : Prop where
  apart : m.lock.writer = true → m.lock.readers = 0
  readers : m.lock.readers + tally events .shared .released = tally events .shared .granted
  /-- There is at most one writer, and the flag says whether there is one. -/
  writer : m.lock.writer.toNat + tally events .exclusive .released =
    tally events .exclusive .granted
  waiting : m.lock.waiting = m.blocked .exclusive

/-- What a move may do to a lock and to those who wait for it. -/
structure Guarded (m : Monitor) (e : Event) (m' : Monitor) : Prop where
  /-- No reader gets in while a writer holds the lock or waits for it. -/
  shared : e.mode = .shared → e.outcome = .granted → m.lock.writer = false ∧
    m.lock.waiting = 0
  /-- A thread that waits or fails leaves who holds the lock, and who else waits for it. -/
  others : e.outcome = .waits ∨ (∃ fault, e.outcome = .failed fault) →
    m'.lock.readers = m.lock.readers ∧ m'.lock.writer = m.lock.writer ∧
      m'.requests.filter (·.thread ≠ e.thread) = m.requests.filter (·.thread ≠ e.thread)
  /-- A thread that fails has run out of time or releases what is not held, and is not left
  waiting. -/
  failed : ∀ fault, e.outcome = .failed fault →
    (fault = .lockTimeout e.mode ∨ (fault = .lockNotHeld e.mode ∧ m' = m)) ∧
      ∀ r ∈ m'.requests, r.thread ≠ e.thread

variable {m m' : Monitor} {move : Move} {moves : List Move} {e : Event} {es : List Event}
  {w : Waiter}

theorem tally_cons (e : Event) (es : List Event) (mode : LockMode) (outcome : Outcome) :
    tally (e :: es) mode outcome = tally es mode outcome + tally [e] mode outcome := by
  rw [tally, List.countP_cons, tally, tally, List.countP_singleton]

theorem tally_singleton (e : Event) (mode : LockMode) (outcome : Outcome) :
    tally [e] mode outcome = if e.mode = mode ∧ e.outcome = outcome then 1 else 0 := by
  rw [tally, List.countP_singleton]
  simp only [decide_eq_true_eq]

/-! ## Who holds the lock -/

theorem readers_held (l : Lock) (mode : LockMode) :
    (l.held mode).readers = l.readers + if mode = .shared then 1 else 0 := by
  cases mode <;> rfl

/-- The flag is set by a writer that gets the lock, and was not set before. -/
theorem writer_held {l : Lock} {mode : LockMode} (h : l.available mode = true) :
    (l.held mode).writer.toNat = l.writer.toNat + if mode = .exclusive then 1 else 0 := by
  cases mode with
  | shared => rfl
  | exclusive =>
    rw [(available_exclusive.mp h).1]
    rfl

theorem lock_ite_wakeAll (m : Monitor) (b : Bool) : (if b then m.wakeAll else m).lock = m.lock := by
  cases b <;> rfl

/-- Each move that changes the number of readers is a grant or a release. -/
theorem Turn.readers (t : Turn m move e m') :
    m'.lock.readers + tally [e] .shared .released = m.lock.readers +
    tally [e] .shared .granted := by
  cases t with
  | admitted r idle hav => simp [tally_singleton, readers_held]
  | queued r idle hav => simp [tally_singleton, readers_join]
  | woken w late mem hav => simp [tally_singleton, readers_held, readers_leave]
  | resumed w mem hav => simp [tally_singleton, putToSleep]
  | expired w mem timed hav => simp [tally_singleton, lock_giveUp, readers_leave]
  | freed thread mode l idle hl =>
    rw [lock_ite_wakeAll]
    obtain ⟨rfl, n, hr, rfl⟩ | ⟨rfl, hw, rfl⟩ := release_ok hl
    · simp [tally_singleton, hr]
    · simp [tally_singleton]
  | refused thread mode idle hl => simp [tally_singleton]

/-- Each move that sets or clears the writer flag is a grant or a release. -/
theorem Turn.writer (t : Turn m move e m') :
    m'.lock.writer.toNat + tally [e] .exclusive .released =
      m.lock.writer.toNat + tally [e] .exclusive .granted := by
  cases t with
  | admitted r idle hav => simp [tally_singleton, writer_held hav]
  | queued r idle hav => simp [tally_singleton, writer_join]
  | woken w late mem hav =>
    rw [← available_leave] at hav
    simp [tally_singleton, writer_held hav, writer_leave]
  | resumed w mem hav => simp [tally_singleton, putToSleep]
  | expired w mem timed hav => simp [tally_singleton, lock_giveUp, writer_leave]
  | freed thread mode l idle hl =>
    rw [lock_ite_wakeAll]
    obtain ⟨rfl, n, hr, rfl⟩ | ⟨rfl, hw, rfl⟩ := release_ok hl
    · simp [tally_singleton]
    · simp [tally_singleton, hw]
  | refused thread mode idle hl => simp [tally_singleton]

/-- A run adds up what its moves do. -/
theorem holders_runAll (h : m.runAll moves = some (es, m')) :
    m'.lock.readers + tally es .shared .released = m.lock.readers + tally es .shared .granted ∧
      m'.lock.writer.toNat + tally es .exclusive .released =
        m.lock.writer.toNat + tally es .exclusive .granted := by
  induction moves generalizing m es with
  | nil =>
    cases h
    exact ⟨rfl, rfl⟩
  | cons move moves ih =>
    obtain ⟨e, m₁, rest, hstep, hrest, rfl⟩ := runAll_cons_eq_some h
    obtain ⟨hreaders, hwriter⟩ := ih hrest
    have hr := (step_turn hstep).readers
    have hw := (step_turn hstep).writer
    simp only [tally_cons e rest]
    omega

/-! ## What a move may do -/

theorem guarded (t : Turn m move e m') : Guarded m e m' := by
  cases t with
  | admitted r idle hav =>
    exact ⟨fun hm _ => available_shared.mp (hm ▸ hav), by simp, by simp⟩
  | queued r idle hav =>
    exact ⟨by simp, fun _ => ⟨readers_join _ _,
      writer_join _ _, by simp [requests]⟩, by simp⟩
  | woken w late mem hav =>
    exact ⟨fun hm _ => available_shared.mp (hm ▸ hav), by simp, by simp⟩
  | resumed w mem hav =>
    refine ⟨by simp, fun _ => ⟨rfl, rfl, ?_⟩, by simp⟩
    rw [requests_putToSleep]
  | expired w mem timed hav =>
    refine ⟨by simp, fun _ => ⟨?_, ?_, ?_⟩, fun fault hf => ⟨.inl ?_, ?_⟩⟩
    · rw [lock_giveUp, readers_leave]
    · rw [lock_giveUp, writer_leave]
    · rw [requests_giveUp, List.filter_filter]
      simp
    · exact (Outcome.failed.inj hf).symm
    · rw [requests_giveUp]
      exact fun r hr => by simpa using (List.mem_filter.mp hr).2
  | freed thread mode l idle hl => exact ⟨by simp, by simp, by simp⟩
  | refused thread mode idle hl =>
    refine ⟨by simp, fun _ => ⟨rfl, rfl, rfl⟩, fun fault hf => ⟨.inr ⟨?_, rfl⟩, ?_⟩⟩
    · exact (Outcome.failed.inj hf).symm
    · intro r hr
      obtain ⟨w, hw, rfl⟩ := mem_requests hr
      exact waiter?_eq_none.mp idle w hw

/-! ## A request that comes to nothing -/

/-- From one state to another a thread has done nothing but to ask in vain. -/
structure Asked (m : Monitor) (r : Request) (m' : Monitor) : Prop where
  lock : m'.lock = m.lock.join r.mode
  requests : m'.requests = m.requests ++ [r]
  unavailable : m.lock.available r.mode = false

variable {r : Request} {m₁ : Monitor} {late : Bool}

theorem leave_join (l : Lock) (mode : LockMode) : (l.join mode).leave mode = l := by
  cases mode <;> rfl

namespace Asked

/-- A request that its thread then looks after was not granted. -/
theorem of_request (t : Turn m (.request r) e m₁) (hw : w ∈ m₁.waiters)
    (ht : w.thread = r.thread) : Asked m r m₁ := by
  cases t with
  | admitted _ idle hav => exact absurd ht (waiter?_eq_none.mp idle w hw)
  | queued _ idle hav => exact ⟨rfl, by simp [Monitor.requests], hav⟩

/-- The thread is the one that asked. -/
theorem eq (h : Asked m r m₁) (hs : Sound m₁) (hw : w ∈ m₁.waiters)
    (ht : w.thread = r.thread) : w.toRequest = r := by
  obtain ⟨v, hv, hr⟩ := mem_requests (m := m₁) (r := r) (h.requests ▸ by simp)
  rw [hs.eq_of_thread hw hv (by rw [ht, ← hr]), hr]

theorem not_available (h : Asked m r m₁) : m₁.lock.available r.mode = false := by
  rw [h.lock]
  exact available_join r.mode h.unavailable

/-- The request is the only one of its thread. -/
theorem filter_requests (h : Asked m r m₁) (hs : Sound m₁) :
    m₁.requests.filter (·.thread ≠ r.thread) = m.requests := by
  have hd := hs.threads_requests
  rw [h.requests, List.map_append, List.nodup_append] at hd
  rw [h.requests, List.filter_append, List.filter_eq_self.mpr, List.filter_cons_of_neg (by simp),
    List.filter_nil, List.append_nil]
  exact fun q hq => decide_eq_true (hd.2.2 _ (List.mem_map_of_mem hq) _ (by simp))

/-- Looking at the lock once more changes nothing for a thread that nobody made way for, unless its
time is up: then it is as if it had never asked. -/
theorem look (h : Asked m r m₁) (hs : Sound m₁) (t : Turn m₁ (.look r.thread late) e m') :
    (late = false ∧ Asked m r m') ∨
      (late = true ∧ e = ⟨r.thread, r.mode, .failed (.lockTimeout r.mode)⟩ ∧
        m'.lock = m.lock ∧ m'.requests = m.requests) := by
  generalize hmove : Move.look r.thread late = move at t
  cases t with
  | woken w late' mem hav =>
    obtain ⟨ht, rfl⟩ := Move.look.inj hmove
    rw [h.eq hs mem ht.symm, h.not_available] at hav
    cases hav
  | resumed w mem hav =>
    obtain ⟨ht, rfl⟩ := Move.look.inj hmove
    exact .inl ⟨rfl, h.lock, (requests_putToSleep m₁ w.thread).trans h.requests,
      h.unavailable⟩
  | expired w mem timed hav =>
    obtain ⟨ht, rfl⟩ := Move.look.inj hmove
    refine .inr ⟨rfl, ?_, ?_, ?_⟩
    · rw [h.eq hs mem ht.symm]
    · rw [lock_giveUp, h.lock, h.eq hs mem ht.symm, leave_join]
    · rw [requests_giveUp, ← ht, h.filter_requests hs]
  | admitted | queued | freed | refused => cases hmove

/-- A thread that looks at the lock until its time is up goes away as if it had never asked. -/
theorem looks (h : Asked m r m₁) (hs : Sound m₁) {looks : Nat}
    (hrun : m₁.runAll (List.replicate looks (.look r.thread false) ++ [.look r.thread true]) =
      some (es, m')) :
    es.getLast? = some ⟨r.thread, r.mode, .failed (.lockTimeout r.mode)⟩ ∧
      m'.lock = m.lock ∧
      m'.requests = m.requests := by
  induction looks generalizing m₁ es with
  | zero =>
    obtain ⟨e, m₂, rest, hstep, hrest, rfl⟩ := runAll_cons_eq_some hrun
    cases hrest
    obtain ⟨h, -⟩ | ⟨-, rfl, hlock, hrequests⟩ := h.look hs (step_turn hstep)
    · cases h
    · exact ⟨rfl, hlock, hrequests⟩
  | succ looks ih =>
    obtain ⟨e, m₂, rest, hstep, hrest, rfl⟩ := runAll_cons_eq_some hrun
    obtain ⟨-, h⟩ | ⟨h, -⟩ := h.look hs (step_turn hstep)
    · obtain ⟨hlast, hkept⟩ := ih h (hs.turn (step_turn hstep)) hrest
      refine ⟨?_, hkept⟩
      rw [List.getLast?_cons, hlast]
      rfl
    · cases h

end Asked

/-- In every run of any number of threads: readers and writers never hold the lock together, the
lock's counters are the grants less the releases and the writers that wait, no reader gets in past a
writer, a thread that waits or fails leaves the rest as it is, and one that asks until its time is
up leaves everything as it was. -/
theorem runAll_exclusion (h : free.runAll moves = some (es, m)) :
    Accounted es m ∧
    (∀ move e m', m.step move = some (e, m') → Guarded m e m') ∧
    ∀ r looks es' m',
      m.runAll
          (.request r :: (List.replicate looks (.look r.thread false) ++ [.look r.thread true])) =
        some (es', m') →
      es'.getLast? = some ⟨r.thread, r.mode, .failed (.lockTimeout r.mode)⟩ ∧
        m'.lock = m.lock ∧ m'.requests = m.requests := by
  have hs := sound_free.runAll h
  refine ⟨?_, fun move e m' hstep => guarded (step_turn hstep), fun r looks es' m' hrun => ?_⟩
  · obtain ⟨hreaders, hwriter⟩ := holders_runAll h
    exact ⟨hs.apart, hreaders.trans (Nat.zero_add _),
      hwriter.trans (Nat.zero_add _), hs.counted⟩
  · obtain ⟨e, m₁, rest, hstep, hrest, rfl⟩ := runAll_cons_eq_some hrun
    have ht := step_turn hstep
    have hwaits : ∃ w ∈ m₁.waiters, w.thread = r.thread := by
      cases looks with
      | zero =>
        obtain ⟨_, _, _, hlook, -, -⟩ := runAll_cons_eq_some hrest
        exact (step_turn hlook).waits
      | succ looks =>
        obtain ⟨_, _, _, hlook, -, -⟩ := runAll_cons_eq_some hrest
        exact (step_turn hlook).waits
    obtain ⟨w, hw, hthread⟩ := hwaits
    obtain ⟨hlast, hkept⟩ := (Asked.of_request ht hw hthread).looks (hs.turn ht) hrest
    refine ⟨?_, hkept⟩
    rw [List.getLast?_cons, hlast]
    rfl

/-- A reader, a writer whose time runs out behind it, a reader held back meanwhile, two writers that
follow one another, and a release of what is not held. -/
def crowd : List Move :=
  [.request ⟨1, .shared, false⟩, .request ⟨2, .exclusive, true⟩,
    .request ⟨3, .shared, true⟩, .look 2 true, .look 3 false, .release 1 .shared,
    .release 3 .shared, .request ⟨4, .exclusive, false⟩,
    .request ⟨5, .exclusive, false⟩, .release 4 .exclusive, .look 5 false, .release 6 .shared]

theorem runAll_exclusion_crowd :
    ∃ es m, free.runAll crowd = some (es, m) ∧ es.length = 12 ∧ m.lock.writer = true ∧
      (Accounted es m ∧
      (∀ move e m', m.step move = some (e, m') → Guarded m e m') ∧
      ∀ r looks es' m',
        m.runAll
            (.request r :: (List.replicate looks (.look r.thread false) ++ [.look r.thread true])) =
          some (es', m') →
        es'.getLast? = some ⟨r.thread, r.mode, .failed (.lockTimeout r.mode)⟩ ∧
          m'.lock = m.lock ∧
          m'.requests = m.requests) :=
  ⟨_, _, rfl, rfl, rfl, runAll_exclusion (rfl : free.runAll crowd = some (_, _))⟩

end Monitor
end Lock
end Tabulary
