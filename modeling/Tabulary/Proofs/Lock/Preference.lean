import Tabulary.Proofs.Lock.Monitor

/-!
Writers that wait go first, and nobody is forgotten.  Main statement: wherever threads that share a
lock have got to, once every wake-up has taken effect a writer waits only for somebody who holds the
lock; a release that empties the lock hands it to one of the writers that wait before any reader
gets in; and where no writer holds the lock or waits for it a reader gets in at once
(`runAll_preference`).
-/

namespace Tabulary
namespace Lock

def Move.IsLook : Move → Prop
  | .look _ _ => True
  | _ => False

namespace Monitor

/-- Nobody holds the lock, and a writer waits for it. -/
structure Due (m : Monitor) : Prop where
  writer : m.lock.writer = false
  readers : m.lock.readers = 0
  waits : ∃ r ∈ m.requests, r.mode = .exclusive

/-- The grants among events. -/
def grants (es : List Event) : List Event := es.filter (·.outcome = .granted)

/-- Somebody let go of the lock while the requests of `m` waited for it, and a writer gets it
next. -/
structure HandsOver (m m₁ : Monitor) : Prop where
  /-- Once every wake-up has taken effect exactly one writer that waited has the lock, and nobody
  else has got it. -/
  one : ∀ looks es m₂, (∀ move ∈ looks, move.IsLook) →
    m₁.runAll looks = some (es, m₂) → m₂.Settled →
    ∃ r ∈ m.requests, r.mode = .exclusive ∧ grants es =
    [⟨r.thread, .exclusive, .granted⟩] ∧
      m₂.lock.writer = true
  /-- Whatever happens before that, no reader gets in before a writer. -/
  first : ∀ moves es m₂ e, m₁.runAll moves = some (es, m₂) →
    (grants es).head? = some e → e.mode = .exclusive

/-- Readers get the lock at once, those that come and those that wait. -/
structure LetsIn (m : Monitor) : Prop where
  new : ∀ r : Request, r.mode = .shared → (∀ q ∈ m.requests, q.thread ≠ r.thread) →
    ∃ m', m.step (.request r) = some (⟨r.thread, .shared, .granted⟩, m')
  waiting : ∀ w ∈ m.waiters, w.awake = true ∧ ∀ late, (late = true → w.timed = true) →
    ∃ m', m.step (.look w.thread late) = some (⟨w.thread, .shared, .granted⟩, m')

/-- Writers that wait go first, and nobody is forgotten. -/
structure Preferring (m : Monitor) : Prop where
  /-- Every wake-up can take effect. -/
  settles : ∃ looks es m', (∀ move ∈ looks, move.IsLook) ∧
    m.runAll looks = some (es, m') ∧ m'.Settled
  /-- Once every wake-up has taken effect, a writer waits only for somebody who holds the lock. -/
  held : m.Settled → ∀ r ∈ m.requests, r.mode = .exclusive → m.lock.writer = true ∨
    0 < m.lock.readers
  /-- A release that leaves nobody with the lock while a writer waits hands it over. -/
  handsOver : ∀ thread mode e m₁, m.step (.release thread mode) = some (e, m₁) →
    e.outcome = .released →
    m₁.lock.writer = false → m₁.lock.readers = 0 →
    (∃ r ∈ m.requests, r.mode = .exclusive) → HandsOver m m₁
  letsIn : m.lock.writer = false → (∀ r ∈ m.requests, r.mode ≠ .exclusive) → LetsIn m
  /-- So does a lock for which the last waiting writer has run out of time. -/
  expired : ∀ thread m₁ fault, m.step (.look thread true) =
    some (⟨thread, .exclusive, .failed fault⟩, m₁) →
    m.lock.writer = false → (∀ r ∈ m.requests, r.mode = .exclusive → r.thread = thread) →
    LetsIn m₁

variable {m m' : Monitor} {move : Move} {moves : List Move} {e : Event} {es : List Event}
  {w : Waiter}

/-! ## Waking up -/

theorem Sound.step_look (h : Sound m) (mem : w ∈ m.waiters)
    (hready : w.awake = true ∨ w.timed = true)
    (late : Bool) (hlate : late = true → w.timed = true) :
    m.step (.look w.thread late) = some (m.look w late) := by
  have hcan : ((w.awake || w.timed) && (!late || w.timed)) = true := by
    cases late with
    | false => simpa using hready
    | true => simp [hlate rfl]
  simp only [step, h.waiter?_eq mem, hcan, if_true]

theorem look_of_available {late : Bool} (hav : m.lock.available w.mode = true) :
    m.look w late =
      (⟨w.thread, w.mode, .granted⟩,
        ⟨(m.lock.leave w.mode).held w.mode, m.others w.thread⟩) := by
  rw [look, acquire_eq, available_leave, hav]
  rfl

theorem look_of_not_available (hav : m.lock.available w.mode = false) :
    m.look w false = (⟨w.thread, w.mode, .waits⟩, m.putToSleep w.thread) := by
  rw [look, acquire_eq, available_leave, hav]
  rfl

theorem Sound.awake_others (h : Sound m) (mem : w ∈ m.waiters) (hawake : w.awake = true) :
    (m.others w.thread).countP (·.awake) < m.waiters.countP (·.awake) := by
  obtain ⟨before, after, hsplit, hothers⟩ := h.others_eq mem
  rw [hothers, hsplit, List.countP_append, List.countP_append,
    List.countP_cons_of_pos (p := fun w : Waiter => w.awake) hawake]
  omega

theorem awake_putToSleep (m : Monitor) (thread : Nat) :
    (m.putToSleep thread).waiters.countP (·.awake) = (m.others thread).countP (·.awake) := by
  rw [putToSleep, others, List.countP_map, List.countP_filter]
  refine List.countP_congr fun v _ => ?_
  by_cases hv : v.thread = thread <;> simp [hv]

/-- A thread that is awake can look at the lock, and goes on with it or sleeps: one fewer is
awake. -/
theorem Sound.exists_look (h : Sound m) (mem : w ∈ m.waiters) (hawake : w.awake = true) :
    ∃ e m', m.step (.look w.thread false) = some (e, m') ∧
      m'.waiters.countP (·.awake) < m.waiters.countP (·.awake) := by
  have hlt := h.awake_others mem hawake
  have hstep := h.step_look mem (.inl hawake) false nofun
  cases hav : m.lock.available w.mode with
  | true => exact ⟨_, _, hstep.trans (congrArg some (look_of_available hav)), hlt⟩
  | false =>
    refine ⟨_, _, hstep.trans (congrArg some (look_of_not_available hav)), ?_⟩
    rw [awake_putToSleep]
    exact hlt

/-- Every wake-up can take effect. -/
theorem Sound.exists_settled (h : Sound m) :
    ∃ looks es m', (∀ move ∈ looks, move.IsLook) ∧ m.runAll looks = some (es, m') ∧
    m'.Settled := by
  generalize hn : m.waiters.countP (·.awake) = n
  induction n using Nat.strongRecOn generalizing m with
  | _ n ih =>
    by_cases hs : m.Settled
    · exact ⟨[], [], m, nofun, rfl, hs⟩
    · obtain ⟨w, hw, hawake⟩ : ∃ w ∈ m.waiters, w.awake = true := by
        simpa [Settled] using hs
      obtain ⟨e, m₁, hstep, hlt⟩ := h.exists_look hw hawake
      obtain ⟨looks, es, m', hlooks, hrun, hsettled⟩ :=
        ih _ (hn ▸ hlt) (h.turn (step_turn hstep)) rfl
      refine ⟨.look w.thread false :: looks, e :: es, m', ?_,
        runAll_of_step hstep hrun, hsettled⟩
      exact List.forall_mem_cons.mpr ⟨trivial, hlooks⟩

/-! ## The handover -/

theorem grants_cons_of_granted (h : e.outcome = .granted) (es : List Event) :
    grants (e :: es) = e :: grants es := List.filter_cons_of_pos (decide_eq_true h)

theorem grants_cons_of_not_granted (h : e.outcome ≠ .granted) (es : List Event) :
    grants (e :: es) = grants es := List.filter_cons_of_neg (by simpa using h)

/-- While a writer holds the lock, looking at it gets nobody in. -/
theorem no_grant_of_writer (hw : m.lock.writer = true) (hlooks : ∀ move ∈ moves, move.IsLook)
    (hrun : m.runAll moves = some (es, m')) : grants es = [] ∧ m'.lock.writer = true := by
  induction moves generalizing m es with
  | nil =>
    cases hrun
    exact ⟨rfl, hw⟩
  | cons move moves ih =>
    obtain ⟨e, m₁, rest, hstep, hrest, rfl⟩ := runAll_cons_eq_some hrun
    obtain ⟨hlook, hlooks⟩ := List.forall_mem_cons.mp hlooks
    have hkept : e.outcome ≠ .granted ∧ m₁.lock.writer = true := by
      cases step_turn hstep with
      | woken w late mem hav => exact absurd (hav.symm.trans (available_of_writer hw _)) nofun
      | resumed w mem hav => exact ⟨nofun, hw⟩
      | expired w mem timed hav => exact ⟨nofun, by rw [lock_giveUp, writer_leave, hw]⟩
      | admitted | queued | freed | refused => exact hlook.elim
    obtain ⟨hgrants, hw'⟩ := ih hkept.2 hlooks hrest
    exact ⟨(grants_cons_of_not_granted hkept.1 rest).trans hgrants, hw'⟩

namespace Due

theorem waiting_ne_zero (h : Due m) (hs : Sound m) : m.lock.waiting ≠ 0 := by
  obtain ⟨r, hr, hm⟩ := h.waits
  obtain ⟨w, hw, rfl⟩ := mem_requests hr
  exact hs.waiting_ne_zero_iff.mpr ⟨w, hw, hm⟩

/-- Only a writer can have the lock. -/
theorem available_iff (h : Due m) (hs : Sound m) (mode : LockMode) :
    m.lock.available mode = true ↔ mode = .exclusive := by
  cases mode with
  | shared => simp [available_shared, h.waiting_ne_zero hs]
  | exclusive => simp [available_exclusive, h.writer, h.readers]

/-- A move hands the lock to a writer, or the writers that wait are still due. -/
theorem turn (h : Due m) (hs : Sound m) (t : Turn m move e m') :
    (e.outcome = .granted ∧ e.mode = .exclusive ∧ m'.lock.writer = true ∧
        (move.IsLook → ∃ r ∈ m.requests, r.mode = .exclusive ∧ e.thread = r.thread)) ∨
      (e.outcome ≠ .granted ∧ Due m' ∧
        (move.IsLook → ∀ r ∈ m'.requests, r ∈ m.requests)) := by
  cases t with
  | admitted r idle hav =>
    have hm := (h.available_iff hs _).mp hav
    exact .inl ⟨rfl, hm, by rw [hm]; rfl, False.elim⟩
  | queued r idle hav =>
    obtain ⟨q, hq, hm⟩ := h.waits
    refine .inr ⟨by simp, ⟨?_, ?_, q, ?_, hm⟩, False.elim⟩
    · exact (writer_join _ _).trans h.writer
    · exact (readers_join _ _).trans h.readers
    · simp only [requests, List.map_append]
      exact List.mem_append_left _ hq
  | woken w late mem hav =>
    have hm := (h.available_iff hs _).mp hav
    exact .inl ⟨rfl, hm, by rw [hm]; rfl,
      fun _ => ⟨w.toRequest, List.mem_map_of_mem mem, hm, rfl⟩⟩
  | resumed w mem hav =>
    have hkept := requests_putToSleep m w.thread
    exact .inr ⟨by simp, ⟨h.writer, h.readers, hkept.symm ▸ h.waits⟩,
      fun _ r hr => hkept ▸ hr⟩
  | expired w mem timed hav =>
    obtain ⟨q, hq, hm⟩ := h.waits
    obtain ⟨v, hv, rfl⟩ := mem_requests hq
    refine .inr ⟨by simp, ⟨?_, ?_, v.toRequest, ?_, hm⟩, fun _ r hr => ?_⟩
    · rw [lock_giveUp, writer_leave, h.writer]
    · rw [lock_giveUp, readers_leave, h.readers]
    · rw [requests_giveUp]
      refine List.mem_filter.mpr ⟨hq, decide_eq_true fun heq => ?_⟩
      rw [← hs.eq_of_thread hv mem heq, (h.available_iff hs _).mpr hm] at hav
      cases hav
    · rw [requests_giveUp] at hr
      exact (List.mem_filter.mp hr).1
  | freed thread mode l idle hl =>
    obtain ⟨rfl, n, hr, -⟩ | ⟨rfl, hw, -⟩ := release_ok hl
    · rw [h.readers] at hr
      cases hr
    · rw [h.writer] at hw
      cases hw
  | refused thread mode idle hl => exact .inr ⟨by simp, h, fun _ r hr => hr⟩

/-- Whatever happens, the next to get the lock is a writer. -/
theorem head_grants (h : Due m) (hs : Sound m) (hrun : m.runAll moves = some (es, m'))
    (hg : (grants es).head? = some e) : e.mode = .exclusive := by
  induction moves generalizing m es with
  | nil =>
    cases hrun
    cases hg
  | cons move moves ih =>
    obtain ⟨e₁, m₁, rest, hstep, hrest, rfl⟩ := runAll_cons_eq_some hrun
    have ht := step_turn hstep
    obtain ⟨hgranted, hm, -⟩ | ⟨hnot, hdue, -⟩ := h.turn hs ht
    · rw [grants_cons_of_granted hgranted, List.head?_cons, Option.some.injEq] at hg
      exact hg ▸ hm
    · rw [grants_cons_of_not_granted hnot] at hg
      exact ih hdue (hs.turn ht) hrest hg

theorem not_settled (h : Due m) (hs : Sound m) : ¬ m.Settled := by
  intro hsettled
  obtain ⟨r, hr, hm⟩ := h.waits
  obtain ⟨w, hw, rfl⟩ := mem_requests hr
  have hasleep := hs.asleep w hw (hsettled w hw)
  rw [(h.available_iff hs _).mpr hm] at hasleep
  cases hasleep

/-- Once every wake-up has taken effect, exactly one of the writers that wait has got the lock, and
nobody else has. -/
theorem grants_eq (h : Due m) (hs : Sound m) (hlooks : ∀ move ∈ moves, move.IsLook)
    (hrun : m.runAll moves = some (es, m')) (hsettled : m'.Settled) :
    ∃ r ∈ m.requests, r.mode = .exclusive ∧ grants es =
      [⟨r.thread, .exclusive, .granted⟩] ∧
      m'.lock.writer = true := by
  induction moves generalizing m es with
  | nil =>
    cases hrun
    exact absurd hsettled (h.not_settled hs)
  | cons move moves ih =>
    obtain ⟨e, m₁, rest, hstep, hrest, rfl⟩ := runAll_cons_eq_some hrun
    obtain ⟨hlook, hlooks⟩ := List.forall_mem_cons.mp hlooks
    have ht := step_turn hstep
    obtain ⟨hgranted, hm, hwriter, hwho⟩ | ⟨hnot, hdue, hsub⟩ := h.turn hs ht
    · obtain ⟨r, hr, hrm, hthread⟩ := hwho hlook
      obtain ⟨hnone, hwriter'⟩ := no_grant_of_writer hwriter hlooks hrest
      refine ⟨r, hr, hrm, ?_, hwriter'⟩
      rw [grants_cons_of_granted hgranted, hnone]
      obtain ⟨thread, mode, outcome⟩ := e
      obtain rfl : outcome = .granted := hgranted
      obtain rfl : mode = .exclusive := hm
      obtain rfl : thread = r.thread := hthread
      rfl
    · obtain ⟨r, hr, hrm, hgrants, hwriter⟩ := ih hdue (hs.turn ht) hlooks hrest
      exact ⟨r, hsub hlook r hr, hrm, (grants_cons_of_not_granted hnot rest).trans
        hgrants, hwriter⟩

end Due

/-! ## Readers -/

theorem requests_of_release {thread : Nat} {mode : LockMode}
    (t : Turn m (.release thread mode) e m') : m'.requests = m.requests := by
  cases t with
  | freed _ _ l idle hl =>
    split
    · exact requests_wakeAll _
    · rfl
  | refused => rfl

/-- A thread that gives up stands in nobody's way any more. -/
theorem failed_look {thread : Nat} {mode : LockMode} {fault : Fault} {late : Bool}
    (t : Turn m (.look thread late) ⟨thread, mode, .failed fault⟩ m') :
    m'.lock.writer = m.lock.writer ∧ m'.requests = m.requests.filter (·.thread ≠ thread) := by
  cases t with
  | expired w mem timed hav =>
    exact ⟨by rw [lock_giveUp, writer_leave], requests_giveUp m w⟩

/-- Without a writer nothing stands in a reader's way, and a reader that was held back is awake. -/
theorem Sound.letsIn (h : Sound m) (hw : m.lock.writer = false)
    (hr : ∀ r ∈ m.requests, r.mode ≠ .exclusive) : LetsIn m := by
  have hwaiting : m.lock.waiting = 0 := by
    by_contra hne
    obtain ⟨w, mem, hm⟩ := h.waiting_ne_zero_iff.mp hne
    exact hr _ (List.mem_map_of_mem mem) hm
  have hav : m.lock.available .shared = true := available_shared.mpr ⟨hw, hwaiting⟩
  refine ⟨fun r hm hidle => ?_, fun w mem => ?_⟩
  · have hnone : m.waiter? r.thread = none :=
      waiter?_eq_none.mpr fun w mem => hidle _ (List.mem_map_of_mem mem)
    refine ⟨{ m with lock := m.lock.held .shared }, ?_⟩
    simp only [step, hnone, Option.isNone_none, if_true, request, hm, acquire_eq, hav]
  · have hm : w.mode = .shared := by
      cases hm : w.mode with
      | shared => rfl
      | exclusive => exact absurd hm (hr _ (List.mem_map_of_mem mem))
    have hawake : w.awake = true := by
      by_contra hasleep
      have := h.asleep w mem (Bool.eq_false_iff.mpr hasleep)
      rw [hm, hav] at this
      cases this
    refine ⟨hawake, fun late hlate => ⟨(m.look w late).2, ?_⟩⟩
    rw [h.step_look mem (.inl hawake) late hlate, look_of_available (hm ▸ hav), hm]

/-- Writers that wait go first, and nobody is forgotten, wherever threads that share a lock have got
to. -/
theorem runAll_preference (h : free.runAll moves = some (es, m)) : Preferring m := by
  have hs := sound_free.runAll h
  refine ⟨hs.exists_settled, fun hsettled r hr hm => ?_, ?_, hs.letsIn, ?_⟩
  · by_contra hfree
    have hdue : Due m := ⟨by simpa using fun hw => hfree (.inl hw), by omega, r, hr, hm⟩
    exact hdue.not_settled hs hsettled
  · intro thread mode e m₁ hstep hreleased hw hr hwaits
    have ht := step_turn hstep
    have hs₁ := hs.turn ht
    have hrequests := requests_of_release ht
    have hdue : Due m₁ := ⟨hw, hr, hrequests.symm ▸ hwaits⟩
    refine ⟨fun looks es' m' hlooks hrun hsettled => ?_, fun moves es' m' e hrun hg => ?_⟩
    · exact hrequests ▸ hdue.grants_eq hs₁ hlooks hrun hsettled
    · exact hdue.head_grants hs₁ hrun hg
  · intro thread m₁ fault hstep hw hlast
    have ht := step_turn hstep
    obtain ⟨hwriter, hrequests⟩ := failed_look ht
    refine (hs.turn ht).letsIn (hwriter.trans hw) fun r hr hm => ?_
    obtain ⟨hr, hother⟩ := List.mem_filter.mp (hrequests ▸ hr)
    exact of_decide_eq_true hother (hlast r hr hm)

/-- A reader holds the lock, a writer waits for it, and a reader waits behind the writer. -/
def line : List Move :=
  [.request ⟨1, .shared, false⟩, .request ⟨2, .exclusive, false⟩,
    .request ⟨3, .shared, true⟩]

theorem runAll_preference_line :
    ∃ es m, free.runAll line = some (es, m) ∧ m.Settled ∧
      (∃ m₁, m.step (.release 1 .shared) = some (⟨1, .shared, .released⟩, m₁) ∧
        m₁.lock = ⟨0, false, 1, 0⟩) ∧
      Preferring m :=
  ⟨_, _, rfl, by decide, ⟨_, rfl, rfl⟩,
    runAll_preference (rfl : free.runAll line = some (_, _))⟩

end Monitor
end Lock
end Tabulary
