import Tabulary.Attempt

/-!
Ways of following a run without knowing the state it starts from: what it keeps of the state, what
its failure keeps, and what it does beside another run.  Each is closed under sequencing.
-/

namespace Tabulary
namespace Attempt

variable {ε σ τ α β γ : Type}

theorem run_of_fst {x : Attempt ε σ α} {s : σ} {r : Except ε α} (h : (x.run s).1 = r) :
    x.run s = (r, (x.run s).2) := Prod.ext h rfl

/-! ## What a run keeps -/

section keeps

variable {view : σ → γ}

/-- Whatever its result, a run leaves a view of the state as it was. -/
def Keeps (view : σ → γ) (x : Attempt ε σ α) : Prop := ∀ s, view (x.run s).2 = view s

/-- A run that fails leaves a view of the state as it was. -/
def Spares (view : σ → γ) (x : Attempt ε σ α) : Prop :=
  ∀ s e s', x.run s = (.error e, s') → view s' = view s

/-- A run that never fails. -/
def Succeeds (x : Attempt ε σ α) : Prop := ∀ s, ∃ a s', x.run s = (.ok a, s')

theorem keeps_pure (a : α) : Keeps view (pure a : Attempt ε σ α) := fun _ => rfl

theorem keeps_throw (e : ε) : Keeps view (throw e : Attempt ε σ α) := fun _ => rfl

theorem keeps_ofExcept (r : Except ε α) :
    Keeps view (ofExcept r : Attempt ε σ α) := fun _ => rfl

theorem Keeps.bind {x : Attempt ε σ α} {f : α → Attempt ε σ β} (hx : Keeps view x)
    (hf : ∀ a, Keeps view (f a)) : Keeps view (x >>= f) := by
  intro s
  have hs := hx s
  rw [run_bind]
  split
  · rename_i a s' hrun
    rw [hrun] at hs
    exact (hf a s').trans hs
  · rename_i e s' hrun
    rw [hrun] at hs
    exact hs

theorem Keeps.outcome {x : Attempt ε σ α} (hx : Keeps view x) : Keeps view x.outcome := hx

/-- What depends on something that is kept. -/
theorem Keeps.through {δ : Type} {x : Attempt ε σ α} (hx : Keeps view x) (g : γ → δ) :
    Keeps (fun s => g (view s)) x := fun s => congrArg g (hx s)

theorem keeps_mapM {δ : Type} {f : δ → Attempt ε σ β} (hf : ∀ d, Keeps view (f d))
    (l : List δ) : Keeps view (l.mapM f) := by
  induction l with
  | nil => exact keeps_pure []
  | cons d l ih =>
    rw [List.mapM_cons]
    exact (hf d).bind fun b => ih.bind fun bs => keeps_pure (b :: bs)

theorem keeps_forM {δ : Type} {f : δ → Attempt ε σ PUnit} (hf : ∀ d, Keeps view (f d))
    (l : List δ) : Keeps view (l.forM f) := by
  induction l with
  | nil => exact keeps_pure PUnit.unit
  | cons d l ih => exact (hf d).bind fun _ => ih

theorem Keeps.spares {x : Attempt ε σ α} (hx : Keeps view x) : Spares view x := by
  intro s e s' hrun
  have hs := hx s
  rwa [hrun] at hs

theorem Succeeds.spares {x : Attempt ε σ α} (hx : Succeeds x) : Spares view x := by
  intro s e s' hrun
  obtain ⟨a, s'', hok⟩ := hx s
  rw [hok] at hrun
  cases hrun

/-- What fails before the first change has kept what the part before it keeps. -/
theorem Keeps.bind_spares {x : Attempt ε σ α} {f : α → Attempt ε σ β} (hx : Keeps view x)
    (hf : ∀ a, Spares view (f a)) : Spares view (x >>= f) := by
  intro s e s'' hrun
  have hs := hx s
  rw [run_bind] at hrun
  split at hrun
  · rename_i a s' hok
    rw [hok] at hs
    exact (hf a s' e s'' hrun).trans hs
  · rename_i e' s' hfail
    cases hrun
    rwa [hfail] at hs

/-- What cannot fail may follow what spares the state. -/
theorem Spares.bind {x : Attempt ε σ α} {f : α → Attempt ε σ β} (hx : Spares view x)
    (hf : ∀ a, Succeeds (f a)) : Spares view (x >>= f) := by
  intro s e s'' hrun
  rw [run_bind] at hrun
  split at hrun
  · rename_i a s' hok
    exact absurd hrun (by
      obtain ⟨b, t, hb⟩ := hf a s'
      rw [hb]
      simp)
  · rename_i e' s' hfail
    cases hrun
    exact hx s _ _ hfail

theorem succeeds_pure (a : α) : Succeeds (pure a : Attempt ε σ α) := fun s => ⟨a, s, rfl⟩

theorem Succeeds.bind {x : Attempt ε σ α} {f : α → Attempt ε σ β} (hx : Succeeds x)
    (hf : ∀ a, Succeeds (f a)) : Succeeds (x >>= f) := by
  intro s
  obtain ⟨a, s', hrun⟩ := hx s
  rw [run_bind_of_ok hrun]
  exact hf a s'

end keeps

/-! ## What a run brings about -/

section triple

variable {P P' : σ → Prop} {Q Q' : α → σ → Prop} {E E' : σ → Prop}
  {x : Attempt ε σ α}

/-- From a state of the first kind a run comes to a result and a state that belong together, or it
fails in a state of the last kind. -/
def Triple (P : σ → Prop) (x : Attempt ε σ α) (Q : α → σ → Prop) (E : σ → Prop) :
    Prop :=
  ∀ s, P s → match x.run s with
    | (.ok a, s') => Q a s'
    | (.error _, s') => E s'

theorem Keeps.triple {view : σ → γ} {I : γ → Prop} (hx : Keeps view x) :
    Triple (fun s => I (view s)) x (fun _ s => I (view s)) fun s => I (view s) := by
  intro s hs
  have hs' := hx s
  generalize x.run s = ending at hs' ⊢
  obtain ⟨result, s'⟩ := ending
  cases result with
  | ok a => exact (congrArg I hs').mpr hs
  | error e => exact (congrArg I hs').mpr hs

theorem triple_pure {a : α} (h : ∀ s, P s → Q a s) :
    Triple P (pure a : Attempt ε σ α) Q E := h

theorem triple_throw {e : ε} (h : ∀ s, P s → E s) :
    Triple P (throw e : Attempt ε σ α) Q E := h

theorem triple_modify {f : σ → σ} {Q : PUnit → σ → Prop} (h : ∀ s, P s → Q () (f s)) :
    Triple P (modify f : Attempt ε σ PUnit) Q E := h

theorem triple_ofExcept (r : Except ε α) :
    Triple P (ofExcept r : Attempt ε σ α) (fun a s => r = .ok a ∧ P s) P := by
  intro s hs
  rw [run_ofExcept]
  cases r with
  | ok a => exact ⟨rfl, hs⟩
  | error e => exact hs

theorem Triple.bind {f : α → Attempt ε σ β} {R : β → σ → Prop} (hx : Triple P x Q E)
    (hf : ∀ a, Triple (Q a) (f a) R E) : Triple P (x >>= f) R E := by
  intro s hs
  have hs' := hx s hs
  rw [run_bind]
  generalize x.run s = ending at hs' ⊢
  obtain ⟨result, s'⟩ := ending
  cases result with
  | ok a => exact hf a s' hs'
  | error e => exact hs'

/-- What is known may depend on the state that a run starts from. -/
theorem Triple.of_run (h : ∀ s, P s → ∃ P' Q' E', P' s ∧ Triple P' x Q' E' ∧
    (∀ a s', Q' a s' → Q a s') ∧ ∀ s', E' s' → E s') : Triple P x Q E := by
  intro s hs
  obtain ⟨P', Q', E', hs', hx, hQ, hE⟩ := h s hs
  have hend := hx s hs'
  generalize x.run s = ending at hend ⊢
  obtain ⟨result, s'⟩ := ending
  cases result with
  | ok a => exact hQ a s' hend
  | error e => exact hE s' hend

theorem Triple.mono (hx : Triple P x Q E) (hP : ∀ s, P' s → P s)
    (hQ : ∀ a s, Q a s → Q' a s) (hE : ∀ s, E s → E' s) : Triple P' x Q' E' :=
  .of_run fun s hs => ⟨P, Q, E, hP s hs, hx, hQ, hE⟩

theorem Triple.tryCatch {handle : ε → Attempt ε σ α} (hx : Triple P x Q E')
    (hhandle : ∀ e, Triple E' (handle e) Q E) : Triple P (tryCatch x handle) Q E := by
  intro s hs
  have hs' := hx s hs
  show match (Attempt.orElse x handle).run s with
    | (.ok a, s') => Q a s'
    | (.error _, s') => E s'
  unfold Attempt.orElse
  dsimp only
  generalize x.run s = ending at hs' ⊢
  obtain ⟨result, s'⟩ := ending
  cases result with
  | ok a => exact hs'
  | error e => exact hhandle e s' hs'

theorem triple_forM {f : γ → Attempt ε σ PUnit} (hf : ∀ c, Triple P (f c) (fun _ => P) P)
    (l : List γ) : Triple P (l.forM f) (fun _ => P) P := by
  induction l with
  | nil => exact triple_pure fun _ h => h
  | cons c l ih => exact (hf c).bind fun _ => ih

theorem triple_mapM {f : γ → Attempt ε σ β} {l : List γ}
    (hf : ∀ c ∈ l, Triple P (f c) (fun _ => P) P) : Triple P (l.mapM f) (fun _ => P) P := by
  induction l with
  | nil => exact triple_pure fun _ h => h
  | cons c l ih =>
    rw [List.mapM_cons]
    refine (hf c List.mem_cons_self).bind fun b => ?_
    refine (ih fun c' hc' => hf c' (List.mem_cons_of_mem c hc')).bind fun bs => ?_
    exact triple_pure fun _ h => h

end triple

/-! ## What a run gives -/

section returns

variable {P : β → Prop}

/-- Whatever a run gives, if it gives anything, is of some kind. -/
def Returns (P : β → Prop) (x : Attempt ε σ β) : Prop :=
  ∀ s b s', x.run s = (.ok b, s') → P b

theorem returns_pure {b : β} (h : P b) : Returns P (pure b : Attempt ε σ β) := by
  intro s c s' hrun
  cases hrun
  exact h

theorem returns_throw (e : ε) : Returns P (throw e : Attempt ε σ β) := by
  intro s b s' hrun
  cases hrun

theorem Returns.bind {x : Attempt ε σ α} {f : α → Attempt ε σ β}
    (hf : ∀ a, Returns P (f a)) : Returns P (x >>= f) := by
  intro s b s'' hrun
  rw [run_bind] at hrun
  split at hrun
  · rename_i a s' hx
    exact hf a s' b s'' hrun
  · cases hrun

end returns

/-! ## What a run fails with -/

section fails

variable {P : ε → Prop}

/-- Whatever a run fails with, if it fails, is of some kind. -/
def Fails (P : ε → Prop) (x : Attempt ε σ α) : Prop :=
  ∀ s e s', x.run s = (.error e, s') → P e

theorem fails_pure (a : α) : Fails P (pure a : Attempt ε σ α) := by
  intro s e s' hrun
  cases hrun

theorem fails_throw {e : ε} (h : P e) : Fails P (throw e : Attempt ε σ α) := by
  intro s e' s' hrun
  cases hrun
  exact h

theorem Succeeds.fails {x : Attempt ε σ α} (hx : Succeeds x) : Fails P x := by
  intro s e s' hrun
  obtain ⟨a, s'', hok⟩ := hx s
  rw [hrun] at hok
  cases hok

theorem Fails.bind {x : Attempt ε σ α} {f : α → Attempt ε σ β} (hx : Fails P x)
    (hf : ∀ a, Fails P (f a)) : Fails P (x >>= f) := by
  intro s e s'' hrun
  rw [run_bind] at hrun
  split at hrun
  · rename_i a s' hok
    exact hf a s' e s'' hrun
  · rename_i e' s' hfail
    cases hrun
    exact hx s _ _ hfail

theorem fails_ofExcept_bind {r : Except ε α} {f : α → Attempt ε σ β}
    (h : ∀ e, r = .error e → P e)
    (hf : ∀ a, r = .ok a → Fails P (f a)) : Fails P (ofExcept r >>= f) := by
  cases r with
  | ok a => exact hf a rfl
  | error e => exact (fails_throw (h e rfl) : Fails P (throw e : Attempt ε σ β))

end fails

/-- What a run that succeeds consists of: its first part succeeds, and so does the rest. -/
theorem of_run_bind_ok {x : Attempt ε σ α} {f : α → Attempt ε σ β} {s s'' : σ} {b : β}
    (h : (x >>= f).run s = (.ok b, s'')) :
    ∃ a s', x.run s = (.ok a, s') ∧ (f a).run s' = (.ok b, s'') := by
  rw [run_bind] at h
  split at h
  · rename_i a s' hx
    exact ⟨a, s', hx, h⟩
  · cases h

theorem of_run_ofExcept_bind_ok {r : Except ε α} {f : α → Attempt ε σ β}
    {s s' : σ} {b : β}
    (h : (ofExcept r >>= f).run s = (.ok b, s')) : ∃ a, r = .ok a ∧
    (f a).run s = (.ok b, s') := by
  cases r with
  | ok a => exact ⟨a, rfl, h⟩
  | error e => cases h

theorem of_bind_ok {x : Except ε α} {f : α → Except ε β} {b : β} (h : (x >>= f) = .ok b) :
    ∃ a, x = .ok a ∧ f a = .ok b := by
  cases x with
  | ok a => exact ⟨a, rfl, h⟩
  | error e => cases h

/-- A chain of steps fails in its first step or behind it. -/
theorem of_bind_error {x : Except ε α} {f : α → Except ε β} {e : ε}
    (h : (x >>= f) = .error e) : x = .error e ∨ ∃ a, x = .ok a ∧ f a = .error e := by
  cases x with
  | ok a => exact .inr ⟨a, rfl, h⟩
  | error e' =>
    cases h
    exact .inl rfl

theorem of_map_ok {x : Except ε α} {f : α → β} {b : β} (h : x.map f = .ok b) :
    ∃ a, x = .ok a ∧ f a = b := by
  cases x with
  | ok a => exact ⟨a, rfl, Except.ok.inj h⟩
  | error e => cases h

theorem of_map_error {x : Except ε α} {f : α → β} {e : ε} (h : x.map f = .error e) :
    x = .error e := by
  cases x with
  | ok a => cases h
  | error e' =>
    cases h
    rfl

theorem of_mapError_error {ε' : Type} {x : Except ε α} {g : ε → ε'} {e' : ε'}
    (h : x.mapError g = .error e') : ∃ e, x = .error e ∧ e' = g e := by
  cases x with
  | ok a => cases h
  | error e =>
    cases h
    exact ⟨e, rfl, rfl⟩

theorem of_mapError_ok {ε' : Type} {x : Except ε α} {g : ε → ε'} {a : α}
    (h : x.mapError g = .ok a) : x = .ok a := by
  cases x with
  | ok b =>
    cases h
    rfl
  | error e => cases h

theorem of_mapM_error {f : α → Except ε β} {l : List α} {e : ε} (h : l.mapM f = .error e) :
    ∃ a ∈ l, f a = .error e := by
  induction l with
  | nil => cases h
  | cons a l ih =>
    rw [List.mapM_cons] at h
    rcases of_bind_error h with h | ⟨b, -, h⟩
    · exact ⟨a, List.mem_cons_self, h⟩
    · rcases of_bind_error h with h | ⟨bs, -, h⟩
      · obtain ⟨c, hc, h⟩ := ih h
        exact ⟨c, List.mem_cons_of_mem a hc, h⟩
      · cases h

theorem of_mapM_ok {f : α → Except ε β} {l : List α} {bs : List β} (h : l.mapM f = .ok bs) :
    ∀ b ∈ bs, ∃ a ∈ l, f a = .ok b := by
  induction l generalizing bs with
  | nil =>
    cases h
    exact fun b hb => nomatch hb
  | cons a l ih =>
    rw [List.mapM_cons] at h
    obtain ⟨b, hb, h⟩ := of_bind_ok h
    obtain ⟨bs', hbs, h⟩ := of_bind_ok h
    cases h
    intro c hc
    rcases List.mem_cons.mp hc with rfl | hc
    · exact ⟨a, List.mem_cons_self, hb⟩
    · obtain ⟨a', ha', h⟩ := ih hbs c hc
      exact ⟨a', List.mem_cons_of_mem a ha', h⟩

theorem run_tryCatch_of_ok {x : Attempt ε σ α} {handle : ε → Attempt ε σ α}
    {s s' : σ} {a : α} (h : x.run s = (.ok a, s')) : (tryCatch x handle).run s = (.ok a, s') := by
  show (Attempt.orElse x handle).run s = _
  simp only [Attempt.orElse, h]

theorem run_tryCatch_of_error {x : Attempt ε σ α} {handle : ε → Attempt ε σ α}
    {s s' : σ} {e : ε}
    (h : x.run s = (.error e, s')) : (tryCatch x handle).run s = (handle e).run s' := by
  show (Attempt.orElse x handle).run s = _
  simp only [Attempt.orElse, h]

/-- Giving another result changes nothing of the state. -/
theorem snd_run_andReturn (x : Attempt ε σ α) (f : α → β) (s : σ) :
    ((x >>= fun a => pure (f a)).run s).2 = (x.run s).2 := by
  rw [run_bind]
  split
  · rename_i hx
    rw [hx]
    rfl
  · rename_i hx
    rw [hx]

/-! ## Runs over a list -/

section loops

variable {I : σ → Prop} {P : γ → σ → Prop} {l : List γ} {s : σ}

theorem exists_run_forM {f : γ → Attempt ε σ PUnit}
    (hstep : ∀ a ∈ l, ∀ s, I s → ∃ s', (f a).run s = (.ok ⟨⟩, s') ∧ I s')
    (hs : I s) : ∃ s', (l.forM f).run s = (.ok ⟨⟩, s') ∧ I s' := by
  induction l generalizing s with
  | nil => exact ⟨s, rfl, hs⟩
  | cons a l ih =>
    obtain ⟨s₁, hrun, hs₁⟩ := hstep a List.mem_cons_self s hs
    obtain ⟨s₂, hrest, hs₂⟩ := ih (fun c hc => hstep c (List.mem_cons_of_mem a hc)) hs₁
    exact ⟨s₂, (run_bind_of_ok hrun).trans hrest, hs₂⟩

/-- What each step brings about and no later step undoes holds at the end of all elements. -/
theorem exists_run_mapM {f : γ → Attempt ε σ β}
    (hstep : ∀ a ∈ l, ∀ s, I s →
      ∃ b s', (f a).run s = (.ok b, s') ∧ I s' ∧ P a s' ∧ ∀ c, P c s → P c s')
      (hs : I s) :
    ∃ bs s', (l.mapM f).run s = (.ok bs, s') ∧ I s' ∧ (∀ a ∈ l, P a s') ∧ ∀ c,
    P c s → P c s' := by
  induction l generalizing s with
  | nil => exact ⟨[], s, rfl, hs, (fun a ha => nomatch ha), fun c hc => hc⟩
  | cons a l ih =>
    obtain ⟨b, s₁, hrun, hs₁, hdone, hkept⟩ := hstep a List.mem_cons_self s hs
    obtain ⟨bs, s₂, hrest, hs₂, hdones, hkept₂⟩ :=
      ih (fun c hc => hstep c (List.mem_cons_of_mem a hc)) hs₁
    refine ⟨b :: bs, s₂, ?_, hs₂, ?_, fun c hc => hkept₂ c (hkept c hc)⟩
    · rw [List.mapM_cons, run_bind_of_ok hrun, run_bind_of_ok hrest]
      rfl
    · intro c hc
      rcases List.mem_cons.mp hc with rfl | hc
      · exact hkept₂ c hdone
      · exact hdones c hc

end loops

/-! ## Two runs beside each other -/

section simulates

variable {R : σ → τ → Prop}

/-- From two states two runs give the same result, and they end in related states. -/
def Agree (R : σ → τ → Prop) (s : σ) (t : τ) (x : Attempt ε σ α) (y : Attempt ε τ α) :
    Prop :=
  (x.run s).1 = (y.run t).1 ∧ R (x.run s).2 (y.run t).2

/-- Two runs agree from all related states. -/
def Simulates (R : σ → τ → Prop) (x : Attempt ε σ α) (y : Attempt ε τ α) : Prop :=
  ∀ s t, R s t → Agree R s t x y

section agree

variable {α' : Type} {s s' : σ} {t t' : τ}

theorem agree_of_run {x : Attempt ε σ α} {y : Attempt ε τ α} {r : Except ε α}
    (hx : x.run s = (r, s')) (hy : y.run t = (r, t')) (h : R s' t') : Agree R s t x y := by
  unfold Agree
  rw [hx, hy]
  exact ⟨rfl, h⟩

/-- First parts that succeed, each in its own way. -/
theorem agree_bind {x : Attempt ε σ α} {y : Attempt ε τ α'} {f : α → Attempt ε σ β}
    {g : α' → Attempt ε τ β} {a : α} {b : α'} (hx : x.run s = (.ok a, s'))
    (hy : y.run t = (.ok b, t')) (h : Agree R s' t' (f a) (g b)) :
    Agree R s t (x >>= f) (y >>= g) := by
  unfold Agree
  rw [run_bind_of_ok hx, run_bind_of_ok hy]
  exact h

/-- First parts that fail in the same way. -/
theorem agree_bind_of_error {x : Attempt ε σ α} {y : Attempt ε τ α'}
    {f : α → Attempt ε σ β}
    {g : α' → Attempt ε τ β} {e : ε} (hx : x.run s = (.error e, s'))
    (hy : y.run t = (.error e, t')) (h : R s' t') : Agree R s t (x >>= f) (y >>= g) := by
  unfold Agree
  rw [run_bind_of_error hx, run_bind_of_error hy]
  exact ⟨rfl, h⟩

/-- A first part that only one of the two has. -/
theorem agree_bind_left {x : Attempt ε σ α} {f : α → Attempt ε σ β}
    {y : Attempt ε τ β} {a : α}
    (hx : x.run s = (.ok a, s')) (h : Agree R s' t (f a) y) : Agree R s t (x >>= f) y := by
  unfold Agree
  rw [run_bind_of_ok hx]
  exact h

theorem agree_ofExcept {f : α → Attempt ε σ β} {g : α → Attempt ε τ β}
    (r : Except ε α) (hst : R s t) (h : ∀ a, r = .ok a → Agree R s t (f a) (g a)) :
    Agree R s t (ofExcept r >>= f) (ofExcept r >>= g) := by
  cases r with
  | error e => exact ⟨rfl, hst⟩
  | ok a => exact h a rfl

end agree

theorem simulates_pure (a : α) : Simulates R (pure a : Attempt ε σ α) (pure a) :=
  fun _ _ h => ⟨rfl, h⟩

theorem simulates_throw (e : ε) : Simulates R (throw e : Attempt ε σ α) (throw e) :=
  fun _ _ h => ⟨rfl, h⟩

theorem simulates_ofExcept (r : Except ε α) : Simulates R (ofExcept r) (ofExcept r) :=
  fun _ _ h => ⟨rfl, h⟩

theorem Agree.bind {s : σ} {t : τ} {x : Attempt ε σ α} {y : Attempt ε τ α}
    {f : α → Attempt ε σ β}
    {g : α → Attempt ε τ β} (hx : Agree R s t x y) (hf : ∀ a, Simulates R (f a) (g a)) :
    Agree R s t (x >>= f) (y >>= g) := by
  obtain ⟨hresult, hstate⟩ := hx
  unfold Agree
  rw [run_bind, run_bind]
  generalize x.run s = left at hresult hstate
  generalize y.run t = right at hresult hstate
  obtain ⟨result, s'⟩ := left
  obtain ⟨result', t'⟩ := right
  cases hresult
  cases result with
  | ok a => exact hf a s' t' hstate
  | error e => exact ⟨rfl, hstate⟩

/-- First parts with different results of which as much agrees as is used. -/
theorem agree_bind_of_map {α' : Type} {s : σ} {t : τ} {x : Attempt ε σ α}
    {y : Attempt ε τ α'}
    {v : α → γ} {v' : α' → γ} {f : α → Attempt ε σ β} {g : α' → Attempt ε τ β}
    (hresult : (x.run s).1.map v = (y.run t).1.map v') (hstate : R (x.run s).2 (y.run t).2)
    (hf : ∀ a b, v a = v' b → Simulates R (f a) (g b)) : Agree R s t (x >>= f) (y >>= g) := by
  unfold Agree
  rw [run_bind, run_bind]
  generalize x.run s = left at hresult hstate
  generalize y.run t = right at hresult hstate
  obtain ⟨result, s'⟩ := left
  obtain ⟨result', t'⟩ := right
  cases result with
  | ok a =>
    cases result' with
    | ok b => exact hf a b (Except.ok.inj hresult) s' t' hstate
    | error e => cases hresult
  | error e =>
    cases result' with
    | ok b => cases hresult
    | error e' => exact ⟨congrArg Except.error (Except.error.inj hresult), hstate⟩

theorem Simulates.bind {x : Attempt ε σ α} {y : Attempt ε τ α} {f : α → Attempt ε σ β}
    {g : α → Attempt ε τ β} (hx : Simulates R x y) (hf : ∀ a, Simulates R (f a) (g a)) :
    Simulates R (x >>= f) (y >>= g) := fun s t h => (hx s t h).bind hf

/-- A first part that is left out under a condition. -/
theorem simulates_when {c : Prop} [Decidable c] {x : Attempt ε σ α} {y : Attempt ε τ α}
    {x' : Attempt ε σ β} {y' : Attempt ε τ β} (hx : Simulates R x y)
    (hy : Simulates R x' y') :
    Simulates R (if c then x >>= fun _ => x' else x') (if c then y >>= fun _ => y' else y') := by
  split
  · exact hx.bind fun _ => hy
  · exact hy

theorem Simulates.outcome {x : Attempt ε σ α} {y : Attempt ε τ α} (h : Simulates R x y) :
    Simulates R x.outcome y.outcome := by
  intro s t hst
  obtain ⟨hresult, hstate⟩ := h s t hst
  exact ⟨congrArg Except.ok hresult, hstate⟩

theorem Simulates.tryCatch {x : Attempt ε σ α} {y : Attempt ε τ α}
    {handle : ε → Attempt ε σ α} {handle' : ε → Attempt ε τ α} (h : Simulates R x y)
    (hhandle : ∀ e, Simulates R (handle e) (handle' e)) :
    Simulates R (tryCatch x handle) (tryCatch y handle') := by
  intro s t hst
  obtain ⟨hresult, hstate⟩ := h s t hst
  unfold Agree
  generalize hleft : x.run s = left at hresult hstate
  generalize hright : y.run t = right at hresult hstate
  obtain ⟨result, s'⟩ := left
  obtain ⟨result', t'⟩ := right
  cases hresult
  cases result with
  | ok a =>
    rw [run_tryCatch_of_ok hleft, run_tryCatch_of_ok hright]
    exact ⟨rfl, hstate⟩
  | error e =>
    rw [run_tryCatch_of_error hleft, run_tryCatch_of_error hright]
    exact hhandle e s' t' hstate

/-- Two runs fail in the same way where they started, or they succeed and agree. -/
inductive AgreeOrStay (R : σ → τ → Prop) (s : σ) (t : τ) (x : Attempt ε σ α)
    (y : Attempt ε τ α) : Prop
  | stay {e : ε} (left : x.run s = (.error e, s)) (right : y.run t = (.error e, t))
  | agree {a : α} {t' : τ} (right : y.run t = (.ok a, t')) (agree : Agree R s t x y)

namespace AgreeOrStay

variable {α' : Type} {s s' : σ} {t : τ} {x : Attempt ε σ α} {y : Attempt ε τ α}

theorem agrees (h : AgreeOrStay R s t x y) (hst : R s t) : Agree R s t x y := by
  cases h with
  | stay left right => exact agree_of_run left right hst
  | agree right agree => exact agree

theorem eq_of_error {e : ε} (h : AgreeOrStay R s t x y) (hx : x.run s = (.error e, s')) :
    s' = s := by
  cases h with
  | stay left right => exact congrArg Prod.snd (hx.symm.trans left)
  | agree right agree =>
    have hresult := agree.1
    rw [hx, right] at hresult
    cases hresult

/-- What the first run comes to. -/
theorem left {P : σ → Prop} (h : AgreeOrStay R s t x y) (hs : P s)
    (hR : ∀ s' t', R s' t' → P s') : P (x.run s).2 := by
  cases h with
  | stay left right =>
    rw [left]
    exact hs
  | agree right agree => exact hR _ _ agree.2

/-- First parts that only look at the states. -/
theorem bind {f : α → Attempt ε σ β} {y : Attempt ε τ α'} {g : α' → Attempt ε τ β}
    {a : α} {b : α'}
    (hx : x.run s = (.ok a, s)) (hy : y.run t = (.ok b, t)) (h : AgreeOrStay R s t (f a) (g b)) :
    AgreeOrStay R s t (x >>= f) (y >>= g) := by
  cases h with
  | stay left right =>
    exact .stay ((run_bind_of_ok hx).trans left) ((run_bind_of_ok hy).trans right)
  | agree right agree => exact .agree ((run_bind_of_ok hy).trans right) (agree_bind hx hy agree)

theorem ofExcept_bind {f : α → Attempt ε σ β} {g : α → Attempt ε τ β} (r : Except ε α)
    (h : ∀ a, r = .ok a → AgreeOrStay R s t (f a) (g a)) :
    AgreeOrStay R s t (ofExcept r >>= f) (ofExcept r >>= g) := by
  cases r with
  | error e => exact .stay rfl rfl
  | ok a => exact bind rfl rfl (h a rfl)

theorem andReturn (h : AgreeOrStay R s t x y) (b : β) :
    AgreeOrStay R s t (x >>= fun _ => pure b) (y >>= fun _ => pure b) := by
  cases h with
  | stay left right => exact .stay (run_bind_of_error left) (run_bind_of_error right)
  | agree right agree => exact .agree (run_bind_of_ok right) (agree.bind fun _ => simulates_pure b)

end AgreeOrStay

/-- Something more at the end, which the other run does not see. -/
theorem Agree.andThen {s : σ} {t : τ} {x : Attempt ε σ Unit} {y : Attempt ε τ Unit}
    {z : Attempt ε σ Unit} (hx : Agree R s t x y)
    (hz : ∀ s' t', R s' t' → ∃ s'', z.run s' = (.ok (), s'') ∧ R s'' t') :
    Agree R s t (x >>= fun _ => z) y := by
  obtain ⟨hresult, hstate⟩ := hx
  unfold Agree
  rw [run_bind]
  generalize x.run s = left at hresult hstate
  obtain ⟨result, s'⟩ := left
  cases result with
  | ok u =>
    obtain ⟨s'', hrun, hstate'⟩ := hz s' _ hstate
    dsimp only
    rw [hrun]
    exact ⟨hresult, hstate'⟩
  | error e => exact ⟨hresult, hstate⟩

theorem simulates_forM {f : γ → Attempt ε σ PUnit}
    {g : γ → Attempt ε τ PUnit} {l : List γ}
    (h : ∀ a ∈ l, Simulates R (f a) (g a)) : Simulates R (l.forM f) (l.forM g) := by
  induction l with
  | nil => exact simulates_pure PUnit.unit
  | cons a l ih =>
    refine (h a List.mem_cons_self).bind fun _ => ?_
    exact ih fun c hc => h c (List.mem_cons_of_mem a hc)

theorem simulates_mapM {f : γ → Attempt ε σ β} {g : γ → Attempt ε τ β} {l : List γ}
    (h : ∀ a ∈ l, Simulates R (f a) (g a)) : Simulates R (l.mapM f) (l.mapM g) := by
  induction l with
  | nil => exact simulates_pure []
  | cons a l ih =>
    rw [List.mapM_cons, List.mapM_cons]
    refine (h a List.mem_cons_self).bind fun b => ?_
    refine (ih fun c hc => h c (List.mem_cons_of_mem a hc)).bind fun bs => ?_
    exact simulates_pure (b :: bs)

end simulates

end Attempt
end Tabulary
