import Tabulary.Proofs.Catalog.Tidy

/-!
Work along a course of a data directory.  `Meets` says of work what it needs of its state and of the
files, and what it gives and leaves when it succeeds and when it fails, with the files going along a
course either way.  There is a rule for each way of putting work together, and one for each thing
that work does.
-/

namespace Tabulary

open Attempt Files

namespace Work

variable {σ τ α β : Type} {base root : Path} {R : Files → Files → Prop}
  {P P' : σ → Files → Prop}
  {Q : α → σ → Files → Prop} {E : σ → Files → Prop} {x : Work σ α}

/-- From a state and files of a kind, work comes to a result, a state and files that belong
together, or it fails with others.  The files go along a course either way. -/
abbrev Meets (base root : Path) (R : Files → Files → Prop) (P : σ → Files → Prop)
    (x : Work σ α) (Q : α → σ → Files → Prop) (E : σ → Files → Prop) : Prop :=
  ∀ fs, Tidy base root fs → Triple (fun y => R fs y.2.files ∧ P y.1 y.2.files) x
    (fun a y => R fs y.2.files ∧ Q a y.1 y.2.files) fun y => R fs y.2.files ∧ E y.1 y.2.files

/-- Work that leaves a state and files of the kind that they were. -/
abbrev Upholds (base root : Path) (R : Files → Files → Prop) (P : σ → Files → Prop)
    (x : Work σ α) : Prop := Meets base root R P x (fun _ => P) P

/-- What is known of a state and the files goes with the files. -/
abbrev Lasts (R : Files → Files → Prop) (P : σ → Files → Prop) : Prop :=
  ∀ s fs fs', R fs fs' → P s fs → P s fs'

theorem Meets.bind {f : α → Work σ β} {Q' : β → σ → Files → Prop}
    (hx : Meets base root R P x Q E)
    (hf : ∀ a, Meets base root R (Q a) (f a) Q' E) : Meets base root R P (x >>= f) Q' E :=
  fun fs ht => (hx fs ht).bind fun a => hf a fs ht

theorem Meets.mono {Q' : α → σ → Files → Prop} {E' : σ → Files → Prop}
    (hx : Meets base root R P x Q E) (hP : ∀ s fs, P' s fs → P s fs)
    (hQ : ∀ a s fs, Q a s fs → Q' a s fs) (hE : ∀ s fs, E s fs → E' s fs) :
    Meets base root R P' x Q' E' := fun fs ht =>
  (hx fs ht).mono (fun _ h => ⟨h.1, hP _ _ h.2⟩) (fun _ _ h => ⟨h.1, hQ _ _ _ h.2⟩)
    fun _ h => ⟨h.1, hE _ _ h.2⟩

theorem Meets.given (hx : Meets base root R P x Q E) (hP : ∀ s fs, P' s fs → P s fs) :
    Meets base root R P' x Q E := hx.mono hP (fun _ _ _ h => h) fun _ _ h => h

theorem Meets.giving {Q' : α → σ → Files → Prop} (hx : Meets base root R P x Q E)
    (hQ : ∀ a s fs, Q a s fs → Q' a s fs) : Meets base root R P x Q' E :=
  hx.mono (fun _ _ h => h) hQ fun _ _ h => h

theorem Meets.failing {E' : σ → Files → Prop} (hx : Meets base root R P x Q E)
    (hE : ∀ s fs, E s fs → E' s fs) : Meets base root R P x Q E' :=
  hx.mono (fun _ _ h => h) (fun _ _ _ h => h) hE

/-- What does not concern the state and the files may be used of them afterwards. -/
theorem Meets.of_fact {φ : Prop} (hφ : ∀ s fs, P s fs → φ)
    (hx : φ → Meets base root R P x Q E) : Meets base root R P x Q E :=
  fun fs ht y h => hx (hφ _ _ h.2) fs ht y h

theorem Meets.tryCatch {handle : Fault → Work σ α} {E' : σ → Files → Prop}
    (hx : Meets base root R P x Q E') (hhandle : ∀ e, Meets base root R E' (handle e) Q E) :
    Meets base root R P (tryCatch x handle) Q E := fun fs ht =>
  (hx fs ht).tryCatch fun e => hhandle e fs ht

theorem meets_ite {c : Prop} [Decidable c] {y : Work σ α}
    (hx : Meets base root R P y Q E → Meets base root R P x Q E)
    (hy : Meets base root R P y Q E) : Meets base root R P (if c then x else y) Q E := by
  split
  · exact hx hy
  · exact hy

theorem meets_exists {ι : Type} {P : ι → σ → Files → Prop}
    (hx : ∀ i, Meets base root R (P i) x Q E) :
    Meets base root R (fun s fs => ∃ i, P i s fs) x Q E := by
  rintro fs ht y ⟨hR, i, hP⟩
  exact hx i fs ht y ⟨hR, hP⟩

/-- What depends on the files alone, and goes with them, is still so afterwards. -/
theorem Meets.frame (hc : Course base root R) {F : Files → Prop}
    (hF : ∀ fs fs', R fs fs' → F fs → F fs') (hx : Meets base root R P x Q E) :
    Meets base root R (fun s fs => P s fs ∧ F fs) x (fun a s fs => Q a s fs ∧ F fs)
      fun s fs => E s fs ∧ F fs := by
  intro fs₀ ht
  refine .of_run fun y h => ?_
  have ht' := hc.tidy h.1 ht
  refine ⟨_, _, _, ⟨hc.refl ht', h.2.1⟩, hx y.2.files ht', ?_, ?_⟩
  · rintro a z ⟨hR, hQ⟩
    exact ⟨hc.trans h.1 hR, hQ, hF _ _ hR h.2.2⟩
  · rintro z ⟨hR, hE⟩
    exact ⟨hc.trans h.1 hR, hE, hF _ _ hR h.2.2⟩

theorem meets_pure {a : α} (h : ∀ s fs, P s fs → Q a s fs) :
    Meets base root R P (pure a : Work σ α) Q E :=
    fun _ _ y hy => ⟨hy.1, h y.1 y.2.files hy.2⟩

theorem meets_throw {e : Fault} (h : ∀ s fs, P s fs → E s fs) :
    Meets base root R P (throw e : Work σ α) Q E :=
    fun _ _ y hy => ⟨hy.1, h y.1 y.2.files hy.2⟩

theorem meets_log (level : Level) (name : String) (fields : List (String × Json)) :
    Meets base root R P (log level name fields : Work σ Unit) (fun _ => P) E := fun _ _ _ h => h

theorem meets_addOpenTables (n : Int) :
    Meets base root R P (addOpenTables n : Work σ Unit) (fun _ => P) E := fun _ _ _ h => h

theorem meets_pathText (p : Path) :
    Meets base root R P (pathText p : Work σ String) (fun _ => P) E := fun _ _ _ h => h

theorem meets_takeSerial :
    Meets base root R P (takeSerial : Work σ Nat) (fun _ => P) E := fun _ _ _ h => h

theorem meets_ofExcept (r : Except Fault α) :
    Meets base root R P (Attempt.ofExcept r : Work σ α) (fun a s fs => r = .ok a ∧ P s fs) P :=
  fun _ _ => (triple_ofExcept r).mono (fun _ h => h)
    (fun _ _ h => ⟨h.2.1, h.1, h.2.2⟩) fun _ h => h

theorem upholds_ofExcept (r : Except Fault α) :
    Upholds base root R P (Attempt.ofExcept r : Work σ α) :=
  (meets_ofExcept r).giving fun _ _ _ h => h.2

theorem meets_query (hc : Course base root R) (f : Files → Except Fault α) :
    Meets base root R P (query f : Work σ α)
      (fun a s fs => (f fs = .ok a ∧ Tidy base root fs) ∧ P s fs) P := by
  intro fs₀ ht y h
  rw [run_query]
  cases hf : f y.2.files with
  | ok a => exact ⟨h.1, ⟨hf, hc.tidy h.1 ht⟩, h.2⟩
  | error e => exact h

theorem upholds_query (hc : Course base root R) (f : Files → Except Fault α) :
    Upholds base root R P (query f : Work σ α) :=
  (meets_query hc f).giving fun _ _ _ h => h.2

/-- The state is looked at for something that does not depend on the files. -/
theorem meets_state_bind {f : σ → Work σ β} {Q : β → σ → Files → Prop}
    {φ : σ → Prop}
    (hφ : ∀ s fs, P s fs → φ s) (hf : ∀ s, φ s → Meets base root R P (f s) Q E) :
    Meets base root R P (state >>= f) Q E := fun fs ht y h => hf y.1 (hφ _ _ h.2) fs ht y h

/-- The state is looked at, and known from then on. -/
theorem meets_state_eq {f : σ → Work σ β} {Q : β → σ → Files → Prop}
    (hf : ∀ s₀, Meets base root R (fun s fs => s = s₀ ∧ P s fs) (f s₀) Q E) :
    Meets base root R P (state >>= f) Q E := fun fs ht y h => hf y.1 fs ht y ⟨h.1, rfl, h.2⟩

/-- The state is replaced by what is worked out from it. -/
theorem meets_update {f : σ → σ} {rest : Work σ β} {Q : β → σ → Files → Prop}
    (hf : ∀ s fs, P s fs → P' (f s) fs) (hrest : Meets base root R P' rest Q E) :
    Meets base root R P (state >>= fun s => setState (f s) >>= fun _ => rest) Q E :=
  fun fs ht y h => hrest fs ht (f y.1, y.2) ⟨h.1, hf _ _ h.2⟩

theorem meets_change (hc : Course base root R) {f : Files → Except Fault Files}
    {Q : σ → Files → Prop} (hf : ∀ s fs fs', Tidy base root fs → P s fs →
      f fs = .ok fs' →
      R fs fs' ∧ Q s fs') : Meets base root R P (change f : Work σ Unit) (fun _ => Q) P := by
  intro fs₀ ht y h
  rw [run_change]
  cases hrun : f y.2.files with
  | ok fs' =>
    obtain ⟨hR, hQ⟩ := hf y.1 y.2.files fs' (hc.tidy h.1 ht) h.2 hrun
    exact ⟨hc.trans h.1 hR, hQ⟩
  | error e => exact h

theorem upholds_ensureDirectory (hc : Course base root R) {p : Path}
    (hf : ∀ s fs, Tidy base root fs → P s fs →
      R fs (fs.ensureDirectory p).2 ∧ P s (fs.ensureDirectory p).2) :
    Upholds base root R P (ensureDirectory p : Work σ Unit) := by
  intro fs₀ ht y h
  obtain ⟨hR, hP⟩ := hf y.1 y.2.files (hc.tidy h.1 ht) h.2
  have hend := And.intro (hc.trans h.1 hR) hP
  rw [run_ensureDirectory]
  generalize y.2.files.ensureDirectory p = made at hend ⊢
  obtain ⟨result, fs'⟩ := made
  cases result with
  | ok _ => exact hend
  | error e => exact hend

/-- Work on another state leaves this one as it is. -/
theorem meets_beside (hc : Course base root R) {t : τ} {x : Work τ α}
    {J E' : τ → Files → Prop} {Q : α → τ → Files → Prop} (hstable : Lasts R P)
    (ht : ∀ s fs, P s fs → J t fs) (hx : Meets base root R J x Q E') :
    Meets base root R P (beside t x : Work σ (Except Fault α × τ))
      (fun p s fs => P s fs ∧ match p.1 with
        | .ok a => Q a p.2 fs
        | .error _ => E' p.2 fs) E := by
  intro fs₀ htidy y h
  have htidy' := hc.tidy h.1 htidy
  have hend := hx y.2.files htidy' (t, y.2) ⟨hc.refl htidy', ht _ _ h.2⟩
  rw [run_beside]
  generalize x.run (t, y.2) = ending at hend ⊢
  obtain ⟨result, t', w'⟩ := ending
  cases result with
  | ok a => exact ⟨hc.trans h.1 hend.1, hstable _ _ _ hend.1 h.2, hend.2⟩
  | error e => exact ⟨hc.trans h.1 hend.1, hstable _ _ _ hend.1 h.2, hend.2⟩

/-- Quiet work leaves manifests in order. -/
theorem Meets.onward {directory : String} (hd : directory ≠ "..")
    (hx : Meets base root (Quiet root directory) P x Q E) :
    Meets base root (Onward base root) P x Q E := by
  intro fs₀ _
  refine .of_run fun y h => ?_
  have hc : Course base root (Quiet root directory) := course_quiet hd
  have ht : Tidy base root y.2.files := h.1.tidy
  refine ⟨_, _, _, ⟨hc.refl ht, h.2⟩, hx y.2.files ht, ?_, ?_⟩
  · rintro a z ⟨hquiet, hQ⟩
    exact ⟨course_onward.trans h.1 (hquiet.onward hd ht), hQ⟩
  · rintro z ⟨hquiet, hE⟩
    exact ⟨course_onward.trans h.1 (hquiet.onward hd ht), hE⟩

end Work
end Tabulary
