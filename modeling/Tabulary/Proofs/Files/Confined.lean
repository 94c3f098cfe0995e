import Tabulary.Proofs.Files.Local
import Tabulary.Proofs.Store.Opening

/-!
Changes that stay in one directory.  Besides the files of some names in it, there may be new
directories, but only those that lead to it.  Work that confines its changes in this way can be put
together from parts.
-/

namespace Tabulary

open Attempt

namespace Files

variable {fs fs' fs'' : Files} {p q : Path} {name : String} {names names' : List String}
  {node : Nat} {bytes : Bytes}

/-- Only the files of some names in a directory may be others, have come or gone, and only the
directories on the way to it may have been made. -/
structure Confined (p : Path) (names : List String) (fs fs' : Files) :
    Prop extends Local p names fs fs' where
  made : ∀ q, fs'.entry? q = some .directory →
    fs.entry? q = some .directory ∨ ∃ front, front <+: p ∧ fs'.walk [] front = .ok q

/-- Where no directory comes into being, there is only the change of files. -/
theorem Local.confined (h : Local p names fs fs')
    (hold : ∀ q, fs'.entry? q = some .directory → fs.entry? q = some .directory) :
    Confined p names fs fs' :=
  ⟨h, fun q hq => Or.inl (hold q hq)⟩

namespace Confined

theorem refl (hs : fs.Sane) : Confined p names fs fs := (Local.refl hs).confined fun _ h => h

theorem trans (h : Confined p names fs fs') (h' : Confined p names fs' fs'') :
    Confined p names fs fs'' where
  toLocal := h.toLocal.trans h'.toLocal
  made q hq := by
    rcases h'.made q hq with hold | hnew
    · rcases h.made q hold with hold | ⟨front, hfront, hw⟩
      · exact Or.inl hold
      · exact Or.inr ⟨front, hfront, h'.toLocal.walk hw⟩
    · exact Or.inr hnew

theorem mono (h : Confined p names fs fs') (hsub : names ⊆ names') : Confined p names' fs fs' :=
  ⟨h.toLocal.mono hsub, h.made⟩

end Confined

/-! ## Operations -/

/-- A change at some places after which none of them is a directory. -/
theorem Edit.confined {touched : Path → Prop} (h : Edit touched fs fs')
    (hlocal : Local p names fs fs')
    (hfile : ∀ q, touched q → fs'.entry? q ≠ some .directory) : Confined p names fs fs' := by
  refine hlocal.confined fun q hq => ?_
  rw [← h.entry q fun ht => hfile q ht hq]
  exact hq

theorem confined_create (hs : fs.Sane) (h : fs.create (p ++ [name]) = .ok (node, fs')) :
    Confined p [name] fs fs' := by
  obtain ⟨q, -, hmade⟩ := created_of_create hs h
  exact hmade.edit.confined (local_create hs h) fun r hr => by simp [hr, hmade.entry]

theorem confined_write (hs : fs.Sane) (h : fs.write (p ++ [name]) bytes = .ok fs') :
    Confined p [name] fs fs' := by
  obtain ⟨q, node, -, hmade⟩ := created_of_write hs h
  exact hmade.edit.confined (local_write hs h) fun r hr => by simp [hr, hmade.entry]

theorem confined_remove (hs : fs.Sane) (h : fs.remove (p ++ [name]) = .ok fs') :
    Confined p [name] fs fs' := by
  obtain ⟨q, -, hremoved⟩ := removed_of_remove hs h
  exact hremoved.edit.confined (local_remove hs h) fun r hr => by simp [hremoved.gone r hr]

theorem confined_removeIfThere (hs : fs.Sane) (h : fs.removeIfThere (p ++ [name]) = .ok fs') :
    Confined p [name] fs fs' := by
  unfold removeIfThere at h
  split at h
  · cases h
    exact .refl hs
  · exact confined_remove hs h

theorem confined_move {other : String} (hs : fs.Sane) (hdown : name ≠ "..")
    (hdown' : other ≠ "..") (hne : name ≠ other) (hopen : fs.openFile (p ++ [name]) = .ok node)
    (h : fs.move (p ++ [name]) (p ++ [other]) = .ok fs') : Confined p [name, other] fs fs' := by
  obtain ⟨-, a', ha', hentry⟩ := openFile_eq_ok.mp hopen
  obtain ⟨a, b, ha, hb, hmoved⟩ := moved_of_move hs h
  obtain rfl : a = a' := Except.ok.inj (ha.symm.trans ha')
  have hab : a ≠ b := fun heq => hne (eq_of_walk_child ha (heq ▸ hb) hdown hdown')
  have hmoved := hmoved node hentry hab
  refine hmoved.edit.confined (local_move hs hdown hdown' hne hopen h) ?_
  rintro _ (rfl | rfl)
  · simp [hmoved.gone]
  · simp [hmoved.entry]

/-! ### Directories -/

theorem made_of_makeOne (hs : fs.Sane) (h : fs.makeOne p = .ok fs')
    (hq : fs'.entry? q = some .directory) :
    fs.entry? q = some .directory ∨ fs'.walk [] p = .ok q := by
  have hgrown : Grown fs fs' := grown_of_makeOne hs h
  unfold makeOne at h
  cases hw : fs.walk [] p with
  | error why =>
    rw [hw] at h
    cases h
  | ok place =>
    have hw' : fs'.walk [] p = .ok place :=
      walk_of_directories (fun _ hr => hgrown.entry_of_some hr) hw
    rw [hw] at h
    simp only [bind, Except.bind] at h
    split at h
    · cases h
    · rename_i hnone
      split at h
      · cases h
        by_cases hplace : q = place
        · exact Or.inr (hplace ▸ hw')
        · rw [entry?_append hnone, if_neg hplace] at hq
          exact Or.inl hq
      · cases h
      · cases h

theorem made_of_ensureOne (hs : fs.Sane) (h : fs.ensureOne p = .ok fs')
    (hq : fs'.entry? q = some .directory) :
    fs.entry? q = some .directory ∨ fs'.walk [] p = .ok q := by
  unfold ensureOne at h
  split at h
  · rename_i hmake
    cases h
    exact made_of_makeOne hs (guarded_eq_ok.mp hmake).2 hq
  · split at h
    · cases h
      exact Or.inl hq
    · cases h

/-- A directory that is made leads to the one that was asked for, or is that one. -/
theorem made_of_ensureDirectory (hs : fs.Sane) (p : Path)
    (hq : entry? (fs.ensureDirectory p).2 q = some .directory) :
    fs.entry? q = some .directory ∨ ∃ front, front <+: p ∧
    walk (fs.ensureDirectory p).2 [] front = .ok q := by
  have hfronts {p front : Path} (h : front <+: p.dropLast) : front <+: p :=
    h.trans p.dropLast_prefix
  fun_induction ensureDirectory fs p with
  | case1 p fs' hmake =>
    exact (made_of_makeOne hs (guarded_eq_ok.mp hmake).2 hq).imp_right fun hw =>
      ⟨p, List.prefix_refl p, hw⟩
  | case2 path target hmake => exact Or.inl hq
  | case3 p path target hmake hne e fs' hfront ih =>
    rw [hfront] at ih
    exact (ih hq).imp_right (Exists.imp fun _ h => ⟨hfronts h.1, h.2⟩)
  | case4 p path target hmake hne fs' hfront fs'' hone ih =>
    have hgrown := grown_ensureDirectory hs p.dropLast
    rw [hfront] at ih hgrown
    rcases made_of_ensureOne hgrown.sane hone hq with hold | hw
    · rcases ih hold with hbefore | ⟨front, hle, hw⟩
      · exact Or.inl hbefore
      refine Or.inr ⟨front, hfronts hle, ?_⟩
      exact walk_of_directories (fun _ hr => (grown_ensureOne hgrown.sane hone).entry_of_some hr) hw
    · exact Or.inr ⟨p, List.prefix_refl p, hw⟩
  | case5 p path target hmake hne fs' hfront e hone ih =>
    rw [hfront] at ih
    exact (ih hq).imp_right (Exists.imp fun _ h => ⟨hfronts h.1, h.2⟩)
  | case6 p e hmake hother hthere => exact Or.inl hq
  | case7 p e hmake hother hthere => exact Or.inl hq

theorem confined_ensureDirectory (hs : fs.Sane) (p : Path) :
    Confined p [] fs (fs.ensureDirectory p).2 :=
  ⟨local_ensureDirectory hs p p, fun _ => made_of_ensureDirectory hs p⟩

end Files

/-! ## Work -/

namespace Work

open Files

variable {σ τ α β : Type} {P : σ → Prop} {p : Path} {names : List String} {x : Work σ α}

/-- Work that confines what it changes, from states of some kind to states of that kind. -/
def Confines (P : σ → Prop) (p : Path) (names : List String) (x : Work σ α) : Prop :=
  ∀ fs, Triple (fun y => P y.1 ∧ Confined p names fs y.2.files) x
    (fun _ y => P y.1 ∧ Confined p names fs y.2.files) fun y => P y.1 ∧
    Confined p names fs y.2.files

theorem Confines.run (hx : Confines P p names x) {y : σ × World} (hP : P y.1)
    (hs : y.2.files.Sane) : P (x.run y).2.1 ∧ Confined p names y.2.files (x.run y).2.2.files := by
  have hend := hx y.2.files y ⟨hP, .refl hs⟩
  generalize x.run y = ending at hend ⊢
  obtain ⟨result, z⟩ := ending
  cases result with
  | ok a => exact hend
  | error e => exact hend

/-- What is known of each run is known of the work. -/
theorem confines_of_run (h : ∀ y, P y.1 → y.2.files.Sane →
    P (x.run y).2.1 ∧ Confined p names y.2.files (x.run y).2.2.files) : Confines P p names x := by
  rintro fs y ⟨hP, hfs⟩
  obtain ⟨hP', hfs'⟩ := h y hP hfs.sane
  generalize x.run y = ending at hP' hfs' ⊢
  obtain ⟨result, z⟩ := ending
  cases result with
  | ok a => exact ⟨hP', hfs.trans hfs'⟩
  | error e => exact ⟨hP', hfs.trans hfs'⟩

theorem confines_of_keeps (hstate : Keeps (·.1) x) (hfiles : Keeps (fun y => y.2.files) x) :
    Confines P p names x := by
  refine confines_of_run fun y hP hs => ?_
  have hsame : (x.run y).2.1 = y.1 := hstate y
  have hfiles : (x.run y).2.2.files = y.2.files := hfiles y
  rw [hsame, hfiles]
  exact ⟨hP, .refl hs⟩

theorem Confines.bind {f : α → Work σ β} (hx : Confines P p names x)
    (hf : ∀ a, Confines P p names (f a)) :
    Confines P p names (x >>= f) := fun fs => (hx fs).bind fun a => hf a fs

/-- What follows need confine its changes only for what can come before. -/
theorem Confines.bind_of_returns {R : α → Prop} {f : α → Work σ β}
    (hx : Confines P p names x)
    (hreturns : Returns R x) (hf : ∀ a, R a → Confines P p names (f a)) :
    Confines P p names (x >>= f) := by
  intro fs y hy
  have hend := hx fs y hy
  rw [run_bind]
  generalize hrun : x.run y = ending at hend ⊢
  obtain ⟨result, z⟩ := ending
  cases result with
  | ok a => exact hf a (hreturns y a z hrun) fs z hend
  | error e => exact hend

theorem Confines.tryCatch {handle : Fault → Work σ α} (hx : Confines P p names x)
    (hhandle : ∀ e, Confines P p names (handle e)) : Confines P p names (tryCatch x handle) :=
  fun fs => (hx fs).tryCatch fun e => hhandle e fs

theorem Confines.mono {names' : List String} (hx : Confines P p names x) (hsub : names ⊆ names') :
    Confines P p names' x :=
  confines_of_run fun _ hP hs => (hx.run hP hs).imp_right fun h => h.mono hsub

theorem confines_throw (e : Fault) : Confines P p names (throw e : Work σ α) :=
  confines_of_keeps (keeps_throw e) (keeps_throw e)

theorem confines_ofExcept (r : Except Fault α) :
    Confines P p names (Attempt.ofExcept r : Work σ α) :=
  confines_of_keeps (keeps_ofExcept r) (keeps_ofExcept r)

theorem confines_query (f : Files → Except Fault α) :
    Confines P p names (query f : Work σ α) :=
  confines_of_keeps (fun _ => rfl) fun _ => rfl

theorem confines_log (level : Level) (name : String) (fields : List (String × Json)) :
    Confines P p names (log level name fields : Work σ Unit) :=
  confines_of_keeps (fun _ => rfl) fun _ => rfl

/-- The state is looked at. -/
theorem confines_state {f : σ → Work σ α} (hf : ∀ s, P s → Confines P p names (f s)) :
    Confines P p names (state >>= f) := fun fs y hy => hf y.1 hy.1 fs y hy

theorem confines_change {f : Files → Except Fault Files}
    (hf : ∀ fs fs', fs.Sane → f fs = .ok fs' → Confined p names fs fs') :
    Confines P p names (change f : Work σ Unit) := by
  refine confines_of_run fun y hP hs => ?_
  rw [run_change]
  cases hrun : f y.2.files with
  | ok fs => exact ⟨hP, hf _ _ hs hrun⟩
  | error e => exact ⟨hP, .refl hs⟩

theorem confines_ensureDirectory (p : Path) :
    Confines P p names (ensureDirectory p : Work σ Unit) := by
  refine confines_of_run fun y hP hs => ?_
  rw [run_ensureDirectory]
  exact ⟨hP, (confined_ensureDirectory hs p).mono (List.nil_subset _)⟩

/-- Work beside a state changes the files only. -/
theorem Confines.beside {Q : τ → Prop} {x : Work τ α} (hx : Confines Q p names x) {t : τ}
    (ht : Q t) : Confines P p names (beside t x : Work σ (Except Fault α × τ)) :=
  confines_of_run fun y hP hs => ⟨hP, (hx.run (y := (t, y.2)) ht hs).2⟩

end Work
end Tabulary
