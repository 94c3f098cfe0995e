/-!
Computations over a state that may fail, and that keep the state they reached when they do.  A
failure never rolls anything back by itself, so what a failed operation leaves behind is a statement
about the operation.
-/

namespace Tabulary

/-- From a state to a result or a failure, and the state reached either way. -/
structure Attempt (ε σ α : Type) where
  run : σ → Except ε α × σ

namespace Attempt

variable {ε σ τ α β γ : Type}

protected def pure (a : α) : Attempt ε σ α := ⟨fun s => (.ok a, s)⟩

protected def bind (x : Attempt ε σ α) (f : α → Attempt ε σ β) : Attempt ε σ β :=
  ⟨fun s => match x.run s with
    | (.ok a, s') => (f a).run s'
    | (.error e, s') => (.error e, s')⟩

instance : Monad (Attempt ε σ) where
  pure := Attempt.pure
  bind := Attempt.bind

/-- Runs the handler, from the state of the failure, where there is one. -/
protected def orElse (x : Attempt ε σ α) (handle : ε → Attempt ε σ α) : Attempt ε σ α :=
  ⟨fun s => match x.run s with
    | (.ok a, s') => (.ok a, s')
    | (.error e, s') => (handle e).run s'⟩

instance : MonadExceptOf ε (Attempt ε σ) where
  throw e := ⟨fun s => (.error e, s)⟩
  tryCatch := Attempt.orElse

instance : MonadStateOf σ (Attempt ε σ) where
  get := ⟨fun s => (.ok s, s)⟩
  set s := ⟨fun _ => (.ok (), s)⟩
  modifyGet f := ⟨fun s => (.ok (f s).1, (f s).2)⟩

def ofExcept (r : Except ε α) : Attempt ε σ α := ⟨fun s => (r, s)⟩

/-- The computation with its failure, if any, as its result. -/
def outcome (x : Attempt ε σ α) : Attempt ε σ (Except ε α) :=
  ⟨fun s => (.ok (x.run s).1, (x.run s).2)⟩

/-- Runs a computation on a part of the state. -/
def within (get : σ → τ) (put : τ → σ → σ) (x : Attempt ε τ α) : Attempt ε σ α :=
  ⟨fun s => ((x.run (get s)).1, put (x.run (get s)).2 s)⟩

@[simp] theorem run_pure (a : α) (s : σ) : (pure a : Attempt ε σ α).run s = (.ok a, s) := rfl

@[simp] theorem run_throw (e : ε) (s : σ) :
    (throw e : Attempt ε σ α).run s = (.error e, s) := rfl

@[simp] theorem run_get (s : σ) : (get : Attempt ε σ σ).run s = (.ok s, s) := rfl

@[simp] theorem run_set (s t : σ) : (set t : Attempt ε σ PUnit).run s = (.ok (), t) := rfl

@[simp] theorem run_modify (f : σ → σ) (s : σ) :
    (modify f : Attempt ε σ PUnit).run s = (.ok (), f s) := rfl

@[simp] theorem run_ofExcept (r : Except ε α) (s : σ) : (ofExcept r).run s = (r, s) := rfl

theorem run_bind (x : Attempt ε σ α) (f : α → Attempt ε σ β) (s : σ) :
    (x >>= f).run s = match x.run s with
      | (.ok a, s') => (f a).run s'
      | (.error e, s') => (.error e, s') := rfl

theorem run_bind_of_ok {x : Attempt ε σ α} {f : α → Attempt ε σ β} {s s' : σ} {a : α}
    (h : x.run s = (.ok a, s')) : (x >>= f).run s = (f a).run s' := by
  rw [run_bind, h]

theorem run_bind_of_error {x : Attempt ε σ α} {f : α → Attempt ε σ β} {s s' : σ} {e : ε}
    (h : x.run s = (.error e, s')) : (x >>= f).run s = (.error e, s') := by
  rw [run_bind, h]

private theorem run_injective {x y : Attempt ε σ α} (h : ∀ s, x.run s = y.run s) : x = y := by
  cases x; cases y; congr; funext s; exact h s

private theorem id_map_eq (x : Attempt ε σ α) : id <$> x = x := by
  refine run_injective fun s => ?_
  show (x >>= fun a => pure (id a)).run s = x.run s
  rw [run_bind]
  cases x.run s with
  | mk r s' => cases r <;> rfl

private theorem bind_assoc_eq (x : Attempt ε σ α) (f : α → Attempt ε σ β)
    (g : β → Attempt ε σ γ) : x >>= f >>= g = x >>= fun a => f a >>= g := by
  refine run_injective fun s => ?_
  simp only [run_bind]
  cases x.run s with
  | mk r s' => cases r <;> rfl

instance : LawfulMonad (Attempt ε σ) :=
  LawfulMonad.mk' _ id_map_eq (fun _ _ => rfl) bind_assoc_eq

end Attempt
end Tabulary
