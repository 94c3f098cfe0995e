import Tabulary.Proofs.Attempt
import Tabulary.Proofs.Keyed
import Tabulary.Proofs.Memory.Basic

/-!
Which databases there are in memory: one more after it was made, one fewer after it was dropped, and
the same after everything else.
-/

namespace Tabulary
namespace Memory

variable {site : Site} {m : Memory} {name other : String} {α : Type}

theorem run_createDatabase (site : Site) (name : String) (m : Memory) :
    (∃ e, (createDatabase site name).run m = (.error e, m)) ∨
      (createDatabase site name).run m = (.ok (site.home name), m ++ [(name, [])]) := by
  unfold createDatabase
  rw [Attempt.run_bind_of_ok (Attempt.run_get _)]
  dsimp only
  split
  · exact Or.inl ⟨_, rfl⟩
  split
  · exact Or.inl ⟨_, rfl⟩
  split
  · exact Or.inl ⟨_, rfl⟩
  cases site.permit [Name.sanitize name] with
  | error e => exact Or.inl ⟨e, rfl⟩
  | ok _ => exact Or.inr rfl

theorem keys_createDatabase (h : other ∈ Keyed.keys m) :
    other ∈ Keyed.keys ((createDatabase site name).run m).2 := by
  rcases run_createDatabase site name m with ⟨e, hrun⟩ | hrun
  · rw [hrun]
    exact h
  · rw [hrun, Keyed.keys, List.map_append]
    exact List.mem_append_left _ h

theorem keys_dropDatabase (h : other ∈ Keyed.keys m) (hne : other ≠ name) :
    other ∈ Keyed.keys ((dropDatabase name).run m).2 := by
  unfold dropDatabase find
  rw [Attempt.run_bind, Attempt.run_bind_of_ok (Attempt.run_get _)]
  cases m.lookup name with
  | none => exact h
  | some tables => exact Keyed.mem_keys_erase.mpr ⟨h, hne⟩

theorem state_find (name : String) (m : Memory) : ((find name).run m).2 = m := by
  unfold find
  rw [Attempt.run_bind_of_ok (Attempt.run_get _)]
  cases m.lookup name <;> rfl

theorem keys_on (x : Attempt Fault Tables α) :
    Keyed.keys ((on name x).run m).2 = Keyed.keys m := by
  unfold on find
  rw [Attempt.run_bind, Attempt.run_bind_of_ok (Attempt.run_get _)]
  cases hlookup : m.lookup name with
  | none => rfl
  | some tables => exact Keyed.keys_set_of_mem (Keyed.mem_keys_of_lookup hlookup) _

theorem keys_execute (standard text : String) (database? : Option String) :
    Keyed.keys ((execute site standard text database?).run m).2 = Keyed.keys m := by
  unfold execute
  rw [Attempt.run_bind_of_ok (Attempt.run_get _)]
  split
  · exact keys_on _
  · rfl

/-! ## Names that can stand for directories -/

/-- Every database has a name that can stand for a directory. -/
def Storable (m : Memory) : Prop :=
  ∀ name ∈ Keyed.keys m, Name.isStorable (Name.sanitize name) = true

theorem Storable.of_keys_eq {m' : Memory} (h : Storable m) (hkeys : Keyed.keys m' = Keyed.keys m) :
    Storable m' := by
  unfold Storable
  rw [hkeys]
  exact h

theorem Storable.perm {m' : Memory} (hperm : m'.Perm m) (h : Storable m) : Storable m' :=
  fun name hname => h name ((hperm.map Prod.fst).mem_iff.mp hname)

/-- A name that cannot stand for a directory is refused. -/
theorem isStorable_of_createDatabase {directory : Path} {m' : Memory}
    (h : (createDatabase site name).run m = (.ok directory, m')) :
    Name.isStorable (Name.sanitize name) = true := by
  by_contra hnot
  rw [Bool.not_eq_true] at hnot
  unfold createDatabase at h
  rw [Attempt.run_bind_of_ok (Attempt.run_get _)] at h
  dsimp only at h
  rw [hnot] at h
  split at h <;> cases h

theorem storable_createDatabase (h : Storable m) (name : String) :
    Storable ((createDatabase site name).run m).2 := by
  rcases run_createDatabase site name m with ⟨e, hrun⟩ | hrun
  · rw [hrun]
    exact h
  · have hname := isStorable_of_createDatabase hrun
    rw [hrun]
    intro other hother
    rw [Keyed.keys, List.map_append] at hother
    rcases List.mem_append.mp hother with hold | hnew
    · exact h other hold
    · rw [List.mem_singleton.mp hnew]
      exact hname

theorem storable_dropDatabase (h : Storable m) (name : String) :
    Storable ((dropDatabase name).run m).2 := by
  unfold dropDatabase find
  rw [Attempt.run_bind, Attempt.run_bind_of_ok (Attempt.run_get _)]
  cases m.lookup name with
  | none => exact h
  | some tables => exact fun other hother => h other (Keyed.mem_keys_erase.mp hother).1

/-- Seeding makes no databases. -/
theorem keys_seedDemo (standard : String) :
    Keyed.keys ((seedDemo site standard).run m).2 = Keyed.keys m := by
  have hcommand (text : String) : Attempt.Keeps Keyed.keys (seedCommand site standard text) := by
    have hexecute : Attempt.Keeps Keyed.keys (Memory.execute site standard text none) := fun m =>
      keys_execute standard text none
    refine hexecute.bind fun r => ?_
    split
    · exact Attempt.keeps_throw _
    · exact Attempt.keeps_pure _
  have hcount : Attempt.Keeps Keyed.keys (on standard (Tables.find "users")) := fun m => keys_on _
  have hseed : Attempt.Keeps Keyed.keys (seedDemo site standard) := by
    refine (Attempt.keeps_forM hcommand _).bind fun _ => hcount.bind fun users => ?_
    split
    · exact Attempt.keeps_forM hcommand _
    · exact Attempt.keeps_pure _
  exact hseed m

theorem storable_reopen (h : Storable m) (standard : String) (seeds : Bool) :
    Storable ((reopen site standard seeds).run m).2 := by
  have hprovide : Storable ((provide site standard).run m).2 := by
    unfold provide
    rw [Attempt.run_bind_of_ok (Attempt.run_get _)]
    split
    · rw [Attempt.snd_run_andReturn]
      exact storable_createDatabase h standard
    · exact h
  unfold reopen
  rw [Attempt.run_bind]
  rcases hrun : (provide site standard).run m with ⟨e | _, m'⟩
  · rw [hrun] at hprovide
    exact hprovide
  · rw [hrun] at hprovide
    dsimp only
    split
    · exact hprovide.of_keys_eq (keys_seedDemo standard)
    · exact hprovide

/-- A first start makes the database that serves. -/
theorem keys_start {standard : String} (h : ((start site standard false).run m).1 = .ok ()) :
    standard ∈ Keyed.keys ((start site standard false).run m).2 := by
  unfold start at h ⊢
  rcases run_createDatabase site standard m with ⟨e, hrun⟩ | hrun
  · rw [Attempt.run_bind_of_error hrun] at h
    cases h
  · rw [Attempt.run_bind_of_ok hrun]
    show standard ∈ Keyed.keys (m ++ [(standard, [])])
    rw [Keyed.keys, List.map_append]
    exact List.mem_append_right _ List.mem_cons_self

end Memory
end Tabulary
