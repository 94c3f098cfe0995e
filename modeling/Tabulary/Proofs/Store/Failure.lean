import Tabulary.Proofs.Attempt
import Tabulary.Proofs.Record.Layout
import Tabulary.Proofs.Store.Operation

/-!
What a failure leaves behind.  Every operation of a store first reads and checks, which keeps the
table and the files, and only then writes, which does not fail.  So a store that refuses, for
whatever reason and whatever its file holds, has changed nothing (`unchanged_of_error`).
-/

namespace Tabulary
namespace Store

open Attempt Record

/-- The table with its index, where it is kept, and all files. -/
def held (y : Store × World) : Table × Path × Bool × Files :=
  (y.1.table, y.1.path, y.1.dropped, y.2.files)

/-! ## Reading and checking -/

section keeps

variable {α : Type} {h : Handle}

theorem keeps_state : Keeps held (Work.state : Work Store Store) := fun _ => rfl

theorem keeps_query (f : Files → Except Fault α) : Keeps held (Work.query f : Work Store α) :=
  fun _ => rfl

theorem keeps_count (c : Counter) : Keeps held (Work.count c : Work Store Unit) := fun _ => rfl

theorem keeps_fileBytes (h : Handle) : Keeps held (fileBytes h) := fun _ => rfl

theorem keeps_setHandle (h : Handle) : Keeps held (setHandle h) := fun _ => rfl

theorem keeps_ensureOpen : Keeps held ensureOpen := by
  refine keeps_state.bind fun s => ?_
  dsimp only
  split
  · exact fun _ => rfl
  · split
    · exact keeps_pure _
    · exact keeps_throw _

theorem keeps_readLive (h : Handle) (id : Value) : Keeps held (readLive h id) := by
  refine keeps_state.bind fun s => ?_
  split
  · exact keeps_throw _
  · refine (keeps_fileBytes h).bind fun file => ?_
    split
    rename_i result stop _
    split
    · exact (keeps_setHandle _).bind fun _ => keeps_throw _
    · refine (keeps_setHandle _).bind fun _ => ?_
      split
      · exact keeps_pure _
      · exact keeps_throw _
    · exact (keeps_setHandle _).bind fun _ => keeps_throw _

theorem keeps_select (id : Value) : Keeps held (select id) := by
  refine keeps_ensureOpen.bind fun _ => keeps_state.bind fun s => (keeps_count _).bind fun _ => ?_
  split
  · exact keeps_pure _
  · refine (keeps_query _).bind fun file => ?_
    split
    · exact keeps_pure _
    · exact keeps_pure _
    · exact keeps_throw _

theorem keeps_selectAll : Keeps held selectAll := by
  refine keeps_ensureOpen.bind fun _ => keeps_state.bind fun s => (keeps_count _).bind fun _ => ?_
  refine (keeps_query _).bind fun file => ?_
  dsimp only
  split
  · exact keeps_throw _
  · exact keeps_pure _

end keeps

/-! ## Writing -/

theorem succeeds_log (level : Level) (name : String) (fields : List (String × Json)) :
    Succeeds (log level name fields) := fun _ => ⟨_, _, rfl⟩

theorem succeeds_commit (h : Handle) (c : Change) :
    Succeeds (commit h c) := fun _ => ⟨_, _, rfl⟩

theorem succeeds_setHandle (h : Handle) : Succeeds (setHandle h) := fun _ => ⟨_, _, rfl⟩

theorem succeeds_pathText (p : Path) : Succeeds (Work.pathText p : Work Store String) :=
  fun _ => ⟨_, _, rfl⟩

theorem succeeds_countWrite : Succeeds countWrite := fun _ => ⟨_, _, rfl⟩

theorem spares_insert (r : Row) : Spares held (insert r) := by
  refine keeps_state.bind_spares fun s => (keeps_ofExcept _).bind_spares fun _ => ?_
  refine keeps_ensureOpen.bind_spares fun h => keeps_state.bind_spares fun s => ?_
  refine (keeps_ofExcept _).spares.bind fun c => ?_
  exact (succeeds_commit h c).bind fun _ => succeeds_countWrite.bind fun _ => succeeds_log _ _ _

theorem spares_delete (id : Value) : Spares held (delete id) := by
  refine keeps_ensureOpen.bind_spares fun h => (keeps_readLive h id).bind_spares fun existing => ?_
  refine keeps_ensureOpen.bind_spares fun h => keeps_state.bind_spares fun s => ?_
  refine (keeps_ofExcept _).spares.bind fun c => ?_
  exact (succeeds_commit h c).bind fun _ => succeeds_log _ _ _

theorem spares_replace (existing r : Row) : Spares held (replace existing r) := by
  refine keeps_ensureOpen.bind_spares fun h => keeps_state.bind_spares fun s => ?_
  refine (keeps_ofExcept _).spares.bind fun c => ?_
  exact (succeeds_commit h c).bind fun _ => succeeds_countWrite.bind fun _ => succeeds_log _ _ _

theorem spares_update (r : Row) : Spares held (update r) := by
  refine keeps_state.bind_spares fun s => (keeps_ofExcept _).bind_spares fun _ => ?_
  refine keeps_ensureOpen.bind_spares fun h => ?_
  exact (keeps_readLive h r.id).bind_spares fun existing => spares_replace existing r

theorem spares_updateValues (id : Value) (changes : List (String × Value)) :
    Spares held (updateValues id changes) := by
  refine keeps_ensureOpen.bind_spares fun h => (keeps_readLive h id).bind_spares fun existing => ?_
  refine keeps_state.bind_spares fun s => (keeps_ofExcept _).bind_spares fun r => ?_
  exact (spares_replace existing r).bind fun _ => succeeds_pure r

/-- A reading of the whole file writes and enters only after the last record. -/
theorem spares_rebuild : Spares held rebuild := by
  refine keeps_ensureOpen.bind_spares fun h => keeps_state.bind_spares fun s => ?_
  refine (keeps_fileBytes h).bind_spares fun file => ?_
  dsimp only
  split
  · exact ((keeps_setHandle _).bind fun _ => keeps_throw _).spares
  · refine Succeeds.spares ?_
    refine (succeeds_setHandle _).bind fun _ => (succeeds_pathText _).bind fun path => ?_
    split
    · exact fun _ => ⟨_, _, rfl⟩
    · exact fun _ => ⟨_, _, rfl⟩

/-- Opening a file that is there changes no file unless it succeeds. -/
theorem files_of_openFile_error {σ : Type} {s : Schema} {path : Path} {y y' : σ} {w w' : World}
    {bytes : Bytes} {e : Fault} (hread : w.files.read path = .ok bytes)
    (hrun : (openFile s path : Work σ Store).run (y, w) = (.error e, (y', w'))) :
    w'.files = w.files := by
  obtain ⟨node, hopen⟩ : ∃ node, w.files.openFile path = .ok node := by
    unfold Files.read at hread
    cases hnode : w.files.openFile path with
    | ok node => exact ⟨node, rfl⟩
    | error why =>
      rw [hnode] at hread
      cases hread
  unfold openFile at hrun
  simp only [Attempt.run_bind _ _ (_, _), Work.run_ensureDirectory, Work.run_query, Work.run_beside,
    Files.ensureDirectory_of_openFile hopen, Files.isThere_of_openFile hopen, hopen,
    Work.run_addOpenTables, Bool.not_true, Bool.false_eq_true, if_false] at hrun
  generalize hrebuild : rebuild.run _ = ending at hrun
  obtain ⟨result, st, w₁⟩ := ending
  cases result with
  | ok => cases hrun
  | error e' =>
    cases hrun
    have hheld := spares_rebuild _ _ _ hrebuild
    exact congrArg (·.2.2.2) hheld

end Store

namespace Operation

open Store Attempt

theorem spares_run {op : Operation} (h : op ≠ .reopen) : Spares held op.run := by
  cases op with
  | insert r => exact (spares_insert r).bind fun _ => succeeds_pure _
  | update r => exact (spares_update r).bind fun _ => succeeds_pure _
  | updateValues id changes => exact (spares_updateValues id changes).bind fun _ => succeeds_pure _
  | delete id => exact (spares_delete id).bind fun _ => succeeds_pure _
  | select id => exact (keeps_select id).spares.bind fun _ => succeeds_pure _
  | selectAll => exact keeps_selectAll.spares.bind fun _ => succeeds_pure _
  | rowCount => exact keeps_state.spares.bind fun _ => succeeds_pure _
  | rebuild => exact spares_rebuild.bind fun _ => succeeds_pure _
  | reopen => exact absurd rfl h

end Operation

namespace Operation

open Store

/-- An operation that fails, on any store in any world, has left the files and the table with its
index as they were, and an opening of an existing file that fails has left the files as they
were. -/
theorem unchanged_of_error :
    (∀ (op : Operation) (st st' : Store) (w w' : World) (e : Fault), op ≠ .reopen →
      op.run.run (st, w) = (.error e, (st', w')) →
      w'.files = w.files ∧ st'.table = st.table ∧ st'.path = st.path ∧
      st'.dropped = st.dropped) ∧
    ∀ (s : Schema) (path : Path) (w w' : World) (bytes : Bytes) (e : Fault),
      w.files.read path = .ok bytes →
      (openFile s path : Work Unit Store).run ((), w) = (.error e, ((), w')) →
      w'.files = w.files := by
  constructor
  · intro op st st' w w' e hop hrun
    have hheld := spares_run hop _ _ _ hrun
    simp only [held, Prod.mk.injEq] at hheld
    obtain ⟨htable, hpath, hdropped, hfiles⟩ := hheld
    exact ⟨hfiles, htable, hpath, hdropped⟩
  · intro s path w w' bytes e hread hrun
    exact files_of_openFile_error hread hrun

end Operation

namespace Sample

open Store

/-- A table whose file holds a byte that is the flag of no record, and a store that has it open. -/
def damaged : World := { world with files := ⟨"/srv/", [(table, .file 0)], [(0, [7])], 1⟩ }

def attached : Store := ⟨Table.empty people, table, some ⟨0, none⟩, false⟩

theorem scan_damaged : Record.scan people none ⟨0, [7]⟩ =
    ⟨[], some (.unknownFlag 7 0), ⟨1, []⟩⟩ :=
  Record.scan_of_error (by simp) rfl

theorem rebuild_damaged :
    ∃ st, Operation.rebuild.run.run (attached, damaged) =
      (.error (.record (.unknownFlag 7 0)), (st, damaged)) := by
  have hopen : ensureOpen.run (attached, damaged) = (.ok ⟨0, none⟩, (attached, damaged)) := rfl
  obtain ⟨h, hrun⟩ := run_rebuild_of_corruption hopen scan_damaged rfl
  exact ⟨_, Attempt.run_bind_of_error hrun⟩

end Sample

namespace Operation

open Store

/-- Rebuilding the index of a damaged file fails, and so does opening it. -/
theorem unchanged_of_error_damaged :
    (∃ st w', rebuild.run.run (Sample.attached, Sample.damaged) =
        (.error (.record (.unknownFlag 7 0)), (st, w')) ∧
      w'.files = Sample.damaged.files ∧ st.table = Sample.attached.table ∧
      st.path = Sample.attached.path ∧ st.dropped = Sample.attached.dropped) ∧
    ∃ w', (openFile Sample.people Sample.table : Work Unit Store).run ((), Sample.damaged) =
        (.error (.record (.unknownFlag 7 0)), ((), w')) ∧
      w'.files = Sample.damaged.files := by
  obtain ⟨st, hrun⟩ := Sample.rebuild_damaged
  have hfile : Sample.damaged.files.openFile Sample.table = .ok 0 := rfl
  obtain ⟨w', hopen⟩ := run_openFile_of_corruption () hfile Sample.scan_damaged rfl
  exact ⟨⟨st, Sample.damaged, hrun, unchanged_of_error.1 _ _ _ _ _ _ (by decide) hrun⟩,
    w', hopen, unchanged_of_error.2 _ _ _ _ [7] _ rfl hopen⟩

end Operation
end Tabulary
