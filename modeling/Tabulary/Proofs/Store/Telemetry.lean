import Tabulary.Proofs.Attempt
import Tabulary.Proofs.Store.Operation

/-!
Counts, events and spans are written and never read.  Two runs of the same operations on one store
in worlds with the same files give the same results, and end with the same store and the same files
(`runAll_alike`).
-/

namespace Tabulary
namespace Store

open Attempt

/-- The same store among the same files; what was recorded before may differ. -/
def Alike {σ : Type} (y z : σ × World) : Prop := y.1 = z.1 ∧ y.2.files = z.2.files

/-- Work that does not depend on what was recorded before it. -/
abbrev Blind {σ α : Type} (x : Work σ α) : Prop := Simulates Alike x x

section primitives

variable {σ α : Type}

theorem blind_state : Blind (Work.state : Work σ σ) := by
  rintro ⟨s, w⟩ ⟨t, v⟩ ⟨hs, hf⟩
  exact ⟨congrArg Except.ok hs, hs, hf⟩

theorem blind_setState (s : σ) : Blind (Work.setState s) := fun _ _ h => ⟨rfl, rfl, h.2⟩

theorem blind_count (c : Counter) : Blind (Work.count c : Work σ Unit) := fun _ _ h => ⟨rfl, h⟩

theorem blind_addOpenTables (n : Int) : Blind (Work.addOpenTables n : Work σ Unit) :=
  fun _ _ h => ⟨rfl, h⟩

theorem blind_workLog (level : Level) (name : String) (fields : List (String × Json)) :
    Blind (Work.log level name fields : Work σ Unit) := fun _ _ h => ⟨rfl, h⟩

theorem blind_query (f : Files → Except Fault α) : Blind (Work.query f : Work σ α) := by
  rintro ⟨s, w⟩ ⟨t, v⟩ ⟨hs, hf⟩
  exact ⟨congrArg f hf, hs, hf⟩

theorem blind_setFiles (fs : Files) : Blind (Work.setFiles fs : Work σ Unit) :=
  fun _ _ h => ⟨rfl, h.1, rfl⟩

theorem blind_change (f : Files → Except Fault Files) : Blind (Work.change f : Work σ Unit) :=
  (blind_query f).bind blind_setFiles

theorem blind_pathText (p : Path) : Blind (Work.pathText p : Work σ String) := by
  rintro ⟨s, w⟩ ⟨t, v⟩ ⟨hs, hf⟩
  exact ⟨congrArg (fun fs : Files => Except.ok (p.text fs.anchor)) hf, hs, hf⟩

theorem blind_ensureDirectory (p : Path) : Blind (Work.ensureDirectory p : Work σ Unit) := by
  rintro ⟨s, w⟩ ⟨t, v⟩ ⟨hs, hf⟩
  exact ⟨congrArg (fun fs : Files => (fs.ensureDirectory p).1) hf, hs,
    congrArg (fun fs : Files => (fs.ensureDirectory p).2) hf⟩

theorem blind_beside {τ : Type} (t : τ) {x : Work τ α} (hx : Blind x) :
    Blind (Work.beside t x : Work σ (Except Fault α × τ)) := by
  rintro ⟨s, w⟩ ⟨s', v⟩ ⟨hs, hf⟩
  obtain ⟨hresult, hstate, hfiles⟩ := hx (t, w) (t, v) ⟨rfl, hf⟩
  unfold Attempt.Agree
  rw [Work.run_beside, Work.run_beside]
  exact ⟨congrArg Except.ok (Prod.ext hresult hstate), hs, hfiles⟩

end primitives

/-! ## Operations of a store -/

theorem blind_log (level : Level) (name : String) (fields : List (String × Json)) :
    Blind (log level name fields) := blind_state.bind fun _ => blind_workLog level name _

theorem blind_setHandle (h : Handle) : Blind (setHandle h) :=
  blind_state.bind fun _ => blind_setState _

theorem blind_fileBytes (h : Handle) : Blind (fileBytes h) := by
  rintro ⟨s, w⟩ ⟨t, v⟩ ⟨hs, hf⟩
  exact ⟨congrArg (fun fs : Files => Except.ok (fs.nodeBytes h.node)) hf, hs, hf⟩

theorem blind_writeFile (h : Handle) (bytes : Bytes) : Blind (writeFile h bytes) := by
  refine Simulates.bind ?_ fun _ => blind_setHandle _
  rintro ⟨s, w⟩ ⟨t, v⟩ ⟨hs, hf⟩
  exact ⟨rfl, hs, congrArg (fun fs : Files => fs.setNode h.node bytes) hf⟩

theorem blind_ensureOpen : Blind ensureOpen := by
  refine blind_state.bind fun s => ?_
  dsimp only
  split
  · exact fun _ _ h => ⟨rfl, h⟩
  · split
    · exact simulates_pure _
    · exact simulates_throw _

theorem blind_rebuild : Blind rebuild := by
  refine blind_ensureOpen.bind fun h => blind_state.bind fun s => ?_
  refine (blind_fileBytes h).bind fun file => ?_
  dsimp only
  split
  · exact (blind_setHandle _).bind fun _ => simulates_throw _
  · refine (blind_setHandle _).bind fun _ => (blind_pathText _).bind fun path => ?_
    have hfinish : ∀ (t : Store → Store) (fields : List (String × Json)),
        Blind (do Work.setState (t (← Work.state)); log .info "index_rebuilt" fields) :=
      fun t fields => (blind_state.bind fun s => blind_setState (t s)).bind fun _ =>
        blind_log _ _ _
    split
    · exact (blind_log _ _ _).bind fun _ => (blind_writeFile _ _).bind fun _ => hfinish _ _
    · exact hfinish _ _

theorem blind_openFile {σ : Type} (s : Schema) (path : Path) :
    Blind (openFile s path : Work σ Store) := by
  refine (blind_ensureDirectory _).bind fun _ => (blind_query _).bind fun there => ?_
  refine simulates_when (blind_change _) ?_
  refine (blind_query _).bind fun node => (blind_addOpenTables 1).bind fun _ => ?_
  refine (blind_beside _ blind_rebuild).bind fun ending => ?_
  obtain ⟨result, st⟩ := ending
  cases result with
  | ok => exact simulates_pure st
  | error e => exact (blind_addOpenTables (-1)).bind fun _ => simulates_throw e

theorem blind_readLive (h : Handle) (id : Value) : Blind (readLive h id) := by
  refine blind_state.bind fun s => ?_
  split
  · exact simulates_throw _
  · refine (blind_fileBytes h).bind fun file => ?_
    split
    split
    · exact (blind_setHandle _).bind fun _ => simulates_throw _
    · refine (blind_setHandle _).bind fun _ => ?_
      split
      · exact simulates_pure _
      · exact simulates_throw _
    · exact (blind_setHandle _).bind fun _ => simulates_throw _

theorem blind_commit (h : Handle) (c : Change) : Blind (commit h c) :=
  (blind_fileBytes h).bind fun _ => (blind_writeFile h _).bind fun _ =>
    blind_state.bind fun _ => blind_setState _

theorem blind_countWrite : Blind countWrite := blind_state.bind fun _ => blind_count _

theorem blind_insert (r : Row) : Blind (insert r) := by
  refine blind_state.bind fun s => (simulates_ofExcept _).bind fun _ => ?_
  refine blind_ensureOpen.bind fun h => blind_state.bind fun s => ?_
  refine (simulates_ofExcept _).bind fun c => (blind_commit h c).bind fun _ => ?_
  exact blind_countWrite.bind fun _ => blind_log _ _ _

theorem blind_select (id : Value) : Blind (select id) := by
  refine blind_ensureOpen.bind fun _ => blind_state.bind fun s => (blind_count _).bind fun _ => ?_
  split
  · exact simulates_pure _
  · refine (blind_query _).bind fun file => ?_
    split
    · exact simulates_pure _
    · exact simulates_pure _
    · exact simulates_throw _

theorem blind_selectAll : Blind selectAll := by
  refine blind_ensureOpen.bind fun _ => blind_state.bind fun s => (blind_count _).bind fun _ => ?_
  refine (blind_query _).bind fun file => ?_
  dsimp only
  split
  · exact simulates_throw _
  · exact simulates_pure _

theorem blind_delete (id : Value) : Blind (delete id) := by
  refine blind_ensureOpen.bind fun h => (blind_readLive h id).bind fun existing => ?_
  refine blind_ensureOpen.bind fun h => blind_state.bind fun s => ?_
  exact (simulates_ofExcept _).bind fun c => (blind_commit h c).bind fun _ => blind_log _ _ _

theorem blind_replace (existing r : Row) : Blind (replace existing r) := by
  refine blind_ensureOpen.bind fun h => blind_state.bind fun s => ?_
  refine (simulates_ofExcept _).bind fun c => (blind_commit h c).bind fun _ => ?_
  exact blind_countWrite.bind fun _ => blind_log _ _ _

theorem blind_update (r : Row) : Blind (update r) := by
  refine blind_state.bind fun s => (simulates_ofExcept _).bind fun _ => ?_
  exact blind_ensureOpen.bind fun h => (blind_readLive h r.id).bind fun existing =>
    blind_replace existing r

theorem blind_updateValues (id : Value) (changes : List (String × Value)) :
    Blind (updateValues id changes) := by
  refine blind_ensureOpen.bind fun h => (blind_readLive h id).bind fun existing => ?_
  refine blind_state.bind fun s => (simulates_ofExcept _).bind fun r => ?_
  exact (blind_replace existing r).bind fun _ => simulates_pure r

theorem blind_close : Blind close := by
  refine blind_state.bind fun s => ?_
  split
  · exact simulates_pure _
  · exact (simulates_pure _).bind fun _ => (blind_setState _).bind fun _ =>
      blind_addOpenTables (-1)

theorem blind_reopen : Blind reopen :=
  blind_state.bind fun _ => blind_close.bind fun _ => (blind_openFile _ _).bind fun t =>
    blind_setState t

end Store

namespace Operation

open Store Attempt

theorem blind_run (op : Operation) : Blind op.run := by
  cases op with
  | insert r => exact (blind_insert r).bind fun _ => simulates_pure _
  | update r => exact (blind_update r).bind fun _ => simulates_pure _
  | updateValues id changes => exact (blind_updateValues id changes).bind fun _ => simulates_pure _
  | delete id => exact (blind_delete id).bind fun _ => simulates_pure _
  | select id => exact (blind_select id).bind fun _ => simulates_pure _
  | selectAll => exact blind_selectAll.bind fun _ => simulates_pure _
  | rowCount => exact blind_state.bind fun _ => simulates_pure _
  | rebuild => exact blind_rebuild.bind fun _ => simulates_pure _
  | reopen => exact blind_reopen.bind fun _ => simulates_pure _

theorem runAll_alike (ops : List Operation) : Blind (runAll ops) :=
  simulates_mapM fun op _ => (blind_run op).outcome

end Operation
end Tabulary
