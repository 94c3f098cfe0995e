import Tabulary.Proofs.Files
import Tabulary.Proofs.Table.Change
import Tabulary.Store.Basic

/-!
A store in use, and what each of its operations does to it.  The file, the index and the window of
the open handle fit together before an operation and after it, whether it succeeds or fails, and
its result is what the list of rows says.
-/

namespace Tabulary
namespace Store

open Record

/-- The store of a schema at a path has its file open, and what it has read ahead is what the file
holds. -/
structure Attached (s : Schema) (path : Path) (st : Store) (h : Handle) (fs : Files) : Prop where
  schema : st.schema = s
  place : st.path = path
  dropped : st.dropped = false
  handle : st.handle = some h
  opened : fs.openFile path = .ok h.node
  current : h.Agrees (fs.nodeBytes h.node)

/-- The table of the store holds the records of its file. -/
structure Opened (s : Schema) (path : Path) (st : Store) (h : Handle) (fs : Files)
    (records : List Stored) : Prop extends Attached s path st h fs where
  holds : st.table.Holds records (fs.nodeBytes h.node)

/-- The files with the bytes of one file rewritten, or as they were. -/
inductive Rewrites (fs : Files) (path : Path) : Files → Prop
  | same : Rewrites fs path fs
  | written {node : Nat} (bytes : Bytes) (opened : fs.openFile path = .ok node) :
      Rewrites fs path (fs.setNode node bytes)

/-- How an operation from some files and records ends: with a failure that leaves them, or with a
result and rows, in either case those that were foretold.  Nothing but the table's own file is
written. -/
inductive Ends {α : Type} (s : Schema) (path : Path) (fs : Files) (records : List Stored) :
    Except Fault α × Store × World → Except Fault (α × Rows) → Prop
  | error {e : Fault} {st : Store} {h : Handle} {w : World}
      (opened : Opened s path st h w.files records) (unchanged : w.files = fs) :
      Ends s path fs records (.error e, st, w) (.error e)
  | ok {a : α} {st : Store} {h : Handle} {w : World} {records' : List Stored}
      (opened : Opened s path st h w.files records') (rewrites : Rewrites fs path w.files) :
      Ends s path fs records (.ok a, st, w) (.ok (a, liveRows records'))

variable {s : Schema} {path : Path} {fs : Files} {st : Store} {h h' : Handle} {w : World}
  {records xs ys : List Stored} {x : Stored} {r : Row}

theorem Ends.result_eq {α : Type} {ending : Except Fault α × Store × World}
    {expected : Except Fault (α × Rows)} (h : Ends s path fs records ending expected) :
    ending.1 = expected.map Prod.fst := by
  cases h with
  | error opened unchanged => rfl
  | ok opened rewrites => rfl

/-- Giving another result changes how nothing ends. -/
theorem Ends.andReturn {α β : Type} {y : Work Store α} {expected : Except Fault (α × Rows)}
    (hy : Ends s path fs records (y.run (st, w)) expected) (f : α → β) :
    Ends s path fs records ((do return f (← y)).run (st, w))
      (expected.map fun result => (f result.1, result.2)) := by
  rw [Attempt.run_bind]
  generalize y.run (st, w) = result at hy ⊢
  cases hy with
  | error opened unchanged => exact Ends.error opened unchanged
  | ok opened rewrites => exact Ends.ok opened rewrites

/-! ## Reading and writing the open file -/

theorem Attached.setHandle (ha : Attached s path st h w.files) (hnode : h'.node = h.node)
    (hc : h'.Agrees (w.files.nodeBytes h.node)) :
    Attached s path { st with handle := some h' } h' w.files where
  schema := ha.schema
  place := ha.place
  dropped := ha.dropped
  handle := rfl
  opened := hnode.symm ▸ ha.opened
  current := hnode.symm ▸ hc

theorem Opened.setHandle (ho : Opened s path st h w.files records) (hnode : h'.node = h.node)
    (hc : h'.Agrees (w.files.nodeBytes h.node)) :
    Opened s path { st with handle := some h' } h' w.files records where
  toAttached := ho.toAttached.setHandle hnode hc
  holds := hnode.symm ▸ ho.holds

theorem Attached.run_ensureOpen (ha : Attached s path st h w.files) :
    ensureOpen.run (st, w) = (.ok h, (st, w)) := by
  simp only [ensureOpen, Attempt.run_bind, Work.run_state, ha.dropped, ha.handle,
    Bool.false_eq_true, if_false]
  rfl

theorem node_advance (h : Handle) (file : Bytes) (position stop : Nat) :
    (h.advance file position stop).node = h.node := by
  unfold Handle.advance
  split
  · split <;> rfl
  · rfl

theorem run_fileBytes :
    (fileBytes h).run (st, w) = (.ok (w.files.nodeBytes h.node), (st, w)) :=
  rfl

theorem run_setHandle :
    (setHandle h).run (st, w) = (.ok (), ({ st with handle := some h }, w)) :=
  rfl

/-- A store takes over the table of a change when the patches are written. -/
theorem Opened.commit (ho : Opened s path st h w.files records) {c : Change}
    {records' : List Stored} (hschema : c.table.schema = s)
    (hc : c.table.Holds records' (Patch.applyAll c.patches (w.files.nodeBytes h.node))) :
    Opened s path { st with handle := some h.discard, table := c.table } h.discard
      (w.files.setNode h.node (Patch.applyAll c.patches (w.files.nodeBytes h.node))) records' where
  schema := hschema
  place := ho.place
  dropped := ho.dropped
  handle := rfl
  opened := by
    rw [Files.openFile_setNode]
    exact ho.opened
  current := Handle.agrees_discard h _
  holds := by
    show c.table.Holds records' (Files.nodeBytes _ h.node)
    rw [Files.nodeBytes_setNode]
    exact hc

theorem Opened.run_readLive (ho : Opened s path st h w.files records) (id : Value) :
    (∃ xs x ys h', records = xs ++ x :: ys ∧ x.row.deleted = false ∧
      x.row.id.looseEq id = true ∧ (liveRows records).get id = .ok x.row ∧
      (readLive h id).run (st, w) = (.ok x.row, ({ st with handle := some h' }, w)) ∧
      Opened s path { st with handle := some h' } h' w.files records) ∨
    (liveRows records).get id = .error (.raised (.noRecord id)) ∧
      (readLive h id).run (st, w) = (.error (.raised (.noRecord id)), (st, w)) := by
  unfold readLive Rows.get
  simp only [Attempt.run_bind, Work.run_state, index]
  rcases ho.holds.find_cases id with ⟨xs, x, ys, hsplit, hx, hid, hfind, hoffset⟩ |
    ⟨hfind, hoffset⟩
  · have hlaid := ho.holds.laid
    rw [hsplit] at hlaid
    obtain ⟨c, hrun⟩ := hlaid.run_record
    refine Or.inl ⟨xs, x, ys, h.advance (w.files.nodeBytes h.node) x.offset
      c.position, hsplit, hx, hid, ?_, ?_, ?_⟩
    · rw [hfind]
    · rw [hoffset]
      simp only [run_fileBytes, Attempt.run_bind, Handle.view_eq_drop ho.current,
        show st.schema = st.table.schema from rfl, hrun, run_setHandle, Stored.isLive, hx]
      rfl
    · exact ho.setHandle (node_advance h _ _ _) (Handle.agrees_advance ho.current _ _)
  · refine Or.inr ⟨?_, ?_⟩
    · rw [hfind]
    · rw [hoffset]
      rfl

end Store
end Tabulary
