import Tabulary.Proofs.Store.Opening

/-!
A store after its life.  Every operation on the rows asks first whether the store is in use, the two
that are given a whole row after a look at the row, and a store that is closed or dropped answers
each of them with its failure and stays, with its world, exactly what it was.

Main statement: whatever is called after a successful drop, nothing succeeds and the file does not
come back; whatever is called after closing, nothing is changed, and the store can still be dropped
(`drop_final_close_inert`).
-/

namespace Tabulary

open Attempt

namespace Files

variable {fs fs' : Files} {p : Path}

/-- A removed file is not there any more. -/
theorem isThere_of_remove (h : fs.remove p = .ok fs') : fs'.isThere p = .ok false := by
  obtain ⟨hnul, h⟩ := guarded_eq_ok.mp h
  obtain ⟨⟨place, entry⟩, hfind, h⟩ := of_bind_ok h
  cases entry with
  | directory => cases h
  | file node =>
    cases h
    obtain ⟨hwalk, hentry⟩ := find_eq_ok.mp hfind
    have hroot : place ≠ [] := by
      rintro rfl
      cases hentry
    have hgone : entry? { fs with entries := Keyed.erase place fs.entries } place = none := by
      unfold entry?
      rw [if_neg hroot, Keyed.lookup_erase, beq_self_eq_true, if_pos rfl]
    -- the way to the file leads over directories, which stay
    have hway : walk { fs with entries := Keyed.erase place fs.entries } [] p = .ok place := by
      refine walk_of_directories (fun q hq => ?_) hwalk
      have hne : (q == place) = false := by
        rw [beq_eq_false_iff_ne]
        rintro rfl
        rw [hentry] at hq
        cases hq
      unfold entry? at hq ⊢
      split
      · rfl
      · rename_i hq'
        rw [if_neg hq'] at hq
        rw [Keyed.lookup_erase, hne, if_neg Bool.false_ne_true, hq]
    rw [isThere, hnul, if_neg Bool.false_ne_true, find, hway]
    simp only [bind, Except.bind, hgone]
    rfl

theorem isThere_of_removeIfThere (h : fs.removeIfThere p = .ok fs') :
    fs'.isThere p = .ok false := by
  unfold removeIfThere at h
  split at h
  · rename_i hmissing
    cases h
    unfold remove guarded at hmissing
    split at hmissing
    · cases hmissing
    · rename_i hnul
      rw [isThere, if_neg hnul]
      cases hfind : fs.find p with
      | error why =>
        rw [hfind] at hmissing
        cases hmissing
        rfl
      | ok found =>
        obtain ⟨place, entry⟩ := found
        rw [hfind] at hmissing
        cases entry <;> cases hmissing
  · exact isThere_of_remove h

end Files

namespace Store

/-- What a store can be called for: to open it again makes another store. -/
inductive Call where
  | ask (op : Operation) (own : op ≠ .reopen)
  | close
  | drop
deriving DecidableEq

namespace Call

def run : Call → Work Store Answer
  | ask op _ => op.run
  | close => do Store.close; return .done
  | drop => do Store.drop; return .done

/-- Calls one after another, each with its result or its failure. -/
def runAll (calls : List Call) : Work Store (List (Except Fault Answer)) :=
  calls.mapM fun c => c.run.outcome

/-- The rule that the row of an insertion or an update breaks on its own. -/
def rowFault? (s : Schema) : Call → Option EngineError
  | ask (.insert r) _ | ask (.update r) _ => r.fault? s
  | _ => none

/-- How a call on a store fails that fails with `e` whenever it has to be in use. -/
def failure (s : Schema) (e : Fault) (c : Call) : Fault :=
  match c.rowFault? s with
  | some broken => .raised broken
  | none => e

/-- What the calls on such a store come to. -/
def unused (st : Store) (e : Fault) : Call → Except Fault Answer
  | ask .rowCount _ => .ok (.count st.rowCount)
  | close => .ok .done
  | c => .error (c.failure st.schema e)

end Call

variable {st st' : Store} {w w' : World} {e : Fault}

/-- Why a store is not in use. -/
def idle? (st : Store) : Option Fault :=
  if st.dropped then some (.engine (.tableDropped st.schema.name))
  else match st.handle with
    | some _ => none
    | none => some (.tableClosed st.schema.name)

theorem idle?_of_closed (hclosed : st.handle = none) : ∃ e, st.idle? = some e := by
  unfold idle?
  split
  · exact ⟨_, rfl⟩
  · rw [hclosed]
    exact ⟨_, rfl⟩

theorem run_ensureOpen_of_idle (h : st.idle? = some e) :
    ensureOpen.run (st, w) = (.error e, (st, w)) := by
  unfold idle? at h
  unfold ensureOpen
  rw [run_bind_of_ok (Work.run_state _)]
  dsimp only
  split at h
  · rename_i hdropped
    cases h
    rw [if_pos hdropped]
    rfl
  · rename_i hdropped
    rw [if_neg hdropped]
    cases hclosed : st.handle with
    | some _ =>
      rw [hclosed] at h
      cases h
    | none =>
      rw [hclosed] at h
      cases h
      rfl

/-- A row is looked at before the store is. -/
theorem run_checked_of_idle {α : Type} (h : st.idle? = some e) (r : Row)
    (f : Handle → Work Store α) : (do
      Attempt.ofExcept (Table.checkRow (← Work.state).schema r)
      let h ← ensureOpen
      f h : Work Store α).run (st, w) =
      (.error (match r.fault? st.schema with
        | some broken => .raised broken
        | none => e), (st, w)) := by
  rw [run_bind_of_ok (Work.run_state _), checkRow_eq]
  cases r.fault? st.schema with
  | some broken => rfl
  | none =>
    show (ensureOpen >>= f).run (st, w) = (.error e, (st, w))
    exact run_bind_of_error (run_ensureOpen_of_idle h)

/-- A store that is not in use answers without a change to itself or to the world. -/
theorem run_call_of_idle (h : st.idle? = some e) (hclosed : st.handle = none) {c : Call}
    (hdrop : c = .drop → st.dropped = true) : c.run.run (st, w) = (c.unused st e, (st, w)) := by
  have hopen := run_ensureOpen_of_idle (w := w) h
  cases c with
  | close =>
    unfold Call.run Store.close closeWith
    rw [bind_assoc, run_bind_of_ok (Work.run_state _)]
    dsimp only
    rw [hclosed]
    rfl
  | drop =>
    have hdropped := hdrop rfl
    obtain rfl : e = .engine (.tableDropped st.schema.name) := by
      unfold idle? at h
      rw [if_pos hdropped] at h
      exact (Option.some.inj h).symm
    unfold Call.run drop
    rw [bind_assoc, run_bind_of_ok (Work.run_state _)]
    dsimp only
    rw [if_pos hdropped]
    rfl
  | ask op own =>
    cases op with
    | insert r => exact run_bind_of_error (run_checked_of_idle h r _)
    | update r => exact run_bind_of_error (run_checked_of_idle h r _)
    | updateValues id changes => exact run_bind_of_error (run_bind_of_error hopen)
    | delete id => exact run_bind_of_error (run_bind_of_error hopen)
    | select id => exact run_bind_of_error (run_bind_of_error hopen)
    | selectAll => exact run_bind_of_error (run_bind_of_error hopen)
    | rowCount => rfl
    | rebuild => exact run_bind_of_error (run_bind_of_error hopen)
    | reopen => exact absurd rfl own

theorem run_calls_of_idle (h : st.idle? = some e) (hclosed : st.handle = none) {calls : List Call}
    (hdrop : .drop ∈ calls → st.dropped = true) :
    (Call.runAll calls).run (st, w) = (.ok (calls.map (·.unused st e)), (st, w)) := by
  induction calls with
  | nil => rfl
  | cons c calls ih =>
    have hc : c.run.outcome.run (st, w) = (.ok (c.unused st e), (st, w)) := by
      show (Except.ok (c.run.run (st, w)).1, (c.run.run (st, w)).2) = _
      rw [run_call_of_idle h hclosed fun heq => hdrop (heq ▸ List.mem_cons_self)]
    have hrest := ih fun hmem => hdrop (List.mem_cons_of_mem c hmem)
    unfold Call.runAll at hrest ⊢
    rw [List.mapM_cons, run_bind_of_ok hc, run_bind_of_ok hrest]
    rfl

/-- Closing succeeds, on whatever store, and changes no file. -/
theorem run_close (st : Store) (w : World) :
    ∃ w', close.run (st, w) = (.ok (), ({ st with handle := none }, w')) ∧
    w'.files = w.files := by
  obtain ⟨table, path, handle, dropped⟩ := st
  unfold close closeWith
  rw [run_bind_of_ok (Work.run_state _)]
  cases handle with
  | none => exact ⟨_, rfl, rfl⟩
  | some h => exact ⟨_, rfl, rfl⟩

/-- A drop is a removal of the file, after which the store is closed and has no rows. -/
theorem run_drop_eq (hdropped : st.dropped = false) {fs : Files}
    (hgone : w.files.removeIfThere st.path = .ok fs) :
    ∃ w', drop.run (st, w) = (.ok (), (⟨Table.empty st.schema, st.path, none, true⟩, w')) ∧
      w'.files = fs := by
  obtain ⟨w₁, hclose, hfiles⟩ := run_close st w
  have hchange : (Work.change fun fs => fs.removeIfThere st.path : Work Store Unit).run
      ({ st with handle := none }, w₁) =
      (.ok (), ({ st with handle := none }, { w₁ with files := fs })) := by
    rw [Work.run_change]
    dsimp only
    rw [hfiles, hgone]
  unfold drop
  rw [run_bind_of_ok (Work.run_state _)]
  dsimp only
  rw [if_neg (by simp [hdropped]), run_bind_of_ok hclose, run_bind_of_ok hchange]
  exact ⟨_, rfl, rfl⟩

/-- Every success of a drop is of that form. -/
theorem of_run_drop (h : drop.run (st, w) = (.ok (), (st', w'))) :
    st' = ⟨Table.empty st.schema, st.path, none, true⟩ ∧
    w'.files.isThere st.path = .ok false := by
  cases hdropped : st.dropped with
  | true =>
    unfold drop at h
    rw [run_bind_of_ok (Work.run_state _)] at h
    dsimp only at h
    rw [if_pos hdropped] at h
    cases h
  | false =>
    cases hgone : w.files.removeIfThere st.path with
    | ok fs =>
      obtain ⟨w₁, hrun, hfiles⟩ := run_drop_eq hdropped hgone
      rw [h] at hrun
      cases hrun
      exact ⟨rfl, Files.isThere_of_removeIfThere (hfiles ▸ hgone)⟩
    | error why =>
      obtain ⟨w₁, hclose, hfiles⟩ := run_close st w
      unfold drop at h
      rw [run_bind_of_ok (Work.run_state _)] at h
      dsimp only at h
      rw [if_neg (by simp [hdropped]), run_bind_of_ok hclose, run_bind, Work.run_change] at h
      dsimp only at h
      rw [hfiles, hgone] at h
      cases h

/-- After a drop that has succeeded the file is not there, and no calls at all change that: none but
the count of the rows, which is zero, and closing succeeds, each other fails because the table is
dropped, unless the row that comes with it is refused first, and the index stays empty.  After
closing, calls other than a drop leave the store with its index and the whole world as they are and
fail alike, and then the file, if it is still there, can be dropped. -/
theorem drop_final_close_inert :
    (∀ (st st' : Store) (w w' : World), drop.run (st, w) = (.ok (), (st', w')) →
      w'.files.isThere st.path = .ok false ∧ st'.rowCount = 0 ∧
      st'.index = Index.empty st.schema ∧
      ∀ calls : List Call, (Call.runAll calls).run (st', w') =
        (.ok (calls.map (·.unused st' (.engine (.tableDropped st.schema.name)))), (st', w'))) ∧
    ∀ (st : Store) (w : World), st.dropped = false →
      ∃ w', close.run (st, w) = (.ok (), ({ st with handle := none }, w')) ∧
        w'.files = w.files ∧
        ∀ calls : List Call, .drop ∉ calls →
          (Call.runAll calls).run ({ st with handle := none }, w') =
            (.ok (calls.map (·.unused st (.tableClosed st.schema.name))),
              ({ st with handle := none }, w')) ∧
          ∀ node, w.files.openFile st.path = .ok node →
            ∃ st'' w'', drop.run ({ st with handle := none }, w') = (.ok (), (st'', w'')) ∧
              w''.files.isThere st.path = .ok false := by
  constructor
  · intro st st' w w' h
    obtain ⟨rfl, hgone⟩ := of_run_drop h
    exact ⟨hgone, rfl, rfl, fun calls => run_calls_of_idle rfl rfl fun _ => rfl⟩
  · intro st w hdropped
    obtain ⟨w', hclose, hfiles⟩ := run_close st w
    have hidle : { st with handle := none : Store }.idle? = some (.tableClosed st.schema.name) := by
      unfold idle?
      dsimp only
      rw [hdropped]
      rfl
    refine ⟨w', hclose, hfiles, fun calls hcalls => ⟨?_, fun node hopen => ?_⟩⟩
    · exact run_calls_of_idle hidle rfl fun hmem => absurd hmem hcalls
    · obtain ⟨fs, hremoved⟩ := Files.exists_remove (hfiles ▸ hopen)
      have hremove : w'.files.removeIfThere st.path = .ok fs := by
        rw [Files.removeIfThere, hremoved]
      have hclosed : ({ st with handle := none } : Store).dropped = false := hdropped
      obtain ⟨w'', hdrop, hfiles'⟩ := run_drop_eq hclosed hremove
      exact ⟨_, w'', hdrop, Files.isThere_of_remove (hfiles' ▸ hremoved)⟩

end Store

namespace Sample

open Store

/-- An empty file, and every call on the store that is not in use; one row lacks a column. -/
def emptied : World := { world with files := ⟨"/srv/", [(table, .file 0)], [(0, [])], 1⟩ }

def calls : List Call :=
  [.ask (.insert (person 1 "ann" 30)) (by decide),
    .ask (.update ⟨.int 1, [("id", .int 1)], false⟩) (by decide),
    .ask (.updateValues (.int 1) []) (by decide),
    .ask (.delete (.int 1)) (by decide), .ask (.select (.int 1)) (by decide),
    .ask .selectAll (by decide), .ask .rowCount (by decide), .ask .rebuild (by decide), .close]

end Sample

namespace Store

theorem drop_final_close_inert_people :
    (∃ st' w', drop.run (Sample.attached, Sample.emptied) = (.ok (), (st', w')) ∧
      w'.files.isThere Sample.table = .ok false ∧
      (Call.runAll (Sample.calls ++ [.drop])).run (st', w') =
        (.ok ([.error (.engine (.tableDropped "people")),
          .error (.engine (.schema (.rowColumns ["id"] "people" ["id", "name", "age"]))),
          .error (.engine (.tableDropped "people")), .error (.engine (.tableDropped "people")),
          .error (.engine (.tableDropped "people")), .error (.engine (.tableDropped "people")),
          .ok (.count 0),
          .error (.engine (.tableDropped "people")), .ok .done,
          .error (.engine (.tableDropped "people"))]), (st', w'))) ∧
    ∃ st₁ w₁ st' w', close.run (Sample.attached, Sample.emptied) = (.ok (), (st₁, w₁)) ∧
      (Call.runAll Sample.calls).run (st₁, w₁) =
        (.ok (Sample.calls.map (·.unused Sample.attached (.tableClosed "people"))),
          (st₁, w₁)) ∧
      drop.run (st₁, w₁) = (.ok (), (st', w')) ∧
      w'.files.isThere Sample.table = .ok false := by
  have hopen : Sample.emptied.files.openFile Sample.table = .ok 0 := rfl
  obtain ⟨hdropped, hclosed⟩ := drop_final_close_inert
  constructor
  · have hattached : Sample.attached.dropped = false := rfl
    obtain ⟨fs, hremove⟩ : ∃ fs, Sample.emptied.files.removeIfThere
        Sample.attached.path = .ok fs :=
      ⟨_, rfl⟩
    obtain ⟨w', hrun, -⟩ := run_drop_eq hattached hremove
    obtain ⟨hthere, -, -, hcalls⟩ := hdropped _ _ _ _ hrun
    refine ⟨_, w', hrun, hthere, (hcalls _).trans (Prod.ext (congrArg Except.ok ?_) rfl)⟩
    decide +kernel
  · obtain ⟨w₁, hclose, -, hcalls⟩ := hclosed Sample.attached Sample.emptied rfl
    obtain ⟨hrun, hdrop⟩ := hcalls Sample.calls (by decide)
    obtain ⟨st', w', hdrop, hthere⟩ := hdrop 0 hopen
    exact ⟨_, w₁, st', w', hclose, hrun, hdrop, hthere⟩

end Store
end Tabulary
