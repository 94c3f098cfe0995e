import Tabulary.Proofs.Store.Opened

/-!
The operations that write: each ends as its counterpart on the list of rows.
-/

namespace Tabulary
namespace Store

open Record

variable {s : Schema} {path : Path} {st : Store} {h : Handle} {w : World}
  {records xs ys : List Stored} {x : Stored} {r : Row}

/-- What follows a change that was worked out: its patches are written and counted, and the change
is logged. -/
theorem Opened.run_commit_log (ho : Opened s path st h w.files records) {c : Change}
    {records' : List Stored} (hschema : c.table.schema = s)
    (hc : c.table.Holds records' (Patch.applyAll c.patches (w.files.nodeBytes h.node)))
    (level : Level) (name : String) (fields : List (String × Json)) :
    Ends s path w.files records
      ((do Store.commit h c; countWrite; log level name fields : Work Store Unit).run (st, w))
      (.ok ((), liveRows records')) :=
  Ends.ok (ho.commit hschema hc) (Rewrites.written _ ho.opened)

theorem Opened.insert_ends (ho : Opened s path st h w.files records) (r : Row) :
    Ends s path w.files records ((insert r).run (st, w))
      (((liveRows records).insert s r >>= r.recorded s).map fun rows => ((), rows)) := by
  have hsch : st.table.schema = s := ho.schema
  unfold Store.insert insertWith Rows.insert
  simp only [Attempt.run_bind, Work.run_state, Attempt.run_ofExcept, checkRow_eq, ho.schema]
  cases hfault : r.fault? s with
  | some e => exact Ends.error ho rfl
  | none =>
    have hr : r.Fits st.table.schema := hsch.symm ▸ Row.fits_iff_fault?.mpr hfault
    have hadd := ho.holds.add hr
    rw [hsch] at hadd
    simp only [refuse, ho.run_ensureOpen]
    show Ends s path w.files records _ (((liveRows records).add s r >>= r.recorded s).map _)
    generalize st.table.add r = result at hadd ⊢
    generalize (liveRows records).add s r >>= r.recorded s = expected at hadd ⊢
    cases hadd with
    | error e => exact Ends.error ho rfl
    | ok hschema hholds => exact ho.run_commit_log hschema hholds _ _ _

theorem Opened.fits_of_mem (ho : Opened s path st h w.files records) (hx : x ∈ records) :
    x.row.Fits s := by
  have hfits := ho.holds.laid.fits_of_mem hx
  rwa [show st.table.schema = s from ho.schema] at hfits

/-- A row takes the place of a stored one that has its key. -/
theorem Opened.replace_ends (ho : Opened s path st h w.files (xs ++ x :: ys))
    (hx : x.row.deleted = false) (hr : r.Fits s) (hk : r.key = x.row.key) :
    Ends s path w.files (xs ++ x :: ys) ((replace x.row r).run (st, w))
      ((((liveRows (xs ++ x :: ys)).without x.row).append s r >>= r.recorded s).map
        fun rows => ((), rows)) := by
  have hsch : st.table.schema = s := ho.schema
  have hreplace := ho.holds.replace hx (hsch.symm ▸ hr) hk
  rw [hsch] at hreplace
  unfold Store.replace replaceWith
  simp only [Attempt.run_bind, Work.run_state, Attempt.run_ofExcept, ho.run_ensureOpen]
  generalize st.table.replace x.row r = result at hreplace ⊢
  generalize ((liveRows (xs ++ x :: ys)).without x.row).append s r >>= r.recorded s = expected
    at hreplace ⊢
  cases hreplace with
  | error e => exact Ends.error ho rfl
  | ok hschema hholds => exact ho.run_commit_log hschema hholds _ _ _

theorem Opened.delete_ends (ho : Opened s path st h w.files records) (id : Value) :
    Ends s path w.files records ((delete id).run (st, w))
      (((liveRows records).delete id).map fun rows => ((), rows)) := by
  unfold Store.delete deleteWith Rows.delete
  simp only [Attempt.run_bind, ho.run_ensureOpen]
  rcases ho.run_readLive id with ⟨xs, x, ys, h', rfl, hx, -, hget, hrun, ho'⟩ | ⟨hget, hrun⟩
  · rw [hget, hrun]
    have hdelete := ho'.holds.delete hx
    simp only [ho'.run_ensureOpen, Attempt.run_ofExcept, Work.run_state]
    show Ends s path w.files _ _ (.ok ((), (liveRows (xs ++ x :: ys)).without x.row))
    generalize st.table.delete x.row = result at hdelete ⊢
    generalize (liveRows (xs ++ x :: ys)).without x.row = expected at hdelete ⊢
    cases hdelete with
    | ok hschema hholds =>
      exact Ends.ok (ho'.commit (hschema.trans ho.schema) hholds) (Rewrites.written _ ho'.opened)
  · rw [hget, hrun]
    exact Ends.error ho rfl

theorem Opened.update_ends (ho : Opened s path st h w.files records) (r : Row) :
    Ends s path w.files records ((update r).run (st, w))
      (((liveRows records).update s r >>= r.recorded s).map fun rows => ((), rows)) := by
  unfold Store.update updateWith Rows.update
  simp only [Attempt.run_bind, Work.run_state, Attempt.run_ofExcept, checkRow_eq, ho.schema]
  cases hfault : r.fault? s with
  | some e => exact Ends.error ho rfl
  | none =>
    have hr : r.Fits s := Row.fits_iff_fault?.mpr hfault
    simp only [refuse, ho.run_ensureOpen]
    rcases ho.run_readLive r.id with ⟨xs, x, ys, h', rfl, hx, hid, hget, hrun, ho'⟩ |
      ⟨hget, hrun⟩
    · rw [hget, hrun]
      have hfits := ho'.fits_of_mem (List.mem_append_right xs List.mem_cons_self)
      exact ho'.replace_ends hx hr (hfits.key_eq hr hid)
    · rw [hget, hrun]
      exact Ends.error ho rfl

theorem Opened.updateValues_ends (ho : Opened s path st h w.files records) (id : Value)
    (changes : List (String × Value)) :
    Ends s path w.files records ((updateValues id changes).run (st, w))
      ((liveRows records).updateValues s id changes >>= fun x => x.1.recorded s x) := by
  unfold Store.updateValues updateValuesWith Rows.updateValues
  rw [Attempt.run_bind_of_ok ho.run_ensureOpen]
  rcases ho.run_readLive id with ⟨xs, x, ys, h', rfl, hx, -, hget, hrun, ho'⟩ | ⟨hget, hrun⟩
  · have hfits := ho'.fits_of_mem (List.mem_append_right xs List.mem_cons_self)
    have hsch : st.table.schema = s := ho.schema
    have hmerge : st.table.merge x.row changes = x.row.change s changes := by
      rw [Table.merge_eq (hsch.symm ▸ hfits), hsch]
    rw [hget, Attempt.run_bind_of_ok hrun]
    show Ends s path w.files _ _ ((x.row.change s changes >>= fun r =>
      ((liveRows (xs ++ x :: ys)).without x.row).append s r >>= fun rows => pure (r, rows)) >>=
        fun y => y.1.recorded s y)
    simp only [Attempt.run_bind _ _ (_, w), Work.run_state, Attempt.run_ofExcept, hmerge]
    cases hchange : x.row.change s changes with
    | error e => exact Ends.error ho' rfl
    | ok r =>
      obtain ⟨rfl, hr, hkey⟩ := Row.change_eq_ok hchange
      have hends := (ho'.replace_ends hx hr (hr.key_eq hfits hkey).symm).andReturn
        fun _ => x.row.changed changes
      show Ends s path w.files _ _ ((((liveRows (xs ++ x :: ys)).without x.row).append s _ >>=
        fun rows => pure (x.row.changed changes, rows)) >>= fun y => y.1.recorded s y)
      generalize ((liveRows (xs ++ x :: ys)).without x.row).append s _ = expected at hends ⊢
      cases expected with
      | error e => exact hends
      | ok rows =>
        change Ends s path w.files _ _ ((((x.row.changed changes).recorded s rows).map _).map _)
          at hends
        rw [Row.map_recorded, Row.map_recorded] at hends
        exact hends
  · rw [hget, Attempt.run_bind_of_error hrun]
    exact Ends.error ho rfl

end Store
end Tabulary
