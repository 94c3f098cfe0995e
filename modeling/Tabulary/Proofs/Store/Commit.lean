import Tabulary.Proofs.Store.Failure
import Tabulary.Proofs.Table.Stage

/-!
What an operation that changes a row works out, writes and leaves behind.

Every such operation works out one change of the table from a live record that it reads and the row
that it is given.  `Operation.Commits` says which change that is, in terms of the functions of the
table, and `Opened.planned` that the operation fails before anything is written or comes down to
writing it, in whatever way a change is written.  `Opened.commits` is what follows for an operation
that succeeds: the patches of the change are all that it leaves behind.
-/

namespace Tabulary

open Record Store

namespace Operation

/-- The key of the row that an operation changes. -/
def target? : Operation → Option Value
  | insert r => some r.id
  | update r => some r.id
  | updateValues id _ => some id
  | delete id => some id
  | _ => none

/-- What an operation works out from a table with these live records, and answers: the record that
it takes out, the row that it appends, and the change that does this. -/
inductive Commits (t : Table) (before : List Stored) :
    Operation → Answer → Option Stored → Option Row → Change → Prop
  | insert {r : Row} {c : Change} (change : t.add r = .ok c) :
      Commits t before (.insert r) .done none (some r) c
  | delete {id : Value} {x : Stored} {c : Change} (mem : x ∈ before)
      (key : x.row.id.looseEq id = true) (change : t.delete x.row = .ok c) :
      Commits t before (.delete id) .done (some x) none c
  | update {r : Row} {x : Stored} {c : Change} (mem : x ∈ before)
      (key : x.row.id.looseEq r.id = true) (change : t.replace x.row r = .ok c) :
      Commits t before (.update r) .done (some x) (some r) c
  | updateValues {id : Value} {changes : List (String × Value)} {x : Stored} {r : Row} {c : Change}
      (mem : x ∈ before) (key : x.row.id.looseEq id = true)
      (merged : t.merge x.row changes = .ok r) (change : t.replace x.row r = .ok c) :
      Commits t before (.updateValues id changes) (.row r) (some x) (some r) c

/-- The operation with a way of its own to write a change and to force out a file before it is
closed. -/
def runWith (write : Handle → Change → Work Store Unit) (sync : Work Store Unit) :
    Operation → Work Store Answer
  | insert r => do Store.insertWith write r; return .done
  | update r => do Store.updateWith write r; return .done
  | updateValues id changes => do return .row (← Store.updateValuesWith write id changes)
  | delete id => do Store.deleteWith write id; return .done
  | reopen => do Store.reopenWith sync; return .done
  | op => op.run

theorem runWith_commit (op : Operation) : op.runWith commit (pure ()) = op.run := by
  cases op <;> rfl

end Operation

namespace Store

open Attempt

variable {s : Schema} {path : Path} {st st' : Store} {h : Handle} {w w' : World}
  {records xs ys : List Stored} {x : Stored} {r : Row}

/-! ## What an operation works out -/

/-- A change that an operation works out, and the answer it is to give. -/
structure Planned (s : Schema) (y : Store × World) (h : Handle) (records : List Stored)
    (op : Operation) (a : Answer) (old : Option Stored) (new : Option Row) (c : Change) : Prop where
  commits : op.Commits y.1.table (live records) a old new c
  fits : ∀ r ∈ new, r.Fits s
  holds : ∃ records', c.table.schema = s ∧
    c.table.Holds records' (Patch.applyAll c.patches (y.2.files.nodeBytes h.node))

/-- The operation fails before anything is written, in whatever way a change is written. -/
def Refused (y : Store × World) (op : Operation) : Prop :=
  ∃ e st', ∀ write sync, (op.runWith write sync).run y = (.error e, (st', y.2))

/-- The operation comes down to writing a change, in whatever way that is done, and to what then
follows and always gives the answer. -/
def Writing (y : Store × World) (h : Handle) (op : Operation) (a : Answer) (c : Change) : Prop :=
  ∃ st₁ h₁ rest, st₁.table = y.1.table ∧ st₁.path = y.1.path ∧ h₁.node = h.node ∧
    Keeps held rest ∧ (∀ z, (rest.run z).1 = .ok a) ∧
    ∀ write sync, (op.runWith write sync).run y =
    (write h₁ c >>= fun _ => rest).run (st₁, y.2)

theorem keeps_log (level : Level) (name : String) (fields : List (String × Json)) :
    Keeps held (log level name fields) := fun _ => rfl

theorem keeps_countWrite : Keeps held countWrite := fun _ => rfl

theorem fits_of_checkRow {u : Unit} (h : Table.checkRow s r = .ok u) : r.Fits s := by
  rw [Row.fits_iff_fault?]
  rw [checkRow_eq] at h
  cases hfault : r.fault? s with
  | none => rfl
  | some e =>
    rw [hfault] at h
    cases h

theorem mem_live_split (hx : x.row.deleted = false) : x ∈ live (xs ++ x :: ys) :=
  List.mem_filter.mpr ⟨List.mem_append_right xs List.mem_cons_self, by simp [Stored.isLive, hx]⟩

theorem split_of_mem_live (hx : x ∈ live records) :
    ∃ xs ys, records = xs ++ x :: ys ∧ x.row.deleted = false := by
  obtain ⟨hrecord, hlive⟩ := List.mem_filter.mp hx
  obtain ⟨xs, ys, hsplit⟩ := List.append_of_mem hrecord
  exact ⟨xs, ys, hsplit, by simpa [Stored.isLive] using hlive⟩

/-- What is done once a row has been written, before the answer is given. -/
def report (name : String) (fields : List (String × Json)) (a : Answer) : Work Store Answer := do
  countWrite
  log .debug name fields
  return a

theorem keeps_report (name : String) (fields : List (String × Json)) (a : Answer) :
    Keeps held (report name fields a) :=
  keeps_countWrite.bind fun _ => (keeps_log _ _ _).bind fun _ => keeps_pure a

theorem Opened.insert_planned (ho : Opened s path st h w.files records) (r : Row) :
    Refused (st, w) (.insert r) ∨
      ∃ c, Planned s (st, w) h records (.insert r) .done none (some r) c ∧
        Writing (st, w) h (.insert r) .done c := by
  have hsch : st.table.schema = s := ho.schema
  have hchecked {x : Except Fault Unit} (hx : Table.checkRow s r = x)
      (write : Handle → Change → Work Store Unit) (sync : Work Store Unit) :
      ((Operation.insert r).runWith write sync).run (st, w) = (Attempt.ofExcept x >>= fun _ =>
        Attempt.ofExcept (st.table.add r) >>= fun c => write h c >>= fun _ =>
          report "row_inserted" [("id", r.id.toJson), ("offset", .int c.newOffset)] .done).run
            (st, w) := by
    unfold Operation.runWith insertWith
    simp only [bind_assoc]
    rw [Attempt.run_bind_of_ok (Work.run_state _), ho.schema, hx]
    cases x with
    | error e => rfl
    | ok u => exact Attempt.run_bind_of_ok ho.run_ensureOpen
  cases hcheck : Table.checkRow s r with
  | error e => exact .inl ⟨e, st, hchecked hcheck⟩
  | ok u =>
    have hr := fits_of_checkRow hcheck
    have hfollows := ho.holds.add (hsch.symm ▸ hr)
    cases hadd : st.table.add r with
    | error e =>
      rw [hadd] at hchecked
      exact .inl ⟨e, st, hchecked hcheck⟩
    | ok c =>
      rw [hadd, hsch] at hfollows
      rw [hadd] at hchecked
      refine .inr ⟨c, ⟨.insert hadd, ?_, hfollows.holds⟩, st, h,
        report "row_inserted" [("id", r.id.toJson), ("offset", .int c.newOffset)] .done, rfl, rfl,
        rfl, keeps_report _ _ _, fun _ => rfl, hchecked hcheck⟩
      intro r' hr'
      rwa [← Option.mem_some.mp hr']

/-- The part that the two kinds of update share. -/
theorem Opened.replace_planned (ho : Opened s path st h w.files (xs ++ x :: ys))
    (hx : x.row.deleted = false) (hr : r.Fits s) (hkey : r.key = x.row.key) (a : Answer) :
    (∃ e, ∀ write : Handle → Change → Work Store Unit,
        (replaceWith write x.row r >>= fun _ => pure a).run (st, w) = (.error e, (st, w))) ∨
      ∃ c rest, st.table.replace x.row r = .ok c ∧ Keeps held rest ∧
        (∀ z, (rest.run z).1 = .ok a) ∧ (∃ records', c.table.schema = s ∧
          c.table.Holds records' (Patch.applyAll c.patches (w.files.nodeBytes h.node))) ∧
        ∀ write : Handle → Change → Work Store Unit,
          (replaceWith write x.row r >>= fun _ => pure a).run (st, w) =
            (write h c >>= fun _ => rest).run (st, w) := by
  have hsch : st.table.schema = s := ho.schema
  have hfollows := ho.holds.replace hx (hsch.symm ▸ hr) hkey
  have hopened (write : Handle → Change → Work Store Unit) :
      (replaceWith write x.row r >>= fun _ => pure a).run (st, w) =
        (Attempt.ofExcept (st.table.replace x.row r) >>= fun c => write h c >>= fun _ =>
          report "row_updated" [("id", r.id.toJson), ("old_offset", .int c.oldOffset),
            ("offset", .int c.newOffset)] a).run (st, w) := by
    unfold replaceWith
    simp only [bind_assoc]
    exact Attempt.run_bind_of_ok ho.run_ensureOpen
  cases hreplace : st.table.replace x.row r with
  | error e =>
    rw [hreplace] at hopened
    exact .inl ⟨e, hopened⟩
  | ok c =>
    rw [hreplace, hsch] at hfollows
    rw [hreplace] at hopened
    exact .inr ⟨c, report "row_updated" [("id", r.id.toJson), ("old_offset", .int c.oldOffset),
      ("offset", .int c.newOffset)] a, rfl, keeps_report _ _ _, fun _ => rfl, hfollows.holds,
      hopened⟩

theorem Opened.delete_planned (ho : Opened s path st h w.files records) (id : Value) :
    Refused (st, w) (.delete id) ∨
      ∃ x c, Planned s (st, w) h records (.delete id) .done (some x) none c ∧
        Writing (st, w) h (.delete id) .done c := by
  have hsch : st.table.schema = s := ho.schema
  rcases ho.run_readLive id with ⟨xs, x, ys, h', rfl, hx, hid, -, hread, ho'⟩ | ⟨-, hread⟩
  · have hnode : h'.node = h.node := Except.ok.inj (ho'.opened.symm.trans ho.opened)
    have hfollows := ho.holds.delete hx
    have hfound (write : Handle → Change → Work Store Unit) (sync : Work Store Unit) :
        ((Operation.delete id).runWith write sync).run (st, w) =
          (Attempt.ofExcept (st.table.delete x.row) >>= fun c => write h' c >>= fun _ =>
            log .debug "row_deleted" [("id", id.toJson), ("offset", .int c.oldOffset)] >>= fun _ =>
              pure Answer.done).run ({ st with handle := some h' }, w) := by
      unfold Operation.runWith deleteWith
      simp only [bind_assoc]
      rw [Attempt.run_bind_of_ok ho.run_ensureOpen, Attempt.run_bind_of_ok hread,
        Attempt.run_bind_of_ok ho'.run_ensureOpen]
      rfl
    cases hdelete : st.table.delete x.row with
    | error e =>
      rw [hdelete] at hfound
      exact .inl ⟨e, _, hfound⟩
    | ok c =>
      rw [hdelete, hsch] at hfollows
      rw [hdelete] at hfound
      exact .inr ⟨x, c, ⟨.delete (mem_live_split hx) hid hdelete, (fun r hr => nomatch hr),
        hfollows.holds⟩, { st with handle := some h' }, h',
        log .debug "row_deleted" [("id", id.toJson), ("offset", .int c.oldOffset)] >>= fun _ =>
          pure Answer.done, rfl, rfl, hnode, (keeps_log _ _ _).bind fun _ => keeps_pure _,
            fun _ => rfl, hfound⟩
  · refine .inl ⟨.raised (.noRecord id), st, fun write sync => ?_⟩
    unfold Operation.runWith deleteWith
    simp only [bind_assoc]
    rw [Attempt.run_bind_of_ok ho.run_ensureOpen, Attempt.run_bind_of_error hread]

theorem Opened.update_planned (ho : Opened s path st h w.files records) (r : Row) :
    Refused (st, w) (.update r) ∨
      ∃ x c, Planned s (st, w) h records (.update r) .done (some x) (some r) c ∧
        Writing (st, w) h (.update r) .done c := by
  have hchecked {x : Except Fault Unit} (hx : Table.checkRow s r = x)
      (write : Handle → Change → Work Store Unit) (sync : Work Store Unit) :
      ((Operation.update r).runWith write sync).run (st, w) = (Attempt.ofExcept x >>= fun _ =>
        readLive h r.id >>= fun existing => replaceWith write existing r >>= fun _ =>
          pure Answer.done).run (st, w) := by
    unfold Operation.runWith updateWith
    simp only [bind_assoc]
    rw [Attempt.run_bind_of_ok (Work.run_state _), ho.schema, hx]
    cases x with
    | error e => rfl
    | ok u => exact Attempt.run_bind_of_ok ho.run_ensureOpen
  cases hcheck : Table.checkRow s r with
  | error e => exact .inl ⟨e, st, hchecked hcheck⟩
  | ok u =>
    have hr := fits_of_checkRow hcheck
    have hpassed (write : Handle → Change → Work Store Unit) (sync : Work Store Unit) :
        ((Operation.update r).runWith write sync).run (st, w) = (readLive h r.id >>= fun existing =>
          replaceWith write existing r >>= fun _ => pure Answer.done).run (st, w) :=
      hchecked hcheck write sync
    rcases ho.run_readLive r.id with ⟨xs, x, ys, h', rfl, hx, hid, -, hread, ho'⟩ |
      ⟨-, hread⟩
    · have hnode : h'.node = h.node := Except.ok.inj (ho'.opened.symm.trans ho.opened)
      have hfits := ho.fits_of_mem (List.mem_append_right xs List.mem_cons_self)
      have hfound (write : Handle → Change → Work Store Unit) (sync : Work Store Unit) :=
        (hpassed write sync).trans (Attempt.run_bind_of_ok hread)
      rcases ho'.replace_planned hx hr (hfits.key_eq hr hid) .done with
        ⟨e, hrun⟩ | ⟨c, rest, hreplace, hkeeps, hrest, hholds, hrun⟩
      · exact .inl ⟨e, _, fun write sync => (hfound write sync).trans (hrun write)⟩
      · rw [hnode] at hholds
        refine .inr ⟨x, c, ⟨.update (mem_live_split hx) hid hreplace, ?_, hholds⟩,
          { st with handle := some h' }, h', rest, rfl, rfl, hnode, hkeeps, hrest,
          fun write sync => (hfound write sync).trans (hrun write)⟩
        intro r' hr'
        rwa [← Option.mem_some.mp hr']
    · exact .inl ⟨_, st, fun write sync =>
        (hpassed write sync).trans (Attempt.run_bind_of_error hread)⟩

theorem Opened.updateValues_planned (ho : Opened s path st h w.files records) (id : Value)
    (changes : List (String × Value)) :
    Refused (st, w) (.updateValues id changes) ∨
      ∃ x r c, Planned s (st, w) h records (.updateValues id changes) (.row r)
        (some x) (some r) c ∧
        Writing (st, w) h (.updateValues id changes) (.row r) c := by
  have hsch : st.table.schema = s := ho.schema
  have hopened (write : Handle → Change → Work Store Unit) (sync : Work Store Unit) :
      ((Operation.updateValues id changes).runWith write sync).run (st, w) =
        (readLive h id >>= fun existing => Work.state >>= fun s =>
          Attempt.ofExcept (s.table.merge existing changes) >>= fun r =>
            replaceWith write existing r >>= fun _ => pure (Answer.row r)).run (st, w) := by
    unfold Operation.runWith updateValuesWith
    simp only [bind_assoc, pure_bind]
    exact Attempt.run_bind_of_ok ho.run_ensureOpen
  rcases ho.run_readLive id with ⟨xs, x, ys, h', rfl, hx, hid, -, hread, ho'⟩ | ⟨-, hread⟩
  · have hnode : h'.node = h.node := Except.ok.inj (ho'.opened.symm.trans ho.opened)
    have hfits := ho.fits_of_mem (List.mem_append_right xs List.mem_cons_self)
    have hfound (write : Handle → Change → Work Store Unit) (sync : Work Store Unit) :=
      ((hopened write sync).trans (Attempt.run_bind_of_ok hread)).trans
        (Attempt.run_bind_of_ok (Work.run_state _))
    cases hmerge : st.table.merge x.row changes with
    | error e =>
      refine .inl ⟨e, { st with handle := some h' },
        fun write sync => (hfound write sync).trans ?_⟩
      dsimp only
      rw [hmerge]
      rfl
    | ok r =>
      have hrow : x.row.change s changes = .ok r := by
        rw [← hmerge, Table.merge_eq (hsch.symm ▸ hfits), hsch]
      obtain ⟨-, hr, hkey⟩ := Row.change_eq_ok hrow
      have hmerged (write : Handle → Change → Work Store Unit) (sync : Work Store Unit) :
          ((Operation.updateValues id changes).runWith write sync).run (st, w) =
            (replaceWith write x.row r >>= fun _ => pure (Answer.row r)).run
              ({ st with handle := some h' }, w) := by
        refine (hfound write sync).trans ?_
        dsimp only
        rw [hmerge]
        rfl
      rcases ho'.replace_planned hx hr (hr.key_eq hfits hkey).symm (.row r) with
        ⟨e, hrun⟩ | ⟨c, rest, hreplace, hkeeps, hrest, hholds, hrun⟩
      · exact .inl ⟨e, _, fun write sync => (hmerged write sync).trans (hrun write)⟩
      · rw [hnode] at hholds
        refine .inr
          ⟨x, r, c, ⟨.updateValues (mem_live_split hx) hid hmerge hreplace, ?_, hholds⟩,
          { st with handle := some h' }, h', rest, rfl, rfl, hnode, hkeeps, hrest,
          fun write sync => (hmerged write sync).trans (hrun write)⟩
        intro r' hr'
        rwa [← Option.mem_some.mp hr']
  · exact .inl ⟨_, st, fun write sync => (hopened write sync).trans
      (Attempt.run_bind_of_error hread)⟩

/-- An operation that changes a row fails before it writes anything, or comes down to writing one
change. -/
theorem Opened.planned (ho : Opened s path st h w.files records) {op : Operation}
    (htarget : op.target?.isSome) :
    Refused (st, w) op ∨ ∃ a old new c, Planned s (st, w) h records op a old new c ∧
      Writing (st, w) h op a c := by
  cases op with
  | insert r => exact (ho.insert_planned r).imp_right fun ⟨c, hc⟩ => ⟨_, _, _, c, hc⟩
  | update r => exact (ho.update_planned r).imp_right fun ⟨x, c, hc⟩ => ⟨_, _, _, c, hc⟩
  | updateValues id changes =>
    exact (ho.updateValues_planned id changes).imp_right fun ⟨x, r, c, hc⟩ =>
      ⟨_, _, _, c, hc⟩
  | delete id => exact (ho.delete_planned id).imp_right fun ⟨x, c, hc⟩ => ⟨_, _, _, c, hc⟩
  | select | selectAll | rowCount | rebuild | reopen => cases htarget

/-! ## What an operation leaves behind -/

/-- A store has written a change and taken over its table. -/
structure Written (c : Change) (st' : Store) (fs : Files) (w' : World) (node : Nat) : Prop where
  table : st'.table = c.table
  files : w'.files = fs.setNode node (Patch.applyAll c.patches (fs.nodeBytes node))

/-- An operation has written a change that it worked out from the table, and the table after the
change is that of the file that was written. -/
structure Committed (s : Schema) (y : Store × World) (h : Handle) (records : List Stored)
    (op : Operation) (a : Answer) (old : Option Stored) (new : Option Row) (c : Change)
    (y' : Store × World) : Prop extends Planned s y h records op a old new c where
  written : Written c y'.1 y.2.files y'.2 h.node

/-- What follows the writing of a change keeps what was written, and gives the answer. -/
theorem run_commit_rest (st : Store) (w : World) {c : Change} {rest : Work Store Answer}
    {a : Answer} (hkeeps : Keeps held rest) (hrest : ∀ z, (rest.run z).1 = .ok a) :
    ∃ st' w', (commit h c >>= fun _ => rest).run (st, w) = (.ok a, (st', w')) ∧
      Written c st' w.files w' h.node := by
  have hheld := hkeeps ((commit h c).run (st, w)).2
  have hresult := hrest ((commit h c).run (st, w)).2
  have hrun : (commit h c >>= fun _ => rest).run (st, w) = rest.run ((commit h c).run (st, w)).2 :=
    rfl
  generalize rest.run ((commit h c).run (st, w)).2 = ending at hheld hresult hrun
  obtain ⟨result, st', w'⟩ := ending
  simp only [held, Prod.mk.injEq] at hheld
  dsimp only at hresult
  exact ⟨st', w', hresult ▸ hrun, hheld.1, hheld.2.2.2⟩

/-- An operation that changes a row and succeeds has written the patches of one change, and nothing
else. -/
theorem Opened.commits (ho : Opened s path st h w.files records) {op : Operation} {a : Answer}
    (htarget : op.target?.isSome) (hrun : op.run.run (st, w) = (.ok a, (st', w'))) :
    ∃ old new c, Committed s (st, w) h records op a old new c (st', w') := by
  rw [← op.runWith_commit] at hrun
  rcases ho.planned htarget with ⟨e, st₁, hrefused⟩ | ⟨b, old, new, c, hplanned, hwriting⟩
  · rw [hrefused] at hrun
    cases hrun
  · obtain ⟨st₁, h₁, rest, -, -, hnode, hkeeps, hrest, hwrites⟩ := hwriting
    obtain ⟨st₂, w₂, hcommit, hwritten⟩ := run_commit_rest st₁ w hkeeps hrest
    rw [hwrites, hcommit] at hrun
    cases hrun
    rw [hnode] at hwritten
    exact ⟨old, new, c, hplanned, hwritten⟩

end Store
end Tabulary
