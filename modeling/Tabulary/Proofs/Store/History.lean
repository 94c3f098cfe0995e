import Tabulary.Proofs.Store.Interrupted

/-!
The file of a table as a history.  Each operation at most sets the flag of one live record and at
most appends the record of one row, and nothing that succeeds or fails does more (`Opened.writes`);
so a record stays where it is, and one that was deleted stays deleted (`Writes.continues`,
`Opened.runAll_continues`).
-/

namespace Tabulary
namespace Store

open Record

/-- What an operation with this result does to the bytes of a file with these records. -/
inductive Writes (s : Schema) (file : Bytes) (records : List Stored) :
    Operation → Except Fault Answer → Bytes → Prop
  | failed (op : Operation) (e : Fault) : Writes s file records op (.error e) file
  | asked {op : Operation} (a : Answer) (reads : op.target? = none) :
      Writes s file records op (.ok a) file
  | inserted {r : Row} {bytes : Bytes} (fits : r.Fits s) (encoded : encode s r false = .ok bytes) :
      Writes s file records (.insert r) (.ok .done) (file ++ bytes)
  | deleted {id : Value} {x : Stored} (mem : x ∈ live records)
      (key : x.row.id.looseEq id = true) :
      Writes s file records (.delete id) (.ok .done) (file.set x.offset 1)
  | updated {r : Row} {x : Stored} {bytes : Bytes} (mem : x ∈ live records)
      (key : x.row.id.looseEq r.id = true) (fits : r.Fits s)
      (encoded : encode s r false = .ok bytes) :
      Writes s file records (.update r) (.ok .done) (file.set x.offset 1 ++ bytes)
  | changed {id : Value} {changes : List (String × Value)} {x : Stored} {bytes : Bytes}
      (mem : x ∈ live records) (key : x.row.id.looseEq id = true)
      (fits : (x.row.changed changes).Fits s)
      (encoded : encode s (x.row.changed changes) false = .ok bytes) :
      Writes s file records (.updateValues id changes) (.ok (.row (x.row.changed changes)))
        (file.set x.offset 1 ++ bytes)

/-- What may have become of a record: it is where it was and holds what it held, and where it was
deleted it still is. -/
structure Endures (x y : Stored) : Prop where
  offset : y.offset = x.offset
  length : y.length = x.length
  id : y.row.id = x.row.id
  values : y.row.values = x.row.values
  deleted : x.row.deleted = true → y.row.deleted = true

/-- The records of a file that has grown begin with what has become of the old ones. -/
def Continues (before after : List Stored) : Prop :=
  ∀ (i : Nat) (x : Stored), before[i]? = some x → ∃ y, after[i]? = some y ∧ Endures x y

variable {s : Schema} {path : Path} {st st' : Store} {h : Handle} {w w' : World}
  {records before after xs ys : List Stored} {x y z : Stored} {r : Row} {file file' : Bytes}
  {op : Operation} {result : Except Fault Answer}

/-! ## Records that last -/

theorem Endures.refl (x : Stored) : Endures x x := ⟨rfl, rfl, rfl, rfl, fun hx => hx⟩

theorem Endures.retired (x : Stored) : Endures x x.retired := ⟨rfl, rfl, rfl, rfl, fun _ => rfl⟩

theorem Endures.trans (h : Endures x y) (h' : Endures y z) : Endures x z where
  offset := h'.offset.trans h.offset
  length := h'.length.trans h.length
  id := h'.id.trans h.id
  values := h'.values.trans h.values
  deleted hx := h'.deleted (h.deleted hx)

namespace Continues

theorem append (before added : List Stored) : Continues before (before ++ added) := by
  intro i x hx
  have hlt := (List.getElem?_eq_some_iff.mp hx).1
  exact ⟨x, (List.getElem?_append_left hlt).trans hx, .refl x⟩

theorem refl (before : List Stored) : Continues before before := by
  have h := append before []
  rwa [List.append_nil] at h

theorem trans (h : Continues before records) (h' : Continues records after) :
    Continues before after := by
  intro i x hx
  obtain ⟨y, hy, hxy⟩ := h i x hx
  obtain ⟨z, hz, hyz⟩ := h' i y hy
  exact ⟨z, hz, hxy.trans hyz⟩

theorem cons (hx : Endures x y) (h : Continues before after) :
    Continues (x :: before) (y :: after) := by
  intro i z hz
  cases i with
  | zero =>
    obtain rfl : x = z := Option.some.inj hz
    exact ⟨y, rfl, hx⟩
  | succ i => exact h i z hz

/-- One record has been deleted, and others follow. -/
theorem retire (xs ys added : List Stored) (x : Stored) :
    Continues (xs ++ x :: ys) (xs ++ x.retired :: ys ++ added) := by
  induction xs with
  | nil => exact cons (.retired x) (append ys added)
  | cons x' xs ih => exact cons (.refl x') ih

end Continues

/-! ## What an operation writes -/

/-- The record of a row behind the others. -/
theorem laid_appended {bytes : Bytes} (hl : Laid s 0 records file) (hr : r.Fits s)
    (henc : encode s r false = .ok bytes) :
    Laid s 0 (records ++ [⟨0 + file.length, bytes.length, r.stored s false⟩]) (file ++ bytes) :=
  hl.append (Laid.singleton _ (image_of_encode hr henc))

/-- What is written are records again, and they continue the old ones. -/
theorem Writes.continues (hw : Writes s file records op result file') (hl : Laid s 0 records file) :
    ∃ records', Laid s 0 records' file' ∧ Continues records records' := by
  cases hw with
  | failed => exact ⟨records, hl, .refl records⟩
  | asked => exact ⟨records, hl, .refl records⟩
  | inserted fits encoded => exact ⟨_, laid_appended hl fits encoded, .append records _⟩
  | deleted mem key =>
    obtain ⟨xs, ys, rfl, -⟩ := split_of_mem_live mem
    have hcontinues := Continues.retire xs ys []
    simp only [List.append_nil] at hcontinues
    exact ⟨_, hl.retire.2, hcontinues _⟩
  | updated mem key fits encoded =>
    obtain ⟨xs, ys, rfl, -⟩ := split_of_mem_live mem
    exact ⟨_, laid_appended hl.retire.2 fits encoded, .retire xs ys _ _⟩
  | changed mem key fits encoded =>
    obtain ⟨xs, ys, rfl, -⟩ := split_of_mem_live mem
    exact ⟨_, laid_appended hl.retire.2 fits encoded, .retire xs ys _ _⟩

theorem applyAll_delete {t : Table} {c : Change} (h : t.Holds (xs ++ x :: ys) file)
    (hx : x.row.deleted = false) (hdelete : t.delete x.row = .ok c) :
    Patch.applyAll c.patches file = file.set x.offset 1 := by
  obtain ⟨offset, hoffset, hpatches⟩ := Table.delete_eq_ok hdelete
  rw [h.offset?_self hx] at hoffset
  cases hoffset
  rw [hpatches]
  exact Patch.apply_flag h.laid.offset_lt

/-- The change that an operation works out is what it writes. -/
theorem Committed.writes {a : Answer} {old : Option Stored} {new : Option Row} {c : Change}
    {y' : Store × World} (hc : Committed s (st, w) h records op a old new c y')
    (ho : Opened s path st h w.files records) :
    Writes s (w.files.nodeBytes h.node) records op (.ok a)
      (Patch.applyAll c.patches (w.files.nodeBytes h.node)) := by
  have hsch : st.table.schema = s := ho.schema
  have hcommits := hc.commits
  have hfits := hc.fits
  cases hcommits with
  | insert change =>
    obtain ⟨bytes, henc, -⟩ := Table.add_eq_ok change
    rw [applyAll_add ho.holds change henc]
    exact .inserted (hfits _ rfl) (hsch ▸ henc)
  | @delete _ x _ mem key change =>
    obtain ⟨xs, ys, rfl, hx⟩ := split_of_mem_live mem
    rw [applyAll_delete ho.holds hx change]
    exact .deleted mem key
  | @update _ x _ mem key change =>
    obtain ⟨xs, ys, rfl, hx⟩ := split_of_mem_live mem
    obtain ⟨_, bytes, -, henc, -⟩ := Table.replace_eq_ok change
    rw [applyAll_replace ho.holds hx change henc]
    exact .updated mem key (hfits _ rfl) (hsch ▸ henc)
  | @updateValues _ changes x r _ mem key merged change =>
    obtain ⟨xs, ys, rfl, hx⟩ := split_of_mem_live mem
    obtain ⟨_, bytes, -, henc, -⟩ := Table.replace_eq_ok change
    have hrow := ho.holds.fits_of_live mem
    rw [Table.merge_eq hrow] at merged
    obtain ⟨rfl, -, -⟩ := Row.change_eq_ok merged
    rw [applyAll_replace ho.holds hx change henc]
    exact .changed mem key (hfits _ rfl) (hsch ▸ henc)

theorem keeps_asked (h : op.target? = none) (hrebuild : op ≠ .rebuild)
    (hreopen : op ≠ .reopen) : Attempt.Keeps held op.run := by
  cases op with
  | select id => exact (keeps_select id).bind fun _ => Attempt.keeps_pure _
  | selectAll => exact keeps_selectAll.bind fun _ => Attempt.keeps_pure _
  | rowCount => exact keeps_state.bind fun _ => Attempt.keeps_pure _
  | rebuild => exact absurd rfl hrebuild
  | reopen => exact absurd rfl hreopen
  | insert | update | updateValues | delete => cases h

/-- Reading, rebuilding the index and opening the table again change no file. -/
theorem Opened.files_of_asked (ho : Opened s path st h w.files records) {a : Answer}
    (hop : op.target? = none) (hrun : op.run.run (st, w) = (.ok a, (st', w'))) :
    w'.files = w.files := by
  have hschema : st.table.schema = s := ho.schema
  by_cases hrebuild : op = .rebuild
  · subst hrebuild
    obtain ⟨st₁, w₁, hrun₁, hfiles, -⟩ :=
      ho.toAttached.run_rebuild (hschema ▸ ho.holds.laid) (hschema ▸ ho.holds.distinct)
    obtain ⟨_, y, hrun', hpure⟩ := Attempt.of_run_bind_ok hrun
    rw [hrun₁] at hrun'
    cases hrun'
    cases hpure
    exact hfiles
  · by_cases hreopen : op = .reopen
    · subst hreopen
      obtain ⟨st₁, h₁, w₁, hrun₁, hfiles, -⟩ := ho.run_reopen
      obtain ⟨_, y, hrun', hpure⟩ := Attempt.of_run_bind_ok hrun
      rw [hrun₁] at hrun'
      cases hrun'
      cases hpure
      exact hfiles
    · have hheld := keeps_asked hop hrebuild hreopen (st, w)
      rw [hrun] at hheld
      exact congrArg (·.2.2.2) hheld

/-! ## One operation, and many -/

/-- Every operation writes what its result says, and leaves a store that is fit for more. -/
theorem Opened.writes (ho : Opened s path st h w.files records)
    (hrun : op.run.run (st, w) = (result, (st', w'))) :
    ∃ h' records', Opened s path st' h' w'.files records' ∧
      Writes s (w.files.nodeBytes h.node) records op result (w'.files.nodeBytes h'.node) := by
  have hends := Operation.run_ends_onFile ho op
  rw [hrun] at hends
  generalize op.onFile s (liveRows records) = expected at hends
  cases hends with
  | @error e _ h' _ ho' hfiles =>
    have hnode : h'.node = h.node := Except.ok.inj ((hfiles ▸ ho'.opened).symm.trans ho.opened)
    refine ⟨h', records, ho', ?_⟩
    rw [hnode, hfiles]
    exact .failed op e
  | @ok a _ h' _ records' ho' _ =>
    refine ⟨h', records', ho', ?_⟩
    cases htarget : op.target? with
    | none =>
      have hfiles := ho.files_of_asked htarget hrun
      have hnode : h'.node = h.node := Except.ok.inj ((hfiles ▸ ho'.opened).symm.trans ho.opened)
      rw [hnode, hfiles]
      exact .asked a htarget
    | some id =>
      obtain ⟨old, new, c, hc⟩ := ho.commits (by rw [htarget]; rfl) hrun
      have hfile : w'.files.openFile path = .ok h.node := by
        rw [hc.written.files, Files.openFile_setNode]
        exact ho.opened
      have hnode : h'.node = h.node := Except.ok.inj (ho'.opened.symm.trans hfile)
      rw [hnode, hc.written.files, Files.nodeBytes_setNode]
      exact hc.writes ho

theorem Opened.laid (ho : Opened s path st h w.files records) :
    Laid s 0 records (w.files.nodeBytes h.node) := by
  have hschema : st.table.schema = s := ho.schema
  rw [← hschema]
  exact ho.holds.laid

/-- Operations one after another continue the records. -/
theorem Opened.runAll_continues (ho : Opened s path st h w.files records) (ops : List Operation) :
    ∃ answers st' h' w' records', (Operation.runAll ops).run (st, w) =
      (.ok answers, (st', w')) ∧
      Opened s path st' h' w'.files records' ∧ Continues records records' := by
  induction ops generalizing st h w records with
  | nil => exact ⟨[], st, h, w, records, rfl, ho, .refl records⟩
  | cons op ops ih =>
    generalize hresult : op.run.run (st, w) = ending
    obtain ⟨result, st₁, w₁⟩ := ending
    obtain ⟨h₁, records₁, ho₁, hwrites⟩ := ho.writes hresult
    obtain ⟨records', hlaid, hcontinues⟩ := hwrites.continues ho.laid
    obtain rfl := laid_unique hlaid ho₁.laid
    obtain ⟨answers, st', h', w', records'', hrun, ho', hmore⟩ := ih ho₁
    exact ⟨_, st', h', w', records'', Operation.run_runAll_cons hresult hrun, ho',
      hcontinues.trans hmore⟩

end Store
end Tabulary
