import Tabulary.Proofs.Store.Draft
import Tabulary.Proofs.Store.History

/-!
The file of a table on a disk that may refuse.

A disk that refuses nothing makes no difference to an operation, and one that refuses a single
request makes none to the file, unless the request is to force out a flag that is set: the operation
then fails, and the flag stays.  Whatever the disk refuses, an operation that it stops leaves the
old records as they are, but for that one flag, and behind them at most a part of the record that it
was to append.  Main statement: `append_only`.
-/

namespace Tabulary

open Attempt Record Store

namespace Disk

/-- Of what an operation asks for the disk refuses nothing, or one thing that leaves no trace: a
flag that was passed on stays where it is only if it cannot be forced out. -/
def Bears (disk : Disk) (op : Operation) : Prop :=
  disk.refusals = 0 ∨ disk.refusals = 1 ∧ (disk.forced = false ∨ ∃ r, op = .insert r)

end Disk

namespace Operation

/-- The operation on a disk that may refuse. -/
def runOn (disk : Disk) (op : Operation) : Work Store Answer :=
  op.runWith (commitOn disk) (syncOn disk)

end Operation

namespace Store

open Draft

/-- What an operation that the disk has stopped may leave of a file with these records: the flag of
the record that it takes out is set or not, and behind the records there is a part of the one that
it appends. -/
inductive Spoils (s : Schema) (file : Bytes) (records : List Stored) : Operation → Bytes → Prop
  | untouched (op : Operation) : Spoils s file records op file
  | inserted {r : Row} {bytes : Bytes} (fits : r.Fits s) (encoded : encode s r false = .ok bytes)
      (k : Nat) : Spoils s file records (.insert r) (file ++ bytes.take k)
  | deleted {id : Value} {x : Stored} (mem : x ∈ live records)
      (key : x.row.id.looseEq id = true) : Spoils s file records (.delete id) (file.set x.offset 1)
  | updated {r : Row} {x : Stored} {bytes image : Bytes} (mem : x ∈ live records)
      (key : x.row.id.looseEq r.id = true) (fits : r.Fits s)
      (encoded : encode s r false = .ok bytes)
      (partly : Partly file x.offset bytes image) : Spoils s file records (.update r) image
  | changed {id : Value} {changes : List (String × Value)} {x : Stored} {bytes image : Bytes}
      (mem : x ∈ live records) (key : x.row.id.looseEq id = true)
      (fits : (x.row.changed changes).Fits s)
      (encoded : encode s (x.row.changed changes) false = .ok bytes)
      (partly : Partly file x.offset bytes image) :
      Spoils s file records (.updateValues id changes) image

variable {s : Schema} {path : Path} {st : Store} {h : Handle} {w : World} {records : List Stored}
  {op : Operation} {a : Answer} {old : Option Stored} {new : Option Row} {c : Change} {b : Bool}
  {n : Nat}

/-! ## A change -/

theorem Opened.live_flag (ho : Opened s path st h w.files records) {x : Stored}
    (hx : x ∈ live records) : (w.files.nodeBytes h.node)[x.offset]? = some 0 := by
  obtain ⟨xs, ys, rfl, hdeleted⟩ := split_of_mem_live hx
  rw [ho.laid.retire.1, hdeleted]
  rfl

/-- What the disk makes of the change that puts a row in the place of a live one. -/
theorem Opened.triple_commit_replace {r : Row} {x : Stored}
    (ho : Opened s path st h w.files records)
    (hx : x ∈ live records) (hreplace : st.table.replace x.row r = .ok c) :
    ∃ bytes, encode s r false = .ok bytes ∧
      Triple (Clean b n (w.files.nodeBytes h.node))
        (Draft.commit (w.files.nodeBytes h.node).length c.patches)
        (fun _ => Clean b n (Patch.applyAll c.patches (w.files.nodeBytes h.node)))
        (fun d => 0 < n ∧ Partly (w.files.nodeBytes h.node) x.offset bytes d.file ∧
          (n = 1 → b = false → d.file = w.files.nodeBytes h.node)) := by
  have hsch : st.table.schema = s := ho.schema
  have hlive := ho.live_flag hx
  obtain ⟨xs, ys, rfl, hdeleted⟩ := split_of_mem_live hx
  obtain ⟨offset, bytes, hoffset, henc, hpatches⟩ := Table.replace_eq_ok hreplace
  rw [ho.holds.offset?_self hdeleted] at hoffset
  cases hoffset
  refine ⟨bytes, hsch ▸ henc, ?_⟩
  rw [applyAll_replace ho.holds hdeleted hreplace henc, hpatches, stop_eq_length ho.holds]
  exact Draft.triple_commit_replace hlive

/-- What the disk makes of the change that an operation has worked out. -/
theorem Planned.triple_commit (hp : Planned s (st, w) h records op a old new c)
    (ho : Opened s path st h w.files records) :
    Triple (Clean b n (w.files.nodeBytes h.node)) (Draft.commit st.index.stop c.patches)
      (fun _ => Clean b n (Patch.applyAll c.patches (w.files.nodeBytes h.node)))
      (fun d => 0 < n ∧ Spoils s (w.files.nodeBytes h.node) records op d.file ∧
        (n = 1 → (b = false ∨ ∃ r, op = .insert r) →
          d.file = w.files.nodeBytes h.node)) := by
  have hsch : st.table.schema = s := ho.schema
  have hstop : st.index.stop = (w.files.nodeBytes h.node).length := stop_eq_length ho.holds
  have hcommits := hp.commits
  have hfits := hp.fits
  rw [hstop]
  cases hcommits with
  | @insert r _ change =>
    obtain ⟨bytes, henc, hpatches⟩ := Table.add_eq_ok change
    rw [applyAll_add ho.holds change henc, hpatches, show st.table.index.stop = _ from hstop]
    refine triple_commit_add.mono (fun _ h => h) (fun _ _ h => h) fun d hd => ?_
    obtain ⟨hn, ⟨k, hk⟩, hone⟩ := hd
    exact ⟨hn, hk ▸ .inserted (hfits r rfl) (hsch ▸ henc) k, fun hn _ => hone hn⟩
  | @delete _ x _ mem key change =>
    obtain ⟨xs, ys, rfl, hx⟩ := split_of_mem_live mem
    obtain ⟨offset, hoffset, hpatches⟩ := Table.delete_eq_ok change
    rw [ho.holds.offset?_self hx] at hoffset
    cases hoffset
    rw [applyAll_delete ho.holds hx change, hpatches]
    refine (triple_commit_delete ho.holds.laid.offset_lt).mono (fun _ h => h)
      (fun _ _ h => h) fun d hd => ?_
    obtain ⟨hn, hfile | ⟨hb, hfile⟩⟩ := hd
    · exact ⟨hn, hfile ▸ .untouched _, fun _ _ => hfile⟩
    · refine ⟨hn, hfile ▸ .deleted mem key, fun _ hbears => ?_⟩
      have hunforced : b = false := hbears.resolve_right fun ⟨_, hr⟩ => nomatch hr
      cases hunforced.symm.trans hb
  | @update r x _ mem key change =>
    obtain ⟨bytes, henc, htriple⟩ := ho.triple_commit_replace (b := b) (n := n) mem change
    refine htriple.mono (fun _ h => h) (fun _ _ h => h) fun d hd => ?_
    obtain ⟨hn, hpartly, hone⟩ := hd
    exact ⟨hn, .updated mem key (hfits r rfl) henc hpartly, fun hn hbears =>
      hone hn (hbears.resolve_right fun ⟨_, hr⟩ => nomatch hr)⟩
  | @updateValues _ changes x r _ mem key merged change =>
    obtain ⟨bytes, henc, htriple⟩ := ho.triple_commit_replace (b := b) (n := n) mem change
    rw [Table.merge_eq (ho.holds.fits_of_live mem)] at merged
    obtain ⟨rfl, -, -⟩ := Row.change_eq_ok merged
    refine htriple.mono (fun _ h => h) (fun _ _ h => h) fun d hd => ?_
    obtain ⟨hn, hpartly, hone⟩ := hd
    exact ⟨hn, .changed mem key (hfits _ rfl) henc hpartly, fun hn hbears =>
      hone hn (hbears.resolve_right fun ⟨_, hr⟩ => nomatch hr)⟩

/-- A change is written as on any other disk, or the disk stops it. -/
theorem run_commitOn {disk : Disk} {file : Bytes} {E : Draft → Prop}
    (hfile : w.files.nodeBytes h.node = file)
    (ht : Triple (Clean disk.forced disk.refusals file) (Draft.commit st.index.stop c.patches)
      (fun _ => Clean disk.forced disk.refusals (Patch.applyAll c.patches file)) E) :
    (commitOn disk h c).run (st, w) = (commit h c).run (st, w) ∨
      ∃ why d, E d ∧ (commitOn disk h c).run (st, w) = (.error (.disk why),
        ({ st with handle := some h.discard },
          { w with files := w.files.setNode h.node d.file })) := by
  have hends := ht (.ofFile disk file) ⟨rfl, rfl, rfl, Nat.le_refl _⟩
  subst hfile
  unfold commitOn
  rw [run_bind_of_ok run_fileBytes, run_bind_of_ok (Work.run_state _)]
  generalize (Draft.commit st.index.stop c.patches).run (.ofFile disk (w.files.nodeBytes h.node)) =
    ending at hends ⊢
  obtain ⟨result, d⟩ := ending
  cases result with
  | ok u =>
    left
    have hd : d.file = Patch.applyAll c.patches (w.files.nodeBytes h.node) := hends.file
    dsimp only
    rw [hd]
    rfl
  | error why => exact .inr ⟨why, d, hends, rfl⟩

/-! ## An operation -/

/-- The disk has stopped an operation: its answer is that failure, the table and its index are as
they were, and the file is what the operation may leave of it, or unchanged where the disk bears the
operation. -/
structure Stopped (s : Schema) (path : Path) (st : Store) (file : Bytes) (records : List Stored)
    (op : Operation) (disk : Disk) (ending : Except Fault Answer × Store × World)
    (image : Bytes) : Prop where
  refused : 0 < disk.refusals
  answer : ∃ why, ending.1 = .error (.disk why)
  table : ending.2.1.table = st.table
  read : ending.2.2.files.read path = .ok image
  spoils : Spoils s file records op image
  borne : disk.Bears op → image = file

theorem Opened.read_setNode (ho : Opened s path st h w.files records) (image : Bytes) :
    (w.files.setNode h.node image).read path = .ok image := by
  unfold Files.read
  rw [Files.openFile_setNode, ho.opened]
  exact congrArg Except.ok (Files.nodeBytes_setNode image)

theorem Opened.runOn_planned (ho : Opened s path st h w.files records) (disk : Disk)
    (hp : Planned s (st, w) h records op a old new c) (hw : Writing (st, w) h op a c) :
    (op.runOn disk).run (st, w) = op.run.run (st, w) ∨
      ∃ image, Stopped s path st (w.files.nodeBytes h.node) records op disk
        ((op.runOn disk).run (st, w)) image := by
  obtain ⟨st₁, h₁, rest, htable, -, hnode, -, -, hwrites⟩ := hw
  have htriple := hp.triple_commit (b := disk.forced) (n := disk.refusals) ho
  have hindex : st.index = st₁.index := congrArg Table.index htable.symm
  rw [hindex] at htriple
  rw [← op.runWith_commit, hwrites]
  rcases run_commitOn (congrArg w.files.nodeBytes hnode) htriple with hsame | ⟨why, d, hd, hrun⟩
  · left
    rw [Operation.runOn, hwrites, run_bind, hsame, ← run_bind]
  · right
    obtain ⟨hrefusals, hspoils, hone⟩ := hd
    have hend : (op.runOn disk).run (st, w) =
        (.error (.disk why), ({ st₁ with handle := some h₁.discard },
        { w with files := w.files.setNode h.node d.file })) := by
      rw [Operation.runOn, hwrites, ← hnode]
      exact run_bind_of_error hrun
    rw [hend]
    refine ⟨d.file, hrefusals, ⟨why, rfl⟩, htable, ho.read_setNode d.file, hspoils,
      fun hbears => ?_⟩
    rcases hbears with hnone | ⟨hn, hbears⟩
    · omega
    · exact hone hn hbears

/-- On any disk an operation runs as it does elsewhere, or the disk stops it. -/
theorem Opened.runOn_ends (ho : Opened s path st h w.files records) (disk : Disk) (op : Operation) :
    (op.runOn disk).run (st, w) = op.run.run (st, w) ∨
      ∃ image, Stopped s path st (w.files.nodeBytes h.node) records op disk
        ((op.runOn disk).run (st, w)) image := by
  cases htarget : op.target?.isSome with
  | true =>
    rcases ho.planned htarget with ⟨e, st', hrefused⟩ | ⟨a, old, new, c, hp, hw⟩
    · left
      rw [← op.runWith_commit, Operation.runOn, hrefused, hrefused]
    · exact ho.runOn_planned disk hp hw
  | false =>
    cases op with
    | insert | update | updateValues | delete => cases htarget
    | select | selectAll | rowCount | rebuild => exact .inl rfl
    | reopen =>
      have hread := ho.read_eq
      rw [ho.place] at hread
      have hclean : Clean disk.forced disk.refusals [] (.ofFile disk []) :=
        ⟨rfl, rfl, rfl, Nat.le_refl _⟩
      have hends := triple_sync (.ofFile disk []) hclean
      generalize hsync : Draft.sync.run (.ofFile disk []) = ending at hends
      obtain ⟨result, d⟩ := ending
      cases result with
      | ok u =>
        have hsame : syncOn disk = pure () := by
          unfold syncOn
          rw [hsync]
        left
        unfold Operation.runOn
        rw [hsame]
        rfl
      | error why =>
        have hstop : syncOn disk = throw (.disk why) := by
          unfold syncOn
          rw [hsync]
        have hend : (Operation.reopen.runOn disk).run (st, w) = (.error (.disk why), (st, w)) := by
          unfold Operation.runOn
          rw [hstop]
          show (reopenWith (throw (.disk why)) >>= fun _ => pure Answer.done).run (st, w) = _
          unfold reopenWith closeWith
          simp only [bind_assoc]
          rw [run_bind_of_ok (Work.run_state _), run_bind_of_ok (Work.run_state _)]
          dsimp only
          rw [ho.handle]
          rfl
        rw [hend]
        obtain ⟨-, m, hrefusals, -⟩ := hends
        exact .inr ⟨_, by omega, ⟨why, rfl⟩, rfl, hread, .untouched _, fun _ => rfl⟩

/-! ## One operation after others -/

/-- Whatever operations brought a table from a missing or empty file to its state, and whichever
failed: each further one sets at most one flag and appends at most one record, and after any number
of them every record is where it was, deleted if it was.  A disk that refuses nothing makes no
difference to an operation, and on one that bears it the operation writes no more than its result
says.  On any other disk it may fail and leave the table as it is, with the flag of the record that
it was to take out set or not, and behind the records a part of the one that it was to append. -/
theorem append_only (s : Schema) (path : Path) (w : World) (hv : w.files.Vacant path)
    (ops : List Operation) :
    ∃ st w₁ answers st' w' file records,
      (openFile s path : Work Unit Store).run ((), w) = (.ok st, ((), w₁)) ∧
      (Operation.runAll ops).run (st, w₁) = (.ok answers, (st', w')) ∧
      w'.files.read path = .ok file ∧
      scan s none ⟨0, file⟩ = ⟨records, none, ⟨file.length, []⟩⟩ ∧
      (∀ x ∈ live records, file[x.offset]? = some 0) ∧
      (∀ op : Operation, ∃ file', (op.run.run (st', w')).2.2.files.read path = .ok file' ∧
        Writes s file records op (op.run.run (st', w')).1 file') ∧
      (∀ more : List Operation, ∃ file' records',
        ((Operation.runAll more).run (st', w')).2.2.files.read path = .ok file' ∧
        scan s none ⟨0, file'⟩ = ⟨records', none, ⟨file'.length, []⟩⟩ ∧
        Continues records records') ∧
      ∀ (op : Operation) (disk : Disk), ∃ file',
        ((op.runOn disk).run (st', w')).2.2.files.read path = .ok file' ∧
        (disk.refusals = 0 → (op.runOn disk).run (st', w') = op.run.run (st', w')) ∧
        (disk.Bears op → Writes s file records op ((op.runOn disk).run (st', w')).1 file') ∧
        (Writes s file records op ((op.runOn disk).run (st', w')).1 file' ∨
          (∃ why, ((op.runOn disk).run (st', w')).1 = .error (.disk why)) ∧
          ((op.runOn disk).run (st', w')).2.1.table = st'.table ∧
          Spoils s file records op file') := by
  obtain ⟨st, h, w₁, hopen, ho⟩ := exists_opened s hv
  obtain ⟨answers, st', h', w', records, hrun, ho'⟩ := Operation.runAll_opened ho ops
  have hread := ho'.read_eq
  rw [ho'.place] at hread
  have hstep (op : Operation) : ∃ file', (op.run.run (st', w')).2.2.files.read
      path = .ok file' ∧
      Writes s (w'.files.nodeBytes h'.node) records op (op.run.run (st', w')).1 file' := by
    generalize hresult : op.run.run (st', w') = ending
    obtain ⟨result, st'', w''⟩ := ending
    obtain ⟨h'', records'', ho'', hwrites⟩ := ho'.writes hresult
    have hread' := ho''.read_eq
    rw [ho''.place] at hread'
    exact ⟨_, hread', hwrites⟩
  refine ⟨st, w₁, answers, st', w', _, records, hopen, hrun, hread, ho'.laid.scan,
    fun x hx => ho'.live_flag hx, hstep, fun more => ?_, fun op disk => ?_⟩
  · obtain ⟨answers', st'', h'', w'', records'', hrun', ho'', hcontinues⟩ :=
      ho'.runAll_continues more
    have hread' := ho''.read_eq
    rw [ho''.place] at hread'
    rw [hrun']
    exact ⟨_, records'', hread', ho''.laid.scan, hcontinues⟩
  · rcases ho'.runOn_ends disk op with hsame | ⟨image, hstopped⟩
    · obtain ⟨file', hread', hwrites⟩ := hstep op
      rw [hsame]
      exact ⟨file', hread', fun _ => rfl, fun _ => hwrites, .inl hwrites⟩
    · obtain ⟨hrefused, ⟨why, hwhy⟩, htable, hread', hspoils, hborne⟩ := hstopped
      refine ⟨image, hread', fun hnone => by omega, fun hbears => ?_,
        .inr ⟨⟨why, hwhy⟩, htable, hspoils⟩⟩
      rw [hborne hbears, hwhy]
      exact .failed op _

theorem append_only_errands :
    Sample.world.files.Vacant Sample.table ∧
    ∃ st w₁ answers st' w' file records,
      (openFile Sample.people Sample.table : Work Unit Store).run ((), Sample.world) =
        (.ok st, ((), w₁)) ∧
      (Operation.runAll Sample.errands).run (st, w₁) = (.ok answers, (st', w')) ∧
      w'.files.read Sample.table = .ok file ∧
      scan Sample.people none ⟨0, file⟩ = ⟨records, none, ⟨file.length, []⟩⟩ ∧
      (∀ x ∈ live records, file[x.offset]? = some 0) ∧
      (∀ op : Operation, ∃ file', (op.run.run (st', w')).2.2.files.read
        Sample.table = .ok file' ∧
        Writes Sample.people file records op (op.run.run (st', w')).1 file') ∧
      (∀ more : List Operation, ∃ file' records',
        ((Operation.runAll more).run (st', w')).2.2.files.read Sample.table = .ok file' ∧
        scan Sample.people none ⟨0, file'⟩ = ⟨records', none, ⟨file'.length, []⟩⟩ ∧
        Continues records records') ∧
      ∀ (op : Operation) (disk : Disk), ∃ file',
        ((op.runOn disk).run (st', w')).2.2.files.read Sample.table = .ok file' ∧
        (disk.refusals = 0 → (op.runOn disk).run (st', w') = op.run.run (st', w')) ∧
        (disk.Bears op → Writes Sample.people file records op ((op.runOn disk).run (st', w')).1
          file') ∧
        (Writes Sample.people file records op ((op.runOn disk).run (st', w')).1 file' ∨
          (∃ why, ((op.runOn disk).run (st', w')).1 = .error (.disk why)) ∧
          ((op.runOn disk).run (st', w')).2.1.table = st'.table ∧
          Spoils Sample.people file records op file') :=
  ⟨Sample.vacant, append_only Sample.people Sample.table Sample.world Sample.vacant
    Sample.errands⟩

end Store

namespace Sample

/-- A row is inserted, and deleted on a disk that refuses to force out the flag: how the deletion
ends, the file before it and after it, and how many rows the index then holds. -/
def unforced : Work Unit (Except Fault Answer × Bytes × Bytes × Nat) := do
  let st ← openFile people table
  let (_, st) ← Work.beside st (Operation.insert (person 1 "ann" 30)).run
  let before ← Work.query fun fs => fs.read table
  let (result, st) ← Work.beside st
    ((Operation.delete (.int 1)).runOn ⟨true, [.granted, .refused .inputOutput]⟩)
  let after ← Work.query fun fs => fs.read table
  return (result, before, after, st.rowCount)

end Sample

namespace Store

/-- A deletion whose flag cannot be forced out fails, and leaves the flag set and the row in the
index. -/
theorem flag_unforced :
    (Sample.unforced.run ((), Sample.world)).1 = .ok (.error (.disk .inputOutput),
      [0, 0, 0, 0, 0, 0, 0, 0, 1, 0, 0, 0, 3, 97, 110, 110, 0, 0, 0, 0, 0, 0, 0, 30],
      [1, 0, 0, 0, 0, 0, 0, 0, 1, 0, 0, 0, 3, 97, 110, 110, 0, 0, 0, 0, 0, 0, 0, 30], 1) := by
  decide +kernel

end Store
end Tabulary
