import Tabulary.Proofs.Record.Leading
import Tabulary.Proofs.Store.Failure
import Tabulary.Proofs.Store.Telemetry
import Tabulary.Proofs.Table.Replay

/-!
Rebuilding the index of a table whose file holds any bytes at all.

A reading either meets a damaged record and is refused, with the file and the index left alone, or
it leaves the complete records at the front as the file, with the index that lists them; reading the
file once more, or opening the table again, then changes nothing (`rebuilt`).  An open store reads
through the bytes that it has read ahead, so of a file that somebody else has written to meanwhile
it may read what is no longer there (`rebuild_stale`).
-/

namespace Tabulary

open Record

namespace Store

variable {s : Schema} {path : Path} {st : Store} {h : Handle} {w : World} {records : List Stored}
  {file : Bytes}

/-- A store of a file that is some records one after another, with the index that is read from
them. -/
structure Fresh (s : Schema) (path : Path) (st : Store) (h : Handle) (fs : Files) (file : Bytes)
    (records : List Stored) : Prop extends Attached s path st h fs where
  bytes : fs.nodeBytes h.node = file
  laid : Laid s 0 records file
  table : st.table = ⟨s, Index.ofRecords s records⟩

/-- Reading such a file again finds the same records, up to its end. -/
theorem Fresh.scan_eq (hf : Fresh s path st h w.files file records) :
    scan st.schema none ⟨0, h.view (w.files.nodeBytes h.node) 0⟩ =
      ⟨records, none, ⟨file.length, []⟩⟩ := by
  rw [hf.schema, Handle.view_eq_drop hf.current, hf.bytes, List.drop_zero]
  exact hf.laid.scan

theorem trimmed_laid {fs : Files} {node : Nat} (hl : Laid s 0 records (fs.nodeBytes node)) :
    trimmed fs node (reach records) = fs := by
  rw [reach, hl.stop_eq, Nat.zero_add, trimmed, if_neg (Nat.lt_irrefl _)]

theorem Fresh.rebuild_again (hf : Fresh s path st h w.files file records) :
    ∃ st' w', rebuild.run (st, w) = (.ok (), (st', w')) ∧ w'.files = w.files ∧
      st'.table = st.table := by
  obtain ⟨w', hrun, hfiles⟩ := run_rebuild_of_clean hf.run_ensureOpen hf.scan_eq rfl
  refine ⟨_, w', hrun, ?_, ?_⟩
  · rw [hfiles]
    exact trimmed_laid (hf.bytes ▸ hf.laid)
  · show ({ st.table with index := Index.ofRecords st.schema records } : Table) = st.table
    rw [hf.schema, hf.table]

theorem Attached.run_close (ha : Attached s path st h w.files) :
    ∃ w', close.run (st, w) = (.ok (), ({ st with handle := none }, w')) ∧
    w'.files = w.files := by
  unfold close closeWith
  simp only [Attempt.run_bind _ _ (_, _), Work.run_state, ha.handle, Work.run_setState,
    Work.run_addOpenTables]
  exact ⟨_, rfl, rfl⟩

theorem Fresh.open_again (hf : Fresh s path st h w.files file records) :
    ∃ st' w', reopen.run (st, w) = (.ok (), (st', w')) ∧ w'.files = w.files ∧
      st'.table = st.table := by
  obtain ⟨w₁, hclose, hfiles₁⟩ := hf.run_close
  have hopen : w₁.files.openFile path = .ok h.node := hfiles₁ ▸ hf.opened
  have hscan : scan s none ⟨0, w₁.files.nodeBytes h.node⟩ =
      ⟨records, none, ⟨file.length, []⟩⟩ := by
    rw [hfiles₁, hf.bytes]
    exact hf.laid.scan
  obtain ⟨w₂, hrun, hfiles₂⟩ := run_openFile_of_clean ({ st with handle := none } : Store)
    (Files.readies_self hopen) hopen hscan rfl
  have hplace : openFile (σ := Store) st.schema st.path = openFile s path := by
    rw [hf.schema, hf.place]
  rw [reopen_eq, Attempt.run_bind_of_ok (Work.run_state _), Attempt.run_bind_of_ok hclose]
  dsimp only
  rw [hplace, Attempt.run_bind_of_ok hrun]
  refine ⟨_, w₂, rfl, ?_, ?_⟩
  · rw [hfiles₂, hfiles₁]
    exact trimmed_laid (hf.bytes ▸ hf.laid)
  · exact hf.table.symm

/-- What a reading of some bytes that succeeds leaves behind: the complete records at their front as
the file, the index that lists these records, and nothing for a second reading or opening to
change. -/
structure Settled (s : Schema) (path : Path) (bytes : Bytes) (st : Store) (w : World) (kept : Bytes)
    (records : List Stored) : Prop where
  leads : Leads s bytes kept records
  read : w.files.read path = .ok kept
  stop : st.index.stop = kept.length
  index : st.index.Lists s records
  again : ∃ st' w', rebuild.run (st, w) = (.ok (), (st', w')) ∧ w'.files = w.files ∧
    st'.table = st.table
  reopened : ∃ st' w', reopen.run (st, w) = (.ok (), (st', w')) ∧ w'.files = w.files ∧
    st'.table = st.table

theorem id_eq_key {r : Row} {own : List UInt8} (image : Image s r own) : r.id = .int r.key := by
  obtain ⟨n, hid, -⟩ := image.id_eq_int
  rw [Row.key, hid]
  rfl

theorem Fresh.settled (hf : Fresh s path st h w.files file records) {bytes : Bytes}
    (hleads : Leads s bytes file records) : Settled s path bytes st w file records := by
  have hlists : (Index.ofRecords s records).Lists s records := by
    refine Index.lists_ofRecords fun r hr => ?_
    obtain ⟨own, image⟩ := hf.laid.image_of_mem hr
    exact ⟨image.fits, id_eq_key image⟩
  have hindex : st.index = Index.ofRecords s records := by rw [index, hf.table]
  refine ⟨hleads, ?_, ?_, hindex ▸ hlists, hf.rebuild_again, hf.open_again⟩
  · rw [Files.read, hf.opened]
    exact congrArg Except.ok hf.bytes
  · rw [hindex, hlists.stop, reach, hf.laid.stop_eq, Nat.zero_add]

/-! ## Reading any bytes -/

/-- What refuses a damaged file. -/
theorem label_of_damaged {e : RecordError} (h : Damaged s file e) :
    (Fault.record e).label = "CorruptRecordError" := by
  obtain ⟨kept, records, -, -, hkind⟩ := h
  rcases hkind with ⟨flag, -, -, rfl⟩ | ⟨c, -, -, rfl⟩
  · rfl
  · rfl

theorem openFile_trimmed {fs : Files} {node stop : Nat} :
    (trimmed fs node stop).openFile path = fs.openFile path := by
  unfold trimmed
  split
  · exact Files.openFile_setNode _
  · rfl

theorem nodeBytes_trimmed {fs : Files} {node stop : Nat} :
    (trimmed fs node stop).nodeBytes node = (fs.nodeBytes node).take stop := by
  unfold trimmed
  split
  · exact Files.nodeBytes_setNode _
  · rename_i hstop
    rw [List.take_of_length_le (Nat.not_lt.mp hstop)]

/-- Bytes cut where their complete records end are these records. -/
theorem take_reach {kept : Bytes} (hleads : Leads s file kept records) :
    file.take (reach records) = kept := by
  have hreach : reach records = kept.length := by
    rw [reach, hleads.laid.stop_eq, Nat.zero_add]
  rw [hreach]
  exact (List.prefix_iff_eq_take.mp hleads.front).symm

/-- A file that is cut where its complete records end, and a store with the index of these. -/
theorem fresh_trimmed {fs : Files} {kept : Bytes} (hopen : fs.openFile path = .ok h.node)
    (hleads : Leads s (fs.nodeBytes h.node) kept records) (hplace : st.path = path)
    (hdropped : st.dropped = false) :
    Fresh s path { st with table := ⟨s, Index.ofRecords s records⟩, handle := some h.discard }
      h.discard (trimmed fs h.node (reach records)) kept records where
  schema := rfl
  place := hplace
  dropped := hdropped
  handle := rfl
  opened := openFile_trimmed.trans hopen
  current := Handle.agrees_discard h _
  bytes := nodeBytes_trimmed.trans (take_reach hleads)
  laid := hleads.laid
  table := rfl

/-- Rebuilding the index of an open store that has read nothing ahead but what its file holds. -/
theorem Attached.rebuild_cases (ha : Attached s path st h w.files) :
    (∃ e st', rebuild.run (st, w) = (.error (.record e), (st', w)) ∧
      Damaged s (w.files.nodeBytes h.node) e ∧ (Fault.record e).label = "CorruptRecordError" ∧
      st'.table = st.table) ∨
    ∃ st' w' kept records, rebuild.run (st, w) = (.ok (), (st', w')) ∧
      Settled s path (w.files.nodeBytes h.node) st' w' kept records := by
  obtain ⟨⟨schema, index⟩, place, handle, dropped⟩ := st
  obtain rfl : schema = s := ha.schema
  have hscan : scan schema none ⟨0, h.view (w.files.nodeBytes h.node) 0⟩ =
      scan schema none ⟨0, w.files.nodeBytes h.node⟩ := by
    rw [Handle.view_eq_drop ha.current, List.drop_zero]
  obtain ⟨⟨kept, hleads⟩, hdamaged⟩ := leads_scan schema (w.files.nodeBytes h.node)
  cases hbad : (scan schema none ⟨0, w.files.nodeBytes h.node⟩).corruption with
  | some e =>
    obtain ⟨h', hrun⟩ := run_rebuild_of_corruption ha.run_ensureOpen hscan hbad
    exact Or.inl ⟨e, _, hrun, hdamaged e hbad, label_of_damaged (hdamaged e hbad), rfl⟩
  | none =>
    obtain ⟨w', hrun, hfiles⟩ := run_rebuild_of_clean ha.run_ensureOpen hscan hbad
    have hfresh := fresh_trimmed ha.opened hleads ha.place ha.dropped
    rw [← show w'.files = trimmed w.files h.node (reach _) from hfiles] at hfresh
    exact Or.inr ⟨_, w', kept, _, hrun, hfresh.settled hleads⟩

/-- Opening a table whose file is there. -/
theorem openFile_cases {σ : Type} (y : σ) {node : Nat}
    (hopen : w.files.openFile path = .ok node) :
    (∃ e w', (openFile s path : Work σ Store).run (y, w) = (.error (.record e), (y, w')) ∧
      Damaged s (w.files.nodeBytes node) e ∧ (Fault.record e).label = "CorruptRecordError" ∧
      w'.files = w.files) ∨
    ∃ st w' kept records, (openFile s path : Work σ Store).run (y, w) = (.ok st, (y, w')) ∧
      Settled s path (w.files.nodeBytes node) st w' kept records := by
  obtain ⟨⟨kept, hleads⟩, hdamaged⟩ := leads_scan s (w.files.nodeBytes node)
  cases hbad : (scan s none ⟨0, w.files.nodeBytes node⟩).corruption with
  | some e =>
    obtain ⟨w', hrun⟩ := run_openFile_of_corruption y hopen rfl hbad
    have hread : w.files.read path = .ok (w.files.nodeBytes node) := by
      rw [Files.read, hopen]
      rfl
    exact Or.inl ⟨e, w', hrun, hdamaged e hbad, label_of_damaged (hdamaged e hbad),
      files_of_openFile_error hread hrun⟩
  | none =>
    obtain ⟨w', hrun, hfiles⟩ :=
      run_openFile_of_clean y (Files.readies_self hopen) hopen rfl hbad
    let st : Store := ⟨Table.empty s, path, none, false⟩
    have hfresh := fresh_trimmed (h := ⟨node, none⟩) hopen hleads (rfl : st.path = path) rfl
    rw [← show w'.files = trimmed w.files node (reach _) from hfiles] at hfresh
    exact Or.inr ⟨_, w', kept, _, hrun, hfresh.settled hleads⟩

/-- Whatever bytes the file of a table holds, opening it, and rebuilding the index of a store that
has it open and has read nothing ahead but what the file holds, is refused for a damaged record or
leaves the complete records at the front with the index that lists them. -/
theorem rebuilt (s : Schema) (path : Path) (w : World) (bytes : Bytes)
    (hread : w.files.read path = .ok bytes) :
    ((∃ e w', (openFile s path : Work Unit Store).run ((), w) = (.error (.record e), ((), w')) ∧
        Damaged s bytes e ∧ (Fault.record e).label = "CorruptRecordError" ∧
        w'.files = w.files) ∨
      ∃ st w' kept records, (openFile s path : Work Unit Store).run ((), w) =
        (.ok st, ((), w')) ∧ Settled s path bytes st w' kept records) ∧
    ∀ st h, Attached s path st h w.files →
      (∃ e st', rebuild.run (st, w) = (.error (.record e), (st', w)) ∧ Damaged s bytes e ∧
        (Fault.record e).label = "CorruptRecordError" ∧ st'.table = st.table) ∨
      ∃ st' w' kept records, rebuild.run (st, w) = (.ok (), (st', w')) ∧
        Settled s path bytes st' w' kept records := by
  obtain ⟨node, hopen, hbytes⟩ : ∃ node, w.files.openFile path = .ok node ∧
      w.files.nodeBytes node = bytes := by
    unfold Files.read at hread
    cases hnode : w.files.openFile path with
    | error e =>
      rw [hnode] at hread
      cases hread
    | ok node =>
      rw [hnode] at hread
      exact ⟨node, rfl, Except.ok.inj hread⟩
  constructor
  · rw [← hbytes]
    exact openFile_cases () hopen
  · intro st h ha
    have hnode : h.node = node := Except.ok.inj (ha.opened.symm.trans hopen)
    rw [← hbytes, ← hnode]
    exact ha.rebuild_cases

end Store

namespace Sample

open Store

theorem attached_damaged : Attached people table attached ⟨0, none⟩ damaged.files where
  schema := rfl
  place := rfl
  dropped := rfl
  handle := rfl
  opened := rfl
  current := Handle.agrees_discard ⟨0, none⟩ _

end Sample

namespace Store

/-- A file that begins with a byte that is no flag, opened and under a store that has it open. -/
theorem rebuilt_damaged :
    Sample.damaged.files.read Sample.table = .ok [7] ∧
    Attached Sample.people Sample.table Sample.attached ⟨0, none⟩ Sample.damaged.files ∧
    ((∃ e w', (openFile Sample.people Sample.table : Work Unit Store).run ((), Sample.damaged) =
          (.error (.record e), ((), w')) ∧
        Damaged Sample.people [7] e ∧ (Fault.record e).label = "CorruptRecordError" ∧
        w'.files = Sample.damaged.files) ∨
      ∃ st w' kept records, (openFile Sample.people Sample.table : Work Unit Store).run
          ((), Sample.damaged) = (.ok st, ((), w')) ∧
        Settled Sample.people Sample.table [7] st w' kept records) ∧
    ((∃ e st', rebuild.run (Sample.attached, Sample.damaged) =
          (.error (.record e), (st', Sample.damaged)) ∧
        Damaged Sample.people [7] e ∧ (Fault.record e).label = "CorruptRecordError" ∧
        st'.table = Sample.attached.table) ∨
      ∃ st' w' kept records, rebuild.run (Sample.attached, Sample.damaged) =
        (.ok (), (st', w')) ∧ Settled Sample.people Sample.table [7] st' w' kept records) := by
  obtain ⟨hopen, hrebuild⟩ := rebuilt Sample.people Sample.table Sample.damaged [7] rfl
  exact ⟨rfl, Sample.attached_damaged, hopen, hrebuild _ _ Sample.attached_damaged⟩

end Store

/-! ## A file that others write to -/

namespace Sample

open Store

/-- Two rows, and a change that is refused after the file has been read ahead. -/
def ahead : List Operation :=
  [.insert (person 1 "ann" 30), .insert (person 2 "bo" 5),
    .updateValues (.int 1) [("name", .text "bo")]]

/-- The files with an empty table. -/
def begun : Files := ⟨"/srv/", [(table, .file 0)], [(0, [])], 1⟩

/-- The bytes of the two rows behind the first flag. -/
def unflagged : Bytes :=
  [0, 0, 0, 0, 0, 0, 0, 1, 0, 0, 0, 3, 97, 110, 110, 0, 0, 0, 0, 0, 0, 0, 30,
    0, 0, 0, 0, 0, 0, 0, 0, 2, 0, 0, 0, 2, 98, 111, 0, 0, 0, 0, 0, 0, 0, 5]

def aheadRecords : List Stored :=
  [⟨0, 24, (person 1 "ann" 30).stored people false⟩,
    ⟨24, 23, (person 2 "bo" 5).stored people false⟩]

/-- The store after these operations: the whole file is read ahead, and not used up. -/
def aheadStore : Store :=
  ⟨⟨people, ⟨[(1, 0), (2, 24)], [("name", [.text "ann", .text "bo"])], 47⟩⟩, table,
    some ⟨0, some ⟨0, 0 :: unflagged, 24⟩⟩, false⟩

theorem readies_begun : world.files.Readies table begun :=
  Files.Readies.made (by rw [Files.ensureDirectory]; rfl) rfl rfl

/-- The same operations on the files written out. -/
theorem run_begun :
    ((Operation.runAll ahead).run (onRecords people table 0 [], { world with files := begun })).1 =
        .ok [.ok .done, .ok .done, .error (.engine (.valueTaken "name" (.text "bo")))] ∧
      ((Operation.runAll ahead).run (onRecords people table 0 [],
        { world with files := begun })).2.1 = aheadStore ∧
      ((Operation.runAll ahead).run
          (onRecords people table 0 [], { world with files := begun })).2.2.files =
        begun.setNode 0 (0 :: unflagged) :=
  ⟨by rfl, by rfl, by rfl⟩

theorem run_ahead :
    ∃ st w₁ w', (openFile people table : Work Unit Store).run ((), world) =
      (.ok st, ((), w₁)) ∧
      (Operation.runAll ahead).run (st, w₁) =
        (.ok [.ok .done, .ok .done, .error (.engine (.valueTaken "name" (.text "bo")))],
          (aheadStore, w')) ∧
      w'.files = begun.setNode 0 (0 :: unflagged) := by
  have hlaid : Laid people 0 [] (begun.nodeBytes 0) := Laid.nil 0
  obtain ⟨w₁, hopen, hfiles, -⟩ :=
    run_openFile () readies_begun rfl hlaid (Table.holds_empty people).distinct
  obtain ⟨hanswers, hstore, hend⟩ := Operation.runAll_alike ahead
    (onRecords people table 0 [], w₁) (onRecords people table 0 [], { world with files := begun })
    ⟨rfl, hfiles⟩
  obtain ⟨hanswers', hstore', hend'⟩ := run_begun
  generalize hrun : (Operation.runAll ahead).run (onRecords people table 0 [], w₁) = ending
    at hanswers hstore hend
  obtain ⟨answers, st', w'⟩ := ending
  have hanswer := hanswers.trans hanswers'
  have hreached := hstore.trans hstore'
  refine ⟨_, w₁, w', hopen, ?_, hend.trans hend'⟩
  rw [hrun, show answers = _ from hanswer, show st' = aheadStore from hreached]

theorem scan_ahead :
    scan people none ⟨0, 0 :: unflagged⟩ = ⟨aheadRecords, none, ⟨47, []⟩⟩ := by
  have hfirst : (Decoder.record people).run ⟨0, 0 :: unflagged⟩ =
      (.ok (some ⟨0, 24, (person 1 "ann" 30).stored people false⟩),
        ⟨24, unflagged.drop 23⟩) := by
    decide +kernel
  have hsecond : (Decoder.record people).run ⟨24, unflagged.drop 23⟩ =
      (.ok (some ⟨24, 23, (person 2 "bo" 5).stored people false⟩), ⟨47, []⟩) := by
    decide +kernel
  rw [scan_of_some (by simp) hfirst, scan_of_some (by simp) hsecond,
    scan_of_none (by simp) (Decoder.run_record_nil 47)]
  rfl

theorem run_unknown_flag :
    (Decoder.record people).run ⟨0, 7 :: unflagged⟩ =
      (.error (.unknownFlag 7 0), ⟨1, unflagged⟩) := by
  rfl

theorem damaged_ahead : Damaged people (7 :: unflagged) (.unknownFlag 7 0) := by
  refine (leads_scan people (7 :: unflagged)).2 _ ?_
  rw [scan_of_error (by simp) run_unknown_flag]
  rfl

end Sample

namespace Store

/-- An index is rebuilt from what was read ahead: while the store was open somebody else has damaged
the first record, and rebuilding succeeds, leaves the damaged bytes as the file, and keeps the
rows. -/
theorem rebuild_stale :
    ∃ st w₁ st' w' torn st'' w'',
      (openFile Sample.people Sample.table : Work Unit Store).run ((), Sample.world) =
        (.ok st, ((), w₁)) ∧
      (Operation.runAll Sample.ahead).run (st, w₁) =
        (.ok [.ok .done, .ok .done, .error (.engine (.valueTaken "name" (.text "bo")))],
          (st', w')) ∧
      w'.files.read Sample.table = .ok (0 :: Sample.unflagged) ∧
      w'.files.write Sample.table (7 :: Sample.unflagged) = .ok torn ∧
      Damaged Sample.people (7 :: Sample.unflagged) (.unknownFlag 7 0) ∧
      rebuild.run (st', { w' with files := torn }) = (.ok (), (st'', w'')) ∧
      w''.files.read Sample.table = .ok (7 :: Sample.unflagged) ∧ st''.rowCount = 2 ∧
      ¬∃ kept records,
        Settled Sample.people Sample.table (7 :: Sample.unflagged) st'' w'' kept records := by
  obtain ⟨st, w₁, w', hopen, hrun, hfiles⟩ := Sample.run_ahead
  let torn := Sample.begun.setNode 0 (7 :: Sample.unflagged)
  have hwrite : w'.files.write Sample.table (7 :: Sample.unflagged) = .ok torn := by
    rw [hfiles]
    rfl
  have hread : w'.files.read Sample.table = .ok (0 :: Sample.unflagged) := by
    rw [hfiles]
    rfl
  let h : Handle := ⟨0, some ⟨0, 0 :: Sample.unflagged, 24⟩⟩
  have hensure : ensureOpen.run (Sample.aheadStore, { w' with files := torn }) =
      (.ok h, (Sample.aheadStore, { w' with files := torn })) := rfl
  obtain ⟨w'', hrebuild, hleft⟩ := run_rebuild_of_clean hensure Sample.scan_ahead rfl
  have hbytes : w''.files.read Sample.table = .ok (7 :: Sample.unflagged) := by
    rw [hleft]
    rfl
  refine ⟨st, w₁, Sample.aheadStore, w', torn, _, w'', hopen, hrun, hread, hwrite,
    Sample.damaged_ahead, hrebuild, hbytes, rfl, ?_⟩
  intro hsettled
  obtain ⟨kept, records, hsettled⟩ := hsettled
  have hkept := hsettled.read
  rw [hbytes, Except.ok.injEq] at hkept
  -- The file is not records one after another, as its first byte is the flag of none.
  have hscan := hsettled.leads.laid.scan
  rw [← hkept, scan_of_error (by simp) Sample.run_unknown_flag] at hscan
  cases hscan

end Store
end Tabulary
