import Tabulary.Proofs.Store.Opened

/-!
The operations that only read, and those that read the whole file: rebuilding the index, and
opening the file of a table, for the first time or again.
-/

namespace Tabulary
namespace Store

open Record

variable {s : Schema} {path : Path} {st : Store} {h : Handle} {w : World} {records : List Stored}

theorem Attached.read_eq (ha : Attached s path st h w.files) :
    w.files.read st.path = .ok (w.files.nodeBytes h.node) := by
  rw [Files.read, ha.place, ha.opened]
  rfl

theorem Opened.select_ends (ho : Opened s path st h w.files records) (id : Value) :
    Ends s path w.files records ((select id).run (st, w))
      (.ok ((liveRows records).find id, liveRows records)) := by
  unfold select
  rw [Attempt.run_bind_of_ok ho.run_ensureOpen]
  simp only [Attempt.run_bind _ _ (_, _), Work.run_state, Work.run_count, index]
  rcases ho.holds.find_cases id with ⟨xs, x, ys, rfl, hx, -, hfind, hoffset⟩ |
    ⟨hfind, hoffset⟩
  · obtain ⟨c, hrun⟩ := ho.holds.laid.run_record
    rw [hoffset, hfind]
    simp only [Attempt.run_bind _ _ (_, _), Work.run_query, ho.read_eq,
      show st.schema = st.table.schema from rfl, hrun, Stored.isLive, hx]
    exact Ends.ok ho Rewrites.same
  · rw [hoffset, hfind]
    exact Ends.ok ho Rewrites.same

theorem Opened.selectAll_ends (ho : Opened s path st h w.files records) :
    Ends s path w.files records (selectAll.run (st, w))
    (.ok (liveRows records, liveRows records)) := by
  have hstop : st.index.stop = (w.files.nodeBytes h.node).length := by
    rw [index, ho.holds.index]
    rfl
  unfold selectAll
  rw [Attempt.run_bind_of_ok ho.run_ensureOpen]
  simp only [Attempt.run_bind _ _ (_, _), Work.run_state, Work.run_count, Work.run_query,
    ho.read_eq, show st.schema = st.table.schema from rfl, hstop, ho.holds.laid.scan_stop]
  exact Ends.ok ho Rewrites.same

theorem Opened.rowCount_eq (ho : Opened s path st h w.files records) :
    st.rowCount = (liveRows records).length := by
  rw [rowCount, Table.rowCount, ho.holds.index, Index.ofLive, List.length_map, liveRows,
    List.length_map]

/-- A damaged record stops the reading of the file, and nothing is replaced. -/
theorem run_rebuild_of_corruption (hopen : ensureOpen.run (st, w) = (.ok h, (st, w))) {found : Scan}
    (hscan : scan st.schema none ⟨0, h.view (w.files.nodeBytes h.node) 0⟩ = found)
    {e : RecordError} (hbad : found.corruption = some e) :
    ∃ h', rebuild.run (st, w) = (.error (.record e), ({ st with handle := some h' }, w)) := by
  refine ⟨h.advance (w.files.nodeBytes h.node) 0 found.cursor.position, ?_⟩
  unfold rebuild
  rw [Attempt.run_bind_of_ok hopen]
  simp only [Attempt.run_bind _ _ (_, _), Work.run_state, run_fileBytes, hscan, hbad, run_setHandle,
    Attempt.run_throw]

/-- The file without the bytes behind the last complete record. -/
def trimmed (fs : Files) (node stop : Nat) : Files :=
  if stop < (fs.nodeBytes node).length then fs.setNode node ((fs.nodeBytes node).take stop) else fs

/-- A reading that meets no damaged record replaces the index, and cuts the file behind the last
complete record. -/
theorem run_rebuild_of_clean (hopen : ensureOpen.run (st, w) = (.ok h, (st, w))) {found : Scan}
    (hscan : scan st.schema none ⟨0, h.view (w.files.nodeBytes h.node) 0⟩ = found)
    (hclean : found.corruption = none) :
    ∃ w', rebuild.run (st, w) = (.ok (),
        ({ st with
            table := { st.table with index := Index.ofRecords st.schema found.records }
            handle := some h.discard }, w')) ∧
      w'.files = trimmed w.files h.node found.stop := by
  unfold rebuild trimmed
  rw [Attempt.run_bind_of_ok hopen]
  simp only [Attempt.run_bind _ _ (_, _), Work.run_state, run_fileBytes, hscan, hclean,
    run_setHandle, Work.run_pathText]
  split
  · exact ⟨_, rfl, rfl⟩
  · exact ⟨_, rfl, rfl⟩

/-- Reading the records again gives the index that belongs to them, whatever the index was. -/
theorem Attached.run_rebuild (ha : Attached s path st h w.files)
    (hl : Laid s 0 records (w.files.nodeBytes h.node)) (hd : Rows.Distinct s (liveRows records)) :
    ∃ st' w', rebuild.run (st, w) = (.ok (), (st', w')) ∧ w'.files = w.files ∧
      Opened s path st' h.discard w'.files records := by
  obtain ⟨⟨schema, index⟩, place, handle, dropped⟩ := st
  obtain rfl : schema = s := ha.schema
  have hscan : scan schema none ⟨0, h.view (w.files.nodeBytes h.node) 0⟩ =
      ⟨records, none, ⟨(w.files.nodeBytes h.node).length, []⟩⟩ := by
    rw [Handle.view_eq_drop ha.current, List.drop_zero, hl.scan]
  obtain ⟨w', hrun, hfiles⟩ := run_rebuild_of_clean ha.run_ensureOpen hscan rfl
  rw [Scan.stop, hl.stop_eq, Nat.zero_add, trimmed, if_neg (Nat.lt_irrefl _)] at hfiles
  refine ⟨_, w', hrun, hfiles, ?_⟩
  rw [hfiles]
  exact {
    schema := rfl
    place := ha.place
    dropped := ha.dropped
    handle := rfl
    opened := ha.opened
    current := Handle.agrees_discard h _
    holds := Table.holds_ofRecords hl hd }

theorem Opened.rebuild_ends (ho : Opened s path st h w.files records) :
    Ends s path w.files records (rebuild.run (st, w)) (.ok ((), liveRows records)) := by
  have hschema : st.table.schema = s := ho.schema
  obtain ⟨st', w', hrun, hfiles, ho'⟩ :=
    ho.toAttached.run_rebuild (hschema ▸ ho.holds.laid) (hschema ▸ ho.holds.distinct)
  rw [hrun]
  exact Ends.ok ho' (hfiles ▸ Rewrites.same)

/-! ## Opening -/

/-- The store that has just been opened on some records. -/
def onRecords (s : Schema) (path : Path) (node : Nat) (records : List Stored) : Store :=
  ⟨⟨s, Index.ofRecords s records⟩, path, some ⟨node, none⟩, false⟩

theorem opened_onRecords {fs : Files} {node : Nat} (hopen : fs.openFile path = .ok node)
    (hl : Laid s 0 records (fs.nodeBytes node)) (hd : Rows.Distinct s (liveRows records)) :
    Opened s path (onRecords s path node records) ⟨node, none⟩ fs records where
  schema := rfl
  place := rfl
  dropped := rfl
  handle := rfl
  opened := hopen
  current := Handle.agrees_discard ⟨node, none⟩ _
  holds := Table.holds_ofRecords hl hd

/-- Opening a file without a damaged record gives a store of its complete records. -/
theorem run_openFile_of_clean {σ : Type} (y : σ) {fs : Files} {node : Nat}
    (hr : w.files.Readies path fs) (hopen : fs.openFile path = .ok node) {found : Scan}
    (hscan : scan s none ⟨0, fs.nodeBytes node⟩ = found) (hclean : found.corruption = none) :
    ∃ w', (openFile s path : Work σ Store).run (y, w) =
        (.ok (onRecords s path node found.records), (y, w')) ∧
      w'.files = trimmed fs node found.stop := by
  let w₁ : World :=
    ⟨fs, ⟨w.metrics.counts, w.metrics.openTables + 1⟩, w.events, w.spans,
      w.database, w.opened⟩
  let st : Store := ⟨Table.empty s, path, some ⟨node, none⟩, false⟩
  have hensure : ensureOpen.run (st, w₁) = (.ok ⟨node, none⟩, (st, w₁)) := rfl
  obtain ⟨w', hrun, hfiles⟩ := run_rebuild_of_clean hensure hscan hclean
  refine ⟨w', ?_, hfiles⟩
  unfold openFile
  cases hr with
  | there directory there =>
    simp only [Attempt.run_bind _ _ (_, _), Work.run_ensureDirectory, directory, Work.run_query,
      there, Bool.not_true, Bool.false_eq_true, if_false, hopen, Work.run_addOpenTables,
      Work.run_beside, st, w₁] at hrun ⊢
    rw [hrun]
    rfl
  | made directory missing made =>
    simp only [Attempt.run_bind _ _ (_, _), Work.run_ensureDirectory, directory, Work.run_query,
      missing, Bool.not_false, if_true, Work.run_change, made, Except.map, hopen,
      Work.run_addOpenTables, Work.run_beside, st, w₁] at hrun ⊢
    rw [hrun]
    rfl

/-- Opening the file of a table gives a store of the records that the file holds. -/
theorem run_openFile {σ : Type} (y : σ) {fs : Files} {node : Nat} (hr : w.files.Readies path fs)
    (hopen : fs.openFile path = .ok node) (hl : Laid s 0 records (fs.nodeBytes node))
    (hd : Rows.Distinct s (liveRows records)) :
    ∃ w', (openFile s path : Work σ Store).run (y, w) =
        (.ok (onRecords s path node records), (y, w')) ∧ w'.files = fs ∧
      Opened s path (onRecords s path node records) ⟨node, none⟩ w'.files records := by
  obtain ⟨w', hrun, hfiles⟩ := run_openFile_of_clean y hr hopen hl.scan rfl
  rw [Scan.stop, hl.stop_eq, Nat.zero_add, trimmed, if_neg (Nat.lt_irrefl _)] at hfiles
  refine ⟨w', hrun, hfiles, ?_⟩
  rw [hfiles]
  exact opened_onRecords hopen hl hd

/-- Opening a damaged file fails. -/
theorem run_openFile_of_corruption {σ : Type} (y : σ) {node : Nat}
    (hopen : w.files.openFile path = .ok node) {found : Scan}
    (hscan : scan s none ⟨0, w.files.nodeBytes node⟩ = found) {e : RecordError}
    (hbad : found.corruption = some e) :
    ∃ w', (openFile s path : Work σ Store).run (y, w) = (.error (.record e), (y, w')) := by
  let w₁ : World :=
    ⟨w.files, ⟨w.metrics.counts, w.metrics.openTables + 1⟩, w.events, w.spans,
      w.database, w.opened⟩
  let st : Store := ⟨Table.empty s, path, some ⟨node, none⟩, false⟩
  have hensure : ensureOpen.run (st, w₁) = (.ok ⟨node, none⟩, (st, w₁)) := rfl
  obtain ⟨h, hrun⟩ := run_rebuild_of_corruption hensure hscan hbad
  unfold openFile
  simp only [Attempt.run_bind _ _ (_, _), Work.run_ensureDirectory, Work.run_query, Work.run_beside,
    Files.ensureDirectory_of_openFile hopen, Files.isThere_of_openFile hopen, hopen,
    Work.run_addOpenTables, Bool.not_true, Bool.false_eq_true, if_false, st, w₁] at hrun ⊢
  rw [hrun]
  exact ⟨_, rfl⟩

/-- Closes the file, once it is forced out, and opens the table again. -/
def reopenWith (sync : Work Store Unit) : Work Store Unit := do
  let s ← Work.state
  closeWith sync
  Work.setState (← openFile s.schema s.path)

def reopen : Work Store Unit := reopenWith (pure ())

theorem reopen_eq : reopen = (do
    let s ← Work.state
    close
    Work.setState (← openFile s.schema s.path)) := rfl

/-- Opening the table again reads the same records, and changes no file. -/
theorem Opened.run_reopen (ho : Opened s path st h w.files records) :
    ∃ st' h' w', reopen.run (st, w) = (.ok (), (st', w')) ∧ w'.files = w.files ∧
      Opened s path st' h' w'.files records := by
  have hschema : st.table.schema = s := ho.schema
  let closed : Store := { st with handle := none }
  let w₁ : World :=
    ⟨w.files, ⟨w.metrics.counts, w.metrics.openTables + -1⟩, w.events, w.spans, w.database,
      w.opened⟩
  obtain ⟨w', hrun, hfiles, ho'⟩ :=
    run_openFile (w := w₁) closed (Files.readies_self ho.opened) ho.opened
      (hschema ▸ ho.holds.laid) (hschema ▸ ho.holds.distinct)
  have hclose : close.run (st, w) = (.ok (), (closed, w₁)) := by
    unfold close closeWith
    simp only [Attempt.run_bind _ _ (_, _), Work.run_state, ho.handle, Work.run_setState,
      Work.run_addOpenTables]
    rfl
  refine ⟨_, _, w', ?_, hfiles, ho'⟩
  rw [reopen_eq, Attempt.run_bind_of_ok (Work.run_state _), Attempt.run_bind_of_ok hclose]
  simp only [ho.schema, ho.place]
  rw [Attempt.run_bind_of_ok hrun]
  rfl

theorem Opened.reopen_ends (ho : Opened s path st h w.files records) :
    Ends s path w.files records (reopen.run (st, w)) (.ok ((), liveRows records)) := by
  obtain ⟨st', h', w', hrun, hfiles, ho'⟩ := ho.run_reopen
  rw [hrun]
  exact Ends.ok ho' (hfiles.symm ▸ Rewrites.same)

end Store
end Tabulary
