import Tabulary.Proofs.Record.Cut
import Tabulary.Proofs.Store.Telemetry

/-!
Opening a table whose file was cut short.  Whatever the cut, the store begins with the complete
records, on a file that ends with the last of them, and from there on it cannot be told from a store
whose file never had a torn end (`open_torn`).
-/

namespace Tabulary
namespace Store

open Record

variable {s : Schema} {path : Path} {records : List Stored} {file : Bytes}

theorem trimmed_setNode (fs : Files) (node : Nat) (bytes : Bytes) (stop : Nat) :
    trimmed (fs.setNode node bytes) node stop = fs.setNode node (bytes.take stop) := by
  unfold trimmed
  rw [Files.nodeBytes_setNode]
  split
  · exact Files.setNode_setNode bytes _
  · rename_i hstop
    rw [List.take_of_length_le (Nat.not_lt.mp hstop)]

/-- Files that were written at one place differ in what was written there. -/
theorem write_cases {fs fs' : Files} {bytes : Bytes} (h : fs.write path bytes = .ok fs') :
    ∃ (node : Nat) (base : Files),
      (∀ other, fs.write path other = .ok (base.setNode node other)) ∧
      fs' = base.setNode node bytes ∧
      ∀ other, (base.setNode node other).openFile path = .ok node := by
  unfold Files.write at h
  cases hmade : fs.create path with
  | error e =>
    rw [hmade] at h
    cases h
  | ok made =>
    obtain ⟨node, base⟩ := made
    rw [hmade] at h
    cases h
    refine ⟨node, base, fun other => ?_, rfl, fun other => ?_⟩
    · rw [Files.write, hmade]
      rfl
    · rw [Files.openFile_setNode]
      exact (Files.openFile_of_create hmade).1

theorem distinct_whole (hd : Rows.Distinct s (liveRows records)) (k : Nat) :
    Rows.Distinct s (liveRows (whole records k)) :=
  hd.sublist ((List.filter_sublist.filter _).map _)

/-- Opening on the first bytes of a file gives the store of the complete records among them, and
leaves these records as the file. -/
theorem run_openFile_cut {σ : Type} (y : σ) (hl : Laid s 0 records file) (k : Nat) {w : World}
    {base : Files} {node : Nat} (hfiles : w.files = base.setNode node (file.take k))
    (hopen : (base.setNode node (file.take k)).openFile path = .ok node) :
    ∃ w', (openFile s path : Work σ Store).run (y, w) =
        (.ok (onRecords s path node (whole records k)), (y, w')) ∧
      w'.files = base.setNode node (file.take (reach (whole records k))) := by
  obtain ⟨hrecords, hclean, -, hle⟩ := hl.scan_cut k
  rw [← hfiles] at hopen
  have hbytes : w.files.nodeBytes node = file.take k := by
    rw [hfiles, Files.nodeBytes_setNode]
  obtain ⟨w', hrun, hw'⟩ := run_openFile_of_clean y (Files.readies_self hopen) hopen
    (congrArg (fun bytes => scan s none ⟨0, bytes⟩) hbytes) hclean
  have hstop : (scan s none ⟨0, file.take k⟩).stop = reach (whole records k) :=
    congrArg reach hrecords
  rw [hrecords] at hrun
  rw [hfiles, trimmed_setNode, hstop, List.take_take, Nat.min_eq_left hle] at hw'
  exact ⟨w', hrun, hw'⟩

/-- Opening the table on files with a torn end succeeds, and leaves the kept bytes as its file.  The
store has exactly these records, and whatever follows goes as on files that held the kept bytes from
the beginning. -/
def Recovers (s : Schema) (path : Path) (u : World) (torn : Files) (kept : Bytes)
    (records : List Stored) : Prop :=
  ∃ st u₁ clean u₂,
    (openFile s path : Work Unit Store).run ((), { u with files := torn }) =
    (.ok st, ((), u₁)) ∧ u₁.files.read path = .ok kept ∧ Sound s st kept records ∧
    (selectAll.run (st, u₁)).1 = .ok (liveRows records) ∧
    u.files.write path kept = .ok clean ∧
    (openFile s path : Work Unit Store).run ((), { u with files := clean }) =
    (.ok st, ((), u₂)) ∧ ∀ more : List Operation,
      ((Operation.runAll more).run (st, u₁)).1 = ((Operation.runAll more).run (st, u₂)).1 ∧
      Alike ((Operation.runAll more).run (st, u₁)).2 ((Operation.runAll more).run (st, u₂)).2

theorem recovers_cut (hl : Laid s 0 records file) (hd : Rows.Distinct s (liveRows records))
    (k : Nat) {u : World} {torn : Files} (hw : u.files.write path (file.take k) = .ok torn) :
    Recovers s path u torn (file.take (reach (whole records k))) (whole records k) := by
  obtain ⟨node, base, hwrite, rfl, hopen⟩ := write_cases hw
  obtain ⟨-, -, hkept, hle⟩ := hl.scan_cut k
  obtain ⟨u₁, hrun₁, hfiles₁⟩ := run_openFile_cut () hl k
    (w := { u with files := base.setNode node (file.take k) }) rfl (hopen _)
  -- The file without the torn end is cut at its own end.
  obtain ⟨u₂, hrun₂, hfiles₂⟩ := run_openFile_cut () hl (reach (whole records k))
    (w := { u with files := base.setNode node (file.take (reach (whole records k))) }) rfl (hopen _)
  have hwhole : whole records (reach (whole records k)) = whole records k := by
    obtain ⟨hrecords, -⟩ := hl.scan_cut (reach (whole records k))
    rw [← hrecords, hkept.scan]
  rw [hwhole] at hrun₂ hfiles₂
  have hfile : (base.setNode node (file.take (reach (whole records k)))).nodeBytes node =
      file.take (reach (whole records k)) := Files.nodeBytes_setNode _
  have ho : Opened s path (onRecords s path node (whole records k)) ⟨node, none⟩ u₁.files
      (whole records k) := by
    rw [hfiles₁]
    exact opened_onRecords (hopen _) (hfile.symm ▸ hkept) (distinct_whole hd k)
  have hsound := ho.sound
  have hread := ho.read_eq
  rw [hfiles₁, hfile] at hsound hread
  have hselect := ho.selectAll_ends
  refine ⟨_, u₁, _, u₂, hrun₁, ?_, hsound, ?_, hwrite _, hrun₂, fun more => ?_⟩
  · rw [hfiles₁]
    exact hread
  · exact hselect.result_eq
  · exact Operation.runAll_alike more _ _ ⟨rfl, hfiles₁.trans hfiles₂.symm⟩

/-- Whatever operations gave a file its bytes, and whichever of them failed, opening the table on
the first bytes of that file recovers the complete records among them. -/
theorem open_torn (s : Schema) (path : Path) (w : World) (hv : w.files.Vacant path)
    (ops : List Operation) :
    ∃ st w₁ answers st' w' file records,
      (openFile s path : Work Unit Store).run ((), w) = (.ok st, ((), w₁)) ∧
      (Operation.runAll ops).run (st, w₁) = (.ok answers, (st', w')) ∧
      w'.files.read path = .ok file ∧ Sound s st' file records ∧
      ∀ (k : Nat) (u : World) (torn : Files), u.files.write path (file.take k) = .ok torn →
        Recovers s path u torn (file.take (reach (whole records k))) (whole records k) := by
  obtain ⟨st, h, w₁, hopen, ho⟩ := exists_opened s hv
  obtain ⟨answers, st', h', w', records, hrun, ho'⟩ := Operation.runAll_opened ho ops
  have hread := ho'.read_eq
  rw [ho'.place] at hread
  have hschema : st'.table.schema = s := ho'.schema
  have hlaid := ho'.holds.laid
  have hdistinct := ho'.holds.distinct
  rw [hschema] at hlaid hdistinct
  exact ⟨st, w₁, answers, st', w', _, records, hopen, hrun, hread, ho'.sound,
    fun k u torn hw => recovers_cut hlaid hdistinct k hw⟩

/-- The bytes are cut in an empty file system, at any place. -/
theorem open_torn_errands :
    Sample.world.files.Vacant Sample.table ∧
    ∃ st w₁ answers st' w' file records,
      (openFile Sample.people Sample.table : Work Unit Store).run ((), Sample.world) =
        (.ok st, ((), w₁)) ∧
      (Operation.runAll Sample.errands).run (st, w₁) = (.ok answers, (st', w')) ∧
      w'.files.read Sample.table = .ok file ∧ Sound Sample.people st' file records ∧
      ∀ k, ∃ torn, Sample.world.files.write Sample.table (file.take k) = .ok torn ∧
        Recovers Sample.people Sample.table Sample.world torn
          (file.take (reach (whole records k))) (whole records k) := by
  obtain ⟨st, w₁, answers, st', w', file, records, hopen, hrun, hread, hsound, hcut⟩ :=
    open_torn Sample.people Sample.table Sample.world Sample.vacant Sample.errands
  exact ⟨Sample.vacant, st, w₁, answers, st', w', file, records, hopen, hrun, hread, hsound,
    fun k => ⟨_, rfl, hcut k Sample.world _ rfl⟩⟩

end Store
end Tabulary
