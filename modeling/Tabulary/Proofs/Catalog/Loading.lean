import Mathlib.Data.List.SplitBy
import Tabulary.Proofs.Catalog.Definition
import Tabulary.Proofs.Catalog.ManifestText
import Tabulary.Proofs.Name

/-!
Opening a database that is there.  From the manifest and the files of its tables come the tables
that the database had, each with the index that it had.
-/

namespace Tabulary

open Record Files

variable {directory place : Path} {fs : Files} {name table : String} {w : World}

/-! ## Names of files -/

/-- A written path without slashes is one name. -/
theorem Path.parts_eq_singleton {file : String} (hslash : '/' ∉ file.toList) (hne : file ≠ "")
    (hdot : file ≠ ".") : Path.parts file = [file] := by
  have hchain : List.IsChain (fun a b => (a ≠ '/' && b ≠ '/') = true) file.toList := by
    refine (List.pairwise_of_forall_mem_list fun a ha b hb => ?_).isChain
    have hne : a ≠ '/' ∧ b ≠ '/' :=
      ⟨fun heq => hslash (heq ▸ ha), fun heq => hslash (heq ▸ hb)⟩
    simp [hne]
  have hfull : file.toList ≠ [] := fun hnil => hne (String.toList_inj.mp hnil)
  have hroot : file ≠ "/" := by
    rintro rfl
    exact hslash (by decide)
  rw [Path.parts, List.splitBy_of_isChain hfull hchain, List.map_singleton, String.ofList_toList,
    List.filter_cons_of_pos, List.filter_nil]
  simp [hne, hdot, hroot]

/-- The file of a table is named by one name. -/
theorem Path.parts_tableFile (name : String) :
    Path.parts (Name.tableFile name) = [Name.tableFile name] := by
  refine Path.parts_eq_singleton ?_ (Database.tableFile_ne (by decide) name)
    (Database.tableFile_ne (by decide) name)
  rw [Name.tableFile, String.toList_append]
  intro hc
  rcases List.mem_append.mp hc with hc | hc
  · exact Name.slash_not_mem_sanitize name hc
  · exact absurd hc (by decide)

/-- The file of a table is seen in the directory that it is looked for in. -/
theorem Files.locate_tableFile (fs : Files) (directory : Path) (table : String) :
    fs.locate directory (Name.tableFile table) = .ok (directory ++ [Name.tableFile table]) := by
  have hslash : (Name.tableFile table).toList.head? ≠ some '/' := by
    intro h
    have hmem := List.mem_of_head? h
    rw [Name.tableFile, String.toList_append] at hmem
    rcases List.mem_append.mp hmem with hmem | hmem
    · exact Name.slash_not_mem_sanitize table hmem
    · exact absurd hmem (by decide)
  rw [locate, if_neg hslash, Path.parts_tableFile]

theorem Work.query_locate {σ α : Type} (directory : Path) (table : String)
    (f : Path → Work σ α) :
    (query (fun fs => fs.locate directory (Name.tableFile table)) >>= f) =
      f (directory ++ [Name.tableFile table]) := by
  refine congrArg Attempt.mk (funext fun x => ?_)
  rw [run_query, Files.locate_tableFile]

/-- A name that can stand for a directory does. -/
theorem Path.parts_sanitize {name : String} (h : Name.isStorable (Name.sanitize name) = true) :
    Path.parts (Name.sanitize name) = [Name.sanitize name] := by
  refine Path.parts_eq_singleton (Name.slash_not_mem_sanitize name) ?_ ?_
  · intro heq
    rw [heq] at h
    exact absurd h (by decide)
  · intro heq
    rw [heq] at h
    exact absurd h (by decide)

/-! ## Tables -/

/-- The table that the records of a file make. -/
def Table.ofFile (s : Schema) (file : Bytes) : Table :=
  ⟨s, Index.ofRecords s (scan s none ⟨0, file⟩).records⟩

namespace Store

variable {st : Store} {t : Memory.Table}

theorem Opened.table_eq {s : Schema} {path : Path} {h : Handle} {records : List Stored}
    (ho : Opened s path st h fs records) : st.table = Table.ofFile s (fs.nodeBytes h.node) := by
  have hschema : st.table.schema = s := ho.schema
  have hlaid : Laid s 0 records (fs.nodeBytes h.node) := hschema ▸ ho.holds.laid
  have hsame := Table.holds_ofRecords hlaid (hschema ▸ ho.holds.distinct)
  have hindex : st.table.index = Index.ofRecords s records := by
    rw [ho.holds.index, hschema]
    exact hsame.index.symm
  rw [Table.ofFile, hlaid.scan, ← hindex, ← hschema]

end Store

namespace Database

variable {d : Database} {m : Memory.Tables} {t : Memory.Table} {st : Store}

/-- The store of a table is opened again from its file. -/
theorem run_loadTable (hd : d.directory = directory)
    (h : Store.Shows directory w.files table st t) :
    ∃ st' w', (loadTable (.ofSchema t.schema)).run (d, w) =
        (.ok (), ({ d with tables := Keyed.set table st' d.tables }, w')) ∧ w'.files = w.files ∧
      Store.Shows directory w.files table st' t := by
  subst hd
  obtain ⟨handle, records, ho, hrows⟩ := h.opened
  obtain rfl : t.schema.name = table := h.named
  have hschema : st.table.schema = t.schema := ho.schema
  obtain ⟨w₁, hopen, hfiles, ho'⟩ := Store.run_openFile (σ := Database) d
    (Files.readies_self ho.opened) ho.opened (hschema ▸ ho.holds.laid)
    (hschema ▸ ho.holds.distinct)
  rw [hfiles] at ho'
  have hfile : (Manifest.Table.ofSchema t.schema).file = Name.tableFile t.schema.name := rfl
  let st' := Store.onRecords t.schema (d.directory ++ [Name.tableFile t.schema.name]) handle.node
    records
  have hrun : (loadTable (.ofSchema t.schema)).run (d, w) =
      (Work.log .info "table_opened" [("database", .text d.name), ("table", .text t.schema.name),
        ("rows", .int st'.rowCount)] : Work Database Unit).run
          ({ d with tables := Keyed.set t.schema.name st' d.tables }, w₁) := by
    unfold loadTable
    rw [h.normal]
    refine (Attempt.run_bind_of_ok rfl).trans ?_
    rw [Attempt.run_bind_of_ok (Work.run_state _), hfile, Work.query_locate,
      Attempt.run_bind_of_ok hopen, Attempt.run_bind_of_ok (run_setTables _)]
    rfl
  refine ⟨st', _, hrun, hfiles, ?_⟩
  exact ⟨rfl, h.plain, h.normal, _, records, ho', hrows⟩

/-- The tables of a manifest are opened one after another. -/
theorem run_forM_loadTable {m' : Memory.Tables} (hd : d.directory = directory)
    (hdone : Keyed.Match (Store.Shows directory w.files) d.tables m)
    (hthere : ∀ t ∈ m', ∃ st, Store.Shows directory w.files t.1 st t.2)
    (hnodup : (Keyed.keys (m ++ m')).Nodup) :
    ∃ ts w', ((m'.map fun t => Manifest.Table.ofSchema t.2.schema).forM loadTable).run (d, w) =
        (.ok (), ({ d with tables := ts }, w')) ∧ w'.files = w.files ∧
      Keyed.Match (Store.Shows directory w.files) ts (m ++ m') := by
  induction m' generalizing m d w with
  | nil =>
    refine ⟨d.tables, w, rfl, rfl, ?_⟩
    rw [List.append_nil]
    exact hdone
  | cons t m' ih =>
    obtain ⟨table, t⟩ := t
    obtain ⟨st, hst⟩ := hthere (table, t) List.mem_cons_self
    obtain ⟨st', w₁, hload, hfiles, hst'⟩ := run_loadTable hd hst
    have hsplit : m ++ (table, t) :: m' = (m ++ [(table, t)]) ++ m' := by simp
    have hnew : table ∉ Keyed.keys d.tables := by
      rw [hdone.keys_eq]
      intro hmem
      rw [Keyed.keys, List.map_append] at hnodup
      exact (List.nodup_append.mp hnodup).2.2 table hmem table List.mem_cons_self rfl
    rw [hsplit] at hnodup ⊢
    have hmatch : Keyed.Match (Store.Shows directory w₁.files) (Keyed.set table st' d.tables)
        (m ++ [(table, t)]) := by
      rw [Keyed.set_of_not_mem hnew, hfiles]
      exact hdone.concat hst'
    have hthere' : ∀ t ∈ m', ∃ st, Store.Shows directory w₁.files t.1 st t.2 := by
      rw [hfiles]
      exact fun t ht => hthere t (List.mem_cons_of_mem _ ht)
    obtain ⟨ts, w₂, hrun, hfiles₂, hmatch₂⟩ :=
      ih (d := { d with tables := Keyed.set table st' d.tables }) hd hmatch hthere' hnodup
    refine ⟨ts, w₂, ?_, hfiles₂.trans hfiles, hfiles ▸ hmatch₂⟩
    exact (Attempt.run_bind_of_ok hload).trans hrun

/-! ## Databases -/

/-- What becomes of the tables of a manifest where the database in its directory is opened. -/
def loading (name : String) (tables : List Manifest.Table) (directory : Path) (w : World) :
    Except Fault Unit × Database × World :=
  (tables.forM loadTable).run (⟨name, directory, [], w.opened⟩,
    { w with opened := w.opened + 1 })

theorem run_loadManifest_of_read {bytes : Bytes} {manifest : Manifest}
    (hread : w.files.read d.manifestPath = .ok bytes) (hm : Manifest.ofBytes bytes = .ok manifest) :
    loadManifest.run (d, w) = (manifest.tables.forM loadTable).run (d, w) := by
  have hquery : (Work.query fun fs => fs.read d.manifestPath : Work Database Bytes).run (d, w) =
      (.ok bytes, (d, w)) := by
    rw [Work.run_query, hread]
  unfold loadManifest
  rw [Attempt.run_bind_of_ok (Work.run_state _), Attempt.run_bind_of_ok hquery, hm]
  rfl

/-- A directory with a manifest is opened just if all tables that are listed can be loaded. -/
theorem run_openIn_of_read {σ : Type} (y : σ) {bytes : Bytes} {manifest : Manifest}
    {result : Except Fault Unit} {w' : World}
    (hmade : w.files.ensureDirectory directory = (.ok (), w.files))
    (hthere : w.files.isThere (directory ++ [manifestName]) = .ok true)
    (hread : w.files.read (directory ++ [manifestName]) = .ok bytes)
    (hm : Manifest.ofBytes bytes = .ok manifest)
    (hload : loading name manifest.tables directory w = (result, (d, w'))) :
    (openIn name directory : Work σ Database).run (y, w) = (result.map fun _ => d, (y, w')) := by
  let d₀ : Database := ⟨name, directory, [], w.opened⟩
  let w₀ : World := { w with opened := w.opened + 1 }
  have hensure : (Work.ensureDirectory directory : Work σ Unit).run (y, w) = (.ok (), (y, w)) := by
    rw [Work.run_ensureDirectory, hmade]
  have hserial : (Work.takeSerial : Work σ Nat).run (y, w) = (.ok w.opened, (y, w₀)) := rfl
  have hknown : (Work.query fun fs => fs.isThere d₀.manifestPath : Work σ Bool).run (y, w₀) =
      (.ok true, (y, w₀)) := by
    rw [Work.run_query]
    exact congrArg (·, (y, w₀)) hthere
  have hbeside : (Work.beside d₀ loadManifest : Work σ (Except Fault Unit × Database)).run
      (y, w₀) = (.ok (result, d), (y, w')) := by
    rw [Work.run_beside, run_loadManifest_of_read hread hm, ← loading, hload]
  unfold openIn
  rw [Attempt.run_bind_of_ok hensure, Attempt.run_bind_of_ok hserial]
  refine (Attempt.run_bind_of_ok hknown).trans ?_
  rw [if_pos rfl]
  refine (Attempt.run_bind_of_ok hbeside).trans ?_
  cases result <;> rfl

/-- The manifest is read as it was written. -/
theorem Lists.read (h : Lists fs place name m) (hr : Rooted fs directory place) :
    fs.read (directory ++ [manifestName]) = .ok (Text.toBytes (manifestOf name m).render) := by
  obtain ⟨node, hentry, hbytes⟩ := h
  rw [Files.read, (hr.openFile_child plain_manifestName).mpr hentry, ← hbytes]
  rfl

theorem Lists.isThere (h : Lists fs place name m) (hr : Rooted fs directory place) :
    fs.isThere (directory ++ [manifestName]) = .ok true := by
  obtain ⟨node, hentry, -⟩ := h
  rw [hr.isThere_child plain_manifestName, hentry]
  rfl

theorem Shows.read_manifest (h : Shows directory place fs name d m) :
    fs.read (directory ++ [manifestName]) = .ok (Text.toBytes (manifestOf name m).render) :=
  h.manifest.read h.rooted

theorem Shows.isThere_manifest (h : Shows directory place fs name d m) :
    fs.isThere (directory ++ [manifestName]) = .ok true := h.manifest.isThere h.rooted

/-- A directory is opened with the tables that its manifest lists, if the file of each is in
order. -/
theorem run_openIn_of_listed {σ : Type} (hl : Lists w.files place name m)
    (hr : Rooted w.files directory place)
    (hthere : ∀ t ∈ m, ∃ st, Store.Shows directory w.files t.1 st t.2) (hapart : Name.Apart m)
    (y : σ) : ∃ ts w', (openIn name directory : Work σ Database).run (y, w) =
        (.ok ⟨name, directory, ts, w.opened⟩, (y, w')) ∧
      w'.files = w.files ∧ Keyed.Match (Store.Shows directory w.files) ts m := by
  let d₀ : Database := ⟨name, directory, [], w.opened⟩
  let w₁ : World := { w with opened := w.opened + 1 }
  have hnodup : (Keyed.keys ([] ++ m : Memory.Tables)).Nodup := hapart.keys
  obtain ⟨ts, w₂, hload, hfiles, hmatch⟩ :=
    run_forM_loadTable (d := d₀) (w := w₁) rfl .nil hthere hnodup
  exact ⟨ts, w₂, run_openIn_of_read y hr.ensureDirectory (hl.isThere hr) (hl.read hr)
    (Manifest.ofBytes_render _) hload, hfiles, hmatch⟩

/-- The directory of a database is opened with the tables that the database had. -/
theorem Shows.run_openIn_again {σ : Type} (h : Shows directory place w.files name d m) (y : σ) :
    ∃ d' w', (openIn name directory : Work σ Database).run (y, w) = (.ok d', (y, w')) ∧
      w'.files = w.files ∧ Shows directory place w.files name d' m := by
  have hthere : ∀ t ∈ m, ∃ st, Store.Shows directory w.files t.1 st t.2 := by
    intro t ht
    obtain ⟨st, -, hst⟩ := h.tables.of_mem_right ht
    exact ⟨st, hst⟩
  obtain ⟨ts, w', hrun, hfiles, hmatch⟩ :=
    run_openIn_of_listed h.manifest h.rooted hthere h.apart y
  exact ⟨_, w', hrun, hfiles, rfl, rfl, h.rooted, hmatch, h.apart, h.manifest, h.only⟩

end Database
end Tabulary
