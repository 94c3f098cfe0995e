import Tabulary.Proofs.Catalog.Residence

/-!
Files that are left over in the directory of a database: files of tables that the manifest does not
list, with whatever bytes, and a draft of the manifest.  A crash between the steps of creating or
dropping a table leaves such files.  A directory may hold them before a database is opened in it for
the first time, and more of them may come at any time.

Main statement: opening the directory again gives the same tables with them as without them, and a
table that is created where one of them lies is empty (`leftovers_never_resurface`).
-/

namespace Tabulary

open Attempt Files Record

namespace Files

variable {fs : Files} {p place : Path} {name : String} {node : Nat}

theorem Rooted.plain_of_openFile (h : Rooted fs p place) (hdown : name ≠ "..")
    (hopen : fs.openFile (p ++ [name]) = .ok node) : Plain name := by
  obtain ⟨hvisible, q, hwalk, -⟩ := openFile_eq_ok.mp hopen
  rw [hasNul_append, Bool.or_eq_false_iff] at hvisible
  refine ⟨hvisible.2, hdown, Nat.not_lt.mp fun hlong => ?_⟩
  cases (h.walk_child_long hlong).symm.trans hwalk

end Files

namespace Database

variable {directory place : Path} {fs fs' : Files} {name table : String} {d d' : Database}
  {m : Memory.Tables}
  {w w' : World} {schema : Schema} {st : Store} {y z : Database × World} {ts ts' : Tables}

/-! ## Directories, and what is left over in them -/

/-- The names of the files that belong to a database. -/
def files (d : Database) : List String := manifestName :: (Keyed.keys d.tables).map Name.tableFile

/-- A directory that is there or can be made, and in which no database has been opened.  There may
be files in it. -/
structure Unlisted (directory : Path) (fs : Files) : Prop where
  sane : fs.Sane
  visible : hasNul directory = false
  made : ∃ fs' place, fs.ensureDirectory directory = (.ok (), fs') ∧
    fs'.find directory = .ok (place, .directory) ∧ fs'.entry? (place ++ [manifestName]) = none ∧
    fs'.Flat place

/-- The files of these names in a directory are what they were, and the directory is where it was
and still holds nothing but files.  Whatever else there is may have come, gone or changed. -/
def Littered (directory : Path) (names : List String) (fs fs' : Files) : Prop :=
  ∃ place, fs.find directory = .ok (place, .directory) ∧
    fs'.find directory = .ok (place, .directory) ∧
    Edit (fun q => ∀ file ∈ names, q ≠ place ++ [file]) fs fs' ∧ fs'.Flat place

/-- What leaves a database its directory.  The schemas of new tables are those that can be built. -/
def Operation.Staying : Operation → Prop
  | createTable schema => ∃ columns, Schema.build schema.name columns = .ok schema
  | destroy => False
  | _ => True

/-- A database that was opened where there was none, and what became of it: it has been worked on,
files have been left in its directory, and the directory has been opened again. -/
inductive Tended (name : String) (directory : Path) : Database × World → Prop
  | begun {σ : Type} {y y' : σ} {d : Database} {w w' : World}
      (unlisted : Unlisted directory w.files)
      (run : (openIn name directory : Work σ Database).run (y, w) = (.ok d, (y', w'))) :
      Tended name directory (d, w')
  | worked {y : Database × World} (before : Tended name directory y) (op : Operation)
      (staying : op.Staying) : Tended name directory (op.run.run y).2
  | littered {d : Database} {w : World} {fs' : Files} (before : Tended name directory (d, w))
      (left : Littered directory d.files w.files fs') :
      Tended name directory (d, { w with files := fs' })
  | reopened {σ : Type} {y y' : σ} {d d' : Database} {w w' : World}
      (before : Tended name directory (d, w))
      (run : (openIn name directory : Work σ Database).run (y, w) = (.ok d', (y', w'))) :
      Tended name directory (d', w')

/-- Where operations lead, whatever each of them comes to. -/
def after (ops : List Operation) (y : Database × World) : Database × World :=
  ops.foldl (fun y op => (op.run.run y).2) y

/-! ## At home all along -/

/-- The database resides in the directory, with whatever tables. -/
def AtHome (directory : Path) (name : String) (y : Database × World) : Prop :=
  ∃ place m, Resides directory place y.2.files name y.1 m

theorem Unlisted.of_bare (h : fs.Bare directory) (hs : fs.Sane) : Unlisted directory fs := by
  obtain ⟨fs', place, hmake, hfind, hempty⟩ := h.empty
  refine ⟨hs, h.visible, fs', place, hmake, hfind, hempty _ (below_child place manifestName),
    fun q hq => ?_⟩
  rw [hempty q hq]
  exact nofun

theorem Unlisted.run_openIn {σ : Type} (h : Unlisted directory w.files) (name : String) (y : σ) :
    ∃ d w', (openIn name directory : Work σ Database).run (y, w) = (.ok d, (y, w')) ∧
      AtHome directory name (d, w') := by
  obtain ⟨fs, place, hmake, hfind, hnone, hflat⟩ := h.made
  have hrooted := hflat.rooted h.visible hfind
  have hgrown := grown_ensureDirectory h.sane directory
  rw [hmake] at hgrown
  let d₀ : Database := ⟨name, directory, [], w.opened⟩
  let w₁ : World := { w with files := fs, opened := w.opened + 1 }
  have hstocked : Stocked directory place w₁.files name d₀ [] :=
    ⟨rfl, rfl, hrooted, hgrown.sane, .nil, List.nodup_nil, hflat⟩
  obtain ⟨fs₂, hsave, -, hresides⟩ := hstocked.run_saveManifest
  have hmissing := hrooted.isThere_child plain_manifestName
  rw [hnone] at hmissing
  exact ⟨d₀, _, run_openIn_of_missing y hmake hmissing hsave, place, [], hresides⟩

theorem run_onTable_none {α : Type} (hst : d.tables.lookup table = none) (x : Work Store α) :
    (onTable table x).run (d, w) = (.error (.engine (.noTable table)), (d, w)) :=
  run_onTables (d := d) (run_bind_of_error (Tables.run_get_none hst))

theorem AtHome.createTable (h : AtHome directory name y) {columns : List Column}
    (hbuilt : Schema.build schema.name columns = .ok schema) :
    AtHome directory name ((createTable schema).run y).2 := by
  obtain ⟨d, w⟩ := y
  obtain ⟨place, m, hresides⟩ := h
  by_cases hn : Plain (Name.tableFile schema.name)
  · cases hcheck : d.checkNew schema with
    | error e =>
      rw [run_createTable_of_rejected hcheck]
      exact ⟨place, m, hresides⟩
    | ok _ =>
      obtain ⟨st, w', hrun, hextended⟩ :=
        hresides.run_createTable hcheck hn (Manifest.Table.toSchema_ofSchema hbuilt)
      rw [hrun]
      exact ⟨place, _, hextended.resides⟩
  · obtain ⟨e, hrun⟩ := hresides.run_createTable_of_not_plain hn
    rw [hrun]
    exact ⟨place, m, hresides⟩

theorem AtHome.dropTable (h : AtHome directory name y) (table : String) :
    AtHome directory name ((dropTable table).run y).2 := by
  obtain ⟨d, w⟩ := y
  obtain ⟨place, m, hresides⟩ := h
  cases hst : d.tables.lookup table with
  | none =>
    rw [run_dropTable_none hst]
    exact ⟨place, m, hresides⟩
  | some st =>
    obtain ⟨_, w', -, hrun, hreduced⟩ := hresides.run_dropTable hst
    rw [hrun]
    exact ⟨place, _, hreduced.resides⟩

theorem AtHome.onTable (h : AtHome directory name y) (table : String) (op : Tabulary.Operation) :
    AtHome directory name ((onTable table op.run).run y).2 := by
  obtain ⟨d, w⟩ := y
  obtain ⟨place, m, hresides⟩ := h
  cases hst : d.tables.lookup table with
  | none =>
    rw [run_onTable_none hst]
    exact ⟨place, m, hresides⟩
  | some st =>
    obtain ⟨result, st', w', m', hrun, hresides'⟩ := hresides.run_onTable hst op
    rw [hrun]
    exact ⟨place, m', hresides'⟩

theorem AtHome.close (h : AtHome directory name y) :
    AtHome directory name (Database.close.run y).2 := by
  obtain ⟨d, w⟩ := y
  obtain ⟨place, m, hresides⟩ := h
  obtain ⟨ts, w', hrun, hfiles, hresides'⟩ := hresides.run_close
  rw [hrun]
  exact ⟨place, m, hfiles ▸ hresides'⟩

theorem AtHome.worked (h : AtHome directory name y) {op : Operation} (hop : op.Staying) :
    AtHome directory name (op.run.run y).2 := by
  cases op with
  | createTable schema =>
    obtain ⟨columns, hbuilt⟩ := hop
    exact h.createTable hbuilt
  | dropTable table => exact h.dropTable table
  | onTable table op =>
    unfold Operation.run
    rw [snd_run_andReturn]
    exact h.onTable table op
  | close => exact h.close
  | destroy => exact absurd hop id

/-- Files that are left over change nothing that the database has. -/
theorem Resides.littered (h : Resides directory place fs name d m)
    (hleft : Littered directory d.files fs fs') :
    Resides directory place fs' name d m ∧ ∀ table ∈ Keyed.keys m,
      fs'.read (directory ++ [Name.tableFile table]) =
      fs.read (directory ++ [Name.tableFile table]) := by
  obtain ⟨place', hfind, hfind', hedit, hflat⟩ := hleft
  cases h.rooted.find.symm.trans hfind
  have hr := hflat.rooted h.rooted.visible hfind'
  have hfree : ∀ table ∈ Keyed.keys m, ¬∀ file ∈ d.files,
      place ++ [Name.tableFile table] ≠ place ++ [file] := by
    intro table hmem hnone
    rw [← h.tables.keys_eq] at hmem
    exact hnone _ (List.mem_cons_of_mem _ (List.mem_map_of_mem hmem)) rfl
  refine ⟨h.edit hedit hr hflat (fun hnone => hnone _ List.mem_cons_self rfl) hfree,
    fun table hmem => ?_⟩
  exact hedit.read_child h.rooted hr (tableFile_ne_up table) (hfree table hmem)

theorem Tended.after (h : Tended name directory y) {ops : List Operation}
    (hops : ∀ op ∈ ops, op.Staying) : Tended name directory (after ops y) := by
  induction ops generalizing y with
  | nil => exact h
  | cons op ops ih =>
    exact ih (h.worked op (hops op List.mem_cons_self)) fun op hop =>
      hops op (List.mem_cons_of_mem _ hop)

theorem Tended.atHome (h : Tended name directory y) : AtHome directory name y := by
  induction h with
  | @begun σ y y' d w w' unlisted run =>
    obtain ⟨d₁, w₁, hrun, hhome⟩ := unlisted.run_openIn name y
    cases hrun.symm.trans run
    exact hhome
  | worked before op staying ih => exact ih.worked staying
  | littered before left ih =>
    obtain ⟨place, m, hresides⟩ := ih
    exact ⟨place, m, (hresides.littered left).1⟩
  | @reopened σ y y' d d' w w' before run ih =>
    obtain ⟨place, m, hresides⟩ := ih
    obtain ⟨d₁, w₁, hrun, hfiles, hresides', -⟩ := hresides.run_openIn y
    cases hrun.symm.trans run
    exact ⟨place, m, hfiles ▸ hresides'⟩

theorem Littered.trans {names : List String} {fs'' : Files} (h : Littered directory names fs fs')
    (h' : Littered directory names fs' fs'') : Littered directory names fs fs'' := by
  obtain ⟨place, hfind, hfind', hedit, -⟩ := h
  obtain ⟨place', hagain, hfind'', hedit', hflat⟩ := h'
  cases hfind'.symm.trans hagain
  exact ⟨place, hfind, hfind'', hedit.trans hedit', hflat⟩

/-! ## Crashes -/

theorem Stocked.files_eq (h : Stocked directory place fs name d m) : d.files = fileNames m := by
  rw [files, fileNames, h.tables.keys_eq]

theorem Stocked.leaves (h : Stocked directory place fs name d m) {touched : Path → Prop}
    (he : Edit touched fs fs') (htouched : ∀ q, touched q → ∃ file ∉ d.files,
      q = place ++ [file])
    (hflat : fs'.Flat place) : Littered directory d.files fs fs' := by
  have hbelow : ∀ q, touched q → Below place q := by
    intro q hq
    obtain ⟨file, -, rfl⟩ := htouched q hq
    exact below_child place file
  refine ⟨place, h.rooted.find, (he.rooted h.rooted hbelow).find,
    he.mono fun q hq own hown heq => ?_, hflat⟩
  obtain ⟨file, hfile, rfl⟩ := htouched q hq
  exact hfile (child_inj.mp heq ▸ hown)

/-- Any bytes can be left in a file that belongs to no table. -/
theorem Resides.leaves_bytes (h : Resides directory place fs name d m) {file : String}
    (hn : Plain file) (hfile : file ∉ d.files) (bytes : Bytes) :
    ∃ fs', fs.write (directory ++ [file]) bytes = .ok fs' ∧
      Edit (· = place ++ [file]) fs fs' ∧
      Littered directory d.files fs fs' ∧ fs'.read (directory ++ [file]) = .ok bytes := by
  obtain ⟨fs', node, hwrite, hedit, hentry, hbytes⟩ :=
    h.rooted.write_child h.sane hn (h.flat _ (below_child place file)) bytes
  refine ⟨fs', hwrite, hedit, h.leaves hedit (fun q hq => ⟨file, hfile, hq⟩)
    (h.flat.edit_file hedit hentry), ?_⟩
  rw [Files.read, ((hedit.rooted_child h.rooted).openFile_child hn).mpr hentry, ← hbytes]
  rfl

/-- A crash while a table is created, before the new manifest is in its place, leaves files that
belong to no table: whatever lay in the place of the new table or its file, and perhaps a draft of
the manifest. -/
theorem Resides.createTable_cut_short (h : Resides directory place w.files name d m)
    (hcheck : d.checkNew schema = .ok ()) (hn : Plain (Name.tableFile schema.name))
    (hnormal : (Manifest.Table.ofSchema schema).toSchema = .ok schema) (bytes : Bytes) :
    ∃ w₁ st w₂ fs₃, (discard d schema).run (d, w) = (.ok (), (d, w₁)) ∧
      (Store.openFile schema (directory ++ [Name.tableFile schema.name])).run (d, w₁) =
      (.ok st, (d, w₂)) ∧ w₂.files.write (directory ++ [draftName]) bytes = .ok fs₃ ∧
      Littered directory d.files w.files w₁.files ∧
      Littered directory d.files w.files w₂.files ∧
      Littered directory d.files w.files fs₃ := by
  have hnew := h.file_ne hcheck
  have hfile : Name.tableFile schema.name ∉ d.files := by
    rw [h.files_eq]
    exact tableFile_not_mem_of_ne hnew
  have hdraft : draftName ∉ d.files := by
    rw [h.files_eq]
    exact draftName_not_mem m
  obtain ⟨w₁, hdiscard, hedit₁, hnone, h₁⟩ := h.run_discard hnew hn
  obtain ⟨st, w₂, hopen, hedit₂, h₂, -⟩ := h₁.run_openFile hnew hn hnormal hnone
  obtain ⟨fs₃, node, hwrite, hedit₃, hentry, -⟩ :=
    h₂.rooted.write_child h₂.sane plain_draftName
    (h₂.flat _ (below_child place draftName)) bytes
  have htable : ∀ q, q = place ++ [Name.tableFile schema.name] → ∃ file ∉ d.files,
      q = place ++ [file] :=
    fun q hq => ⟨_, hfile, hq⟩
  have hboth : Edit (fun q => q = place ++ [Name.tableFile schema.name] ∨
      q = place ++ [draftName]) w.files fs₃ :=
    ((hedit₁.trans hedit₂).mono fun q hq => Or.inl hq).trans
      (hedit₃.mono fun q hq => Or.inr hq)
  refine ⟨w₁, st, w₂, fs₃, hdiscard, hopen, hwrite, h.leaves hedit₁ htable h₁.flat,
    h.leaves (hedit₁.trans hedit₂) htable h₂.flat,
    h.leaves hboth ?_ (h₂.flat.edit_file hedit₃ hentry)⟩
  rintro q (hq | hq)
  · exact htable q hq
  · exact ⟨draftName, hdraft, hq⟩

/-- A crash while a table is dropped, after the manifest has been written, leaves the file of the
table where dropping it would have left nothing. -/
theorem Resides.dropTable_cut_short (h : Resides directory place w.files name d m)
    (hst : d.tables.lookup table = some st) :
    ∃ d' fs w', saveManifest.run ({ d with tables := Keyed.erase table d.tables }, w) =
        (.ok (), (d', { w with files := fs })) ∧
      (dropTable table).run (d, w) = (.ok (), (d', w')) ∧
        Littered directory d'.files w'.files fs := by
  obtain ⟨fs, w', hsave, hrun, hreduced⟩ := h.run_dropTable hst
  refine ⟨_, fs, w', hsave, hrun, ?_⟩
  refine hreduced.resides.leaves (hreduced.edit.symm hreduced.unlisted.sane) ?_
    hreduced.unlisted.flat
  refine fun q hq => ⟨_, ?_, hq⟩
  rw [hreduced.resides.files_eq]
  exact tableFile_not_mem_of_ne hreduced.free

/-! ## What the tables show -/

/-- The same tables, with the same schemas and indexes, and each operation on a table has the same
answer. -/
structure Alike (y z : Database × World) : Prop where
  tables : y.1.tables.map (fun t => (t.1, t.2.table)) = z.1.tables.map fun t => (t.1, t.2.table)
  answers : ∀ (table : String) (op : Tabulary.Operation),
    ((onTable table op.run).run y).1 = ((onTable table op.run).run z).1

theorem onTable_answer {α : Type} (hst : d.tables.lookup table = some st) (x : Work Store α) :
    ((onTable table x).run (d, w)).1 = (x.run (st, w)).1 := by
  rw [onTable, run_onTables (Tables.run_on hst x)]

/-- Files that read alike give the same tables. -/
theorem tables_congr (h : Keyed.Match (Store.StandsFor directory fs) ts m)
    (h' : Keyed.Match (Store.StandsFor directory fs') ts' m)
    (hread : ∀ table ∈ Keyed.keys m,
      fs'.read (directory ++ [Name.tableFile table]) =
      fs.read (directory ++ [Name.tableFile table])) :
    ts.map (fun t => (t.1, t.2.table)) = ts'.map fun t => (t.1, t.2.table) := by
  refine h.map_congr h' fun table st st' t hmem hst hst' => ?_
  obtain ⟨_, hshows⟩ := hst.shows
  obtain ⟨_, hshows'⟩ := hst'.shows
  obtain ⟨bytes, hbytes, htable⟩ := hshows.table_eq
  obtain ⟨bytes', hbytes', htable'⟩ := hshows'.table_eq
  have hsame := hread table (List.mem_map_of_mem hmem)
  rw [hbytes, hbytes'] at hsame
  cases hsame
  exact congrArg (table, ·) (htable.trans htable'.symm)

/-- Databases that have been opened with the same tables answer alike. -/
theorem answers_congr (h : Keyed.Match (Store.Shows directory w.files) d.tables m)
    (h' : Keyed.Match (Store.Shows directory w'.files) d'.tables m) (table : String)
    (op : Tabulary.Operation) :
    ((onTable table op.run).run (d, w)).1 = ((onTable table op.run).run (d', w')).1 := by
  rcases h.lookup table with ⟨hst, ht⟩ | ⟨st, t, hst, ht, hshows⟩
  · rcases h'.lookup table with ⟨hst', -⟩ | ⟨st', t', -, ht', -⟩
    · rw [run_onTable_none hst, run_onTable_none hst']
    · cases ht.symm.trans ht'
  · rcases h'.lookup table with ⟨-, ht'⟩ | ⟨st', t', hst', ht', hshows'⟩
    · cases ht.symm.trans ht'
    · cases ht.symm.trans ht'
      rw [onTable_answer hst, onTable_answer hst', hshows.answer_eq, hshows'.answer_eq]

/-! ## Creating a table where a file lies -/

/-- A table with no rows has been added, in an empty file, and the others are what they were. -/
structure Added (directory : Path) (schema : Schema) (st : Store) (y z : Database × World) :
    Prop where
  tables : z.1 = { y.1 with tables := y.1.tables ++ [(schema.name, st)] }
  schema_eq : st.schema = schema
  rowCount : st.rowCount = 0
  index : st.index = Index.empty schema
  file : z.2.files.read (directory ++ [Name.tableFile schema.name]) = .ok []
  shown : ∀ op : Tabulary.Operation,
    ((onTable schema.name op.run).run z).1 = (op.onFile schema []).map Prod.fst
  answers : ∀ table ∈ Keyed.keys y.1.tables, ∀ op : Tabulary.Operation,
    ((onTable table op.run).run z).1 = ((onTable table op.run).run y).1
  others : ∀ t ∈ y.1.tables, z.2.files.read t.2.path = y.2.files.read t.2.path

theorem tableFile_mem_files (h : table ∈ Keyed.keys d.tables) :
    Name.tableFile table ∈ d.files :=
  List.mem_cons_of_mem _ (List.mem_map_of_mem h)

theorem Resides.checkNew_eq (h : Resides directory place fs name d m)
    (hstorable : Name.isStorable (Name.sanitize schema.name) = true)
    (hfree : Name.tableFile schema.name ∉ d.files) : d.checkNew schema = .ok () := by
  have hlookup : d.tables.lookup schema.name = none :=
    Keyed.lookup_eq_none _ _ fun hmem => hfree (tableFile_mem_files hmem)
  have hfind : d.tables.find? (fun t => t.2.path = d.directory ++ [Name.tableFile schema.name]) =
      none := by
    refine List.find?_eq_none.mpr fun t ht hpath => hfree ?_
    obtain ⟨_, -, hstands⟩ := h.tables.of_mem_left ht
    rw [decide_eq_true_eq, hstands.path_eq, h.located, child_inj] at hpath
    rw [← hpath]
    exact tableFile_mem_files (List.mem_map_of_mem ht)
  unfold checkNew
  rw [hlookup, hstorable, hfind]
  rfl

/-- The stores of the other tables are the ones that they had. -/
theorem Extended.added (hextended : Extended directory place w.files name d m schema st w'.files)
    (h : Resides directory place w.files name d m)
    (hfree : Name.tableFile schema.name ∉ d.files) :
    Added directory schema st (d, w) ({ d with tables := d.tables ++ [(schema.name, st)] },
      w') := by
  have hkey : schema.name ∉ Keyed.keys d.tables := fun hmem => hfree (tableFile_mem_files hmem)
  obtain ⟨handle, ho⟩ := hextended.empty
  have hschema : st.table.schema = schema := ho.schema
  have hempty : w'.files.nodeBytes handle.node = [] := by
    have hlaid := ho.holds.laid
    generalize w'.files.nodeBytes handle.node = bytes at hlaid
    cases hlaid
    rfl
  refine ⟨rfl, hschema, ho.rowCount_eq, ?_, ?_, fun op => ?_, fun table hmem op => ?_,
    fun t ht => ?_⟩
  · show st.table.index = _
    rw [ho.holds.index, hempty, hschema]
    rfl
  · rw [Files.read, ho.opened, ← hempty]
    rfl
  · have hst : (d.tables ++ [(schema.name, st)]).lookup schema.name = some st := by
      rw [List.lookup_append, Keyed.lookup_eq_none _ _ hkey, Keyed.lookup_cons_eq, beq_self_eq_true]
      rfl
    rw [onTable_answer hst, (Operation.run_ends_onFile ho op).result_eq]
    rfl
  · obtain ⟨st', hst⟩ := Keyed.exists_lookup hmem
    have hst' : (d.tables ++ [(schema.name, st)]).lookup table = some st' := by
      rw [List.lookup_append, hst]
      rfl
    obtain ⟨t, ht, hstands⟩ := h.tables.of_lookup hst
    obtain ⟨t', ht', hstands'⟩ := hextended.resides.tables.of_lookup hst'
    rw [List.lookup_append, ht] at ht'
    cases ht'
    rw [onTable_answer hst, onTable_answer hst', hstands'.answer_eq hstands]
  · obtain ⟨_, -, hstands⟩ := h.tables.of_mem_left ht
    rw [hstands.path_eq]
    refine hextended.edit.read_child h.rooted hextended.resides.rooted (tableFile_ne_up _) ?_
    rintro (heq | hsaving)
    · exact hfree (child_inj.mp heq ▸ tableFile_mem_files (List.mem_map_of_mem ht))
    · exact not_saving_tableFile place t.1 hsaving

/-- A table can be created where a file is left over. -/
theorem Resides.run_createTable_over (h : Resides directory place w.files name d m)
    {columns : List Column} {node : Nat} (hbuilt : Schema.build schema.name columns = .ok schema)
    (hstorable : Name.isStorable (Name.sanitize schema.name) = true)
    (hopen : w.files.openFile (directory ++ [Name.tableFile schema.name]) = .ok node)
    (hfree : Name.tableFile schema.name ∉ d.files) :
    ∃ st z, (createTable schema).run (d, w) = (.ok (), z) ∧
    Added directory schema st (d, w) z := by
  obtain ⟨st, w', hrun, hextended⟩ := h.run_createTable (h.checkNew_eq hstorable hfree)
    (h.rooted.plain_of_openFile (tableFile_ne_up _) hopen) (Manifest.Table.toSchema_ofSchema hbuilt)
  exact ⟨st, _, hrun, hextended.added h hfree⟩

/-- For every database that operations, further leftovers and reopening have led to, and any files
left over in its directory: the directory is opened with and without them, both times with the
tables, schemas and indexes that the database has, and what is asked of a table is answered alike.
Whatever operations follow, a table with a valid schema and a storable name is created where a file
lies that belongs to no table, it has no rows, an empty index and an empty file, and all other
tables stay what they are. -/
theorem leftovers_never_resurface {σ : Type} (h : Tended name directory (d, w))
    (hleft : Littered directory d.files w.files fs') (y : σ) :
    ∃ d₁ w₁ d₂ w₂,
      (openIn name directory : Work σ Database).run (y, w) = (.ok d₁, (y, w₁)) ∧
      w₁.files = w.files ∧
      (openIn name directory : Work σ Database).run (y, { w with files := fs' }) =
        (.ok d₂, (y, w₂)) ∧
      w₂.files = fs' ∧
      d₁.tables.map (fun t => (t.1, t.2.table)) = d.tables.map (fun t => (t.1, t.2.table)) ∧
      Alike (d₁, w₁) (d₂, w₂) ∧
      ∀ ops : List Operation, (∀ op ∈ ops, op.Staying) → ∀ d₃ w₃,
        after ops (d₂, w₂) = (d₃, w₃) →
        ∀ (schema : Schema) (columns : List Column) (node : Nat),
          Schema.build schema.name columns = .ok schema →
          Name.isStorable (Name.sanitize schema.name) = true →
          w₃.files.openFile (directory ++ [Name.tableFile schema.name]) = .ok node →
          Name.tableFile schema.name ∉ d₃.files →
          ∃ st z, (createTable schema).run (d₃, w₃) = (.ok (), z) ∧
            Added directory schema st (d₃, w₃) z := by
  obtain ⟨place, m, hresides⟩ := h.atHome
  obtain ⟨hresides', hread⟩ := hresides.littered hleft
  obtain ⟨d₁, w₁, hrun₁, hfiles₁, hresides₁, hmatch₁⟩ := hresides.run_openIn y
  obtain ⟨d₂, w₂, hrun₂, hfiles₂, hresides₂, hmatch₂⟩ :=
    hresides'.run_openIn (w := { w with files := fs' }) y
  refine ⟨d₁, w₁, d₂, w₂, hrun₁, hfiles₁, hrun₂, hfiles₂, ?_, ⟨?_, ?_⟩, ?_⟩
  · exact tables_congr hresides₁.tables hresides.tables fun _ _ => rfl
  · exact tables_congr hresides₁.tables hresides₂.tables hread
  · exact answers_congr (hfiles₁ ▸ hmatch₁) (hfiles₂ ▸ hmatch₂)
  · intro ops hops d₃ w₃ hafter schema columns node hbuilt hstorable hopen hfree
    have htended : Tended name directory (d₂, w₂) := (h.littered hleft).reopened hrun₂
    have hhome := (htended.after hops).atHome
    rw [hafter] at hhome
    obtain ⟨place₃, m₃, hresides₃⟩ := hhome
    exact hresides₃.run_createTable_over hbuilt hstorable hopen hfree

/-- A database with one row in one table, in a directory of its own. -/
def market : Database × World :=
  after [.createTable users, .onTable "users"
    (.insert ⟨.int 1, [("id", .int 1), ("name", .text "ann")], false⟩)]
    (⟨"shop", ["shop"], [], 0⟩,
      ((openIn "shop" ["shop"] : Work Unit Database).run ((), World.empty "/")).2.2)

theorem tended_market : Tended "shop" ["shop"] market := by
  have hopen : ((openIn "shop" ["shop"] : Work Unit Database).run ((), World.empty "/")).1 =
      .ok ⟨"shop", ["shop"], [], 0⟩ := by decide +kernel
  have hbegun : Tended "shop" ["shop"] (⟨"shop", ["shop"], [], 0⟩,
      ((openIn "shop" ["shop"] : Work Unit Database).run ((), World.empty "/")).2.2) :=
    .begun (.of_bare (bare_empty "/" (by decide)) (sane_empty "/")) (run_of_fst hopen)
  refine hbegun.after fun op hop => ?_
  rcases List.mem_pair.mp hop with rfl | rfl
  · exact ⟨users.columns, rfl⟩
  · trivial

/-- The file of a table that was never listed and the beginning of a manifest are left over. -/
theorem leftovers_never_resurface_shop : ∃ d w fs' d₂ w₂ st z,
    Tended "shop" ["shop"] (d, w) ∧ Littered ["shop"] d.files w.files fs' ∧
    fs'.read ["shop", "items.tbl"] = .ok [0, 255] ∧
    fs'.read ["shop", "catalog.json.tmp"] = .ok [123] ∧
    (openIn "shop" ["shop"] : Work Unit Database).run ((), { w with files := fs' }) =
    (.ok d₂, ((), w₂)) ∧ Keyed.keys d₂.tables = ["users"] ∧
    (createTable items).run (d₂, w₂) = (.ok (), z) ∧
    Added ["shop"] items st (d₂, w₂) z := by
  obtain ⟨place, m, hresides⟩ := tended_market.atHome
  have hown : market.1.files = ["catalog.json", "users.tbl"] := by decide +kernel
  have hitems : Name.tableFile items.name ∉ market.1.files := by
    rw [hown]
    decide
  have hdraft : draftName ∉ market.1.files := by
    rw [hown]
    decide
  obtain ⟨fs₁, -, -, hleft₁, hread₁⟩ := hresides.leaves_bytes (by decide) hitems [0, 255]
  have hresides₁ := (hresides.littered hleft₁).1
  obtain ⟨fs', -, hedit, hleft₂, hread₂⟩ :=
    hresides₁.leaves_bytes plain_draftName hdraft [123]
  have hleft := hleft₁.trans hleft₂
  have hread : fs'.read (["shop"] ++ [Name.tableFile items.name]) = .ok [0, 255] := by
    refine (hedit.read_child hresides₁.rooted (hedit.rooted_child hresides₁.rooted)
      (by decide) ?_).trans hread₁
    exact fun heq => absurd (child_inj.mp heq) (by decide)
  obtain ⟨d₁, w₁, d₂, w₂, -, -, hrun, hfiles, htables, halike, hcreate⟩ :=
    leftovers_never_resurface (w := market.2) tended_market hleft ()
  have hkeys : Keyed.keys d₂.tables = ["users"] := by
    have hsame := congrArg (List.map Prod.fst) (halike.tables.symm.trans htables)
    rw [List.map_map, List.map_map] at hsame
    exact hsame.trans (by decide +kernel)
  obtain ⟨node, hopen, -⟩ := of_bind_ok hread
  have hfree : Name.tableFile items.name ∉ d₂.files := by
    rw [files, hkeys]
    decide
  obtain ⟨st, z, hcreated, hadded⟩ := hcreate [] (fun op hop => nomatch hop) d₂ w₂ rfl items
    items.columns node rfl (by decide) (hfiles ▸ hopen) hfree
  exact ⟨_, _, fs', d₂, w₂, st, z, tended_market, hleft, hread, hread₂, hrun,
    hkeys, hcreated, hadded⟩

end Database
end Tabulary
