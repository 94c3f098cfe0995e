import Tabulary.Proofs.Catalog.Rollback
import Tabulary.Proofs.Files.Bare
import Tabulary.Proofs.Store.Lifecycle

/-!
A database at home in its directory.  Its manifest and the files of its tables are there, and so may
other files be that it knows nothing of.  Its stores are open or closed.  What is done to the
database keeps it at home, and opening the directory again gives the tables that it has.
-/

namespace Tabulary

open Attempt Files Record

/-! ## Stores -/

namespace Store

variable {directory place : Path} {fs fs' : Files} {touched : Path → Prop} {name : String}
  {st : Store} {t : Memory.Table} {w w' : World}

/-- A store of a table in a directory: it shows the table, or it did until it was closed. -/
inductive StandsFor (directory : Path) (fs : Files) (name : String) :
    Store → Memory.Table → Prop
  | shown {st : Store} {t : Memory.Table} (shows : Shows directory fs name st t) :
      StandsFor directory fs name st t
  | closed {st : Store} {t : Memory.Table} (shows : Shows directory fs name st t) :
      StandsFor directory fs name { st with handle := none } t

theorem Shows.entry (h : Shows directory fs name st t) (hr : Rooted fs directory place) :
    ∃ node, fs.entry? (place ++ [Name.tableFile name]) = some (.file node) := by
  obtain ⟨handle, records, ho, -⟩ := h.opened
  exact ⟨handle.node, (hr.openFile_child h.plain).mp ho.opened⟩

/-- The index of a table is the one that its file gives. -/
theorem Shows.table_eq (h : Shows directory fs name st t) :
    ∃ bytes, fs.read (directory ++ [Name.tableFile name]) = .ok bytes ∧
      st.table = Table.ofFile t.schema bytes := by
  obtain ⟨handle, records, ho, -⟩ := h.opened
  refine ⟨fs.nodeBytes handle.node, ?_, ho.table_eq⟩
  rw [Files.read, ho.opened]
  rfl

/-- What is asked of a table is answered from its rows. -/
theorem Shows.answer_eq (h : Shows directory w.files name st t) (op : Operation) :
    (op.run.run (st, w)).1 = (op.onFile t.schema t.rows).map Prod.fst := by
  obtain ⟨handle, records, ho, hrows⟩ := h.opened
  rw [(Operation.run_ends_onFile ho op).result_eq, hrows]

namespace StandsFor

/-- The store with the file open shows the table. -/
theorem shows (h : StandsFor directory fs name st t) :
    ∃ handle, Shows directory fs name { st with handle } t := by
  cases h with
  | shown h => exact ⟨st.handle, h⟩
  | @closed st _ h => exact ⟨st.handle, h⟩

theorem schema_eq (h : StandsFor directory fs name st t) : st.schema = t.schema := by
  obtain ⟨_, hshows⟩ := h.shows
  exact hshows.schema_eq

theorem path_eq (h : StandsFor directory fs name st t) :
    st.path = directory ++ [Name.tableFile name] := by
  obtain ⟨_, hshows⟩ := h.shows
  exact hshows.path_eq

theorem dropped_eq (h : StandsFor directory fs name st t) : st.dropped = false := by
  obtain ⟨_, hshows⟩ := h.shows
  obtain ⟨_, _, ho, -⟩ := hshows.opened
  exact ho.dropped

theorem close (h : StandsFor directory fs name st t) :
    StandsFor directory fs name { st with handle := none } t := by
  cases h with
  | shown h => exact .closed h
  | @closed st t h => exact @closed _ _ _ st t h

theorem edit (h : StandsFor directory fs name st t) (hr : Rooted fs directory place)
    (hr' : Rooted fs' directory place) (he : Edit touched fs fs')
    (hfree : ¬touched (place ++ [Name.tableFile name])) : StandsFor directory fs' name st t := by
  cases h with
  | shown h => exact .shown (h.edit hr hr' he hfree)
  | closed h => exact .closed (h.edit hr hr' he hfree)

theorem of_open (h : StandsFor directory fs name st t) (hopen : st.handle ≠ none) :
    Shows directory fs name st t := by
  cases h with
  | shown h => exact h
  | closed h => exact absurd rfl hopen

/-- The table can be opened again, whether its store is open or not. -/
theorem run_reopen (h : StandsFor directory w.files name st t) :
    ∃ st' w', Operation.reopen.run.run (st, w) = (.ok .done, (st', w')) ∧ w'.files = w.files ∧
      Shows directory w'.files name st' t := by
  obtain ⟨handle, hshows⟩ := h.shows
  obtain ⟨h₀, records, ho, hrows⟩ := hshows.opened
  have hschema : st.schema = t.schema := h.schema_eq
  obtain ⟨w₁, hclose, hfiles⟩ := run_close st w
  rw [← hfiles] at ho
  have hlaid : Laid t.schema 0 records (w₁.files.nodeBytes h₀.node) := hschema ▸ ho.holds.laid
  obtain ⟨w₂, hopen, hfiles₂, ho₂⟩ := run_openFile (w := w₁)
    ({ st with handle := none } : Store)
    (Files.readies_self ho.opened) ho.opened hlaid (hschema ▸ ho.holds.distinct)
  refine ⟨_, w₂, ?_, hfiles₂.trans hfiles, hshows.named, hshows.plain,
    hshows.normal, _, records, ho₂, hrows⟩
  show (do Store.reopen; return Answer.done : Work Store Answer).run (st, w) = _
  have hsame : (openFile st.schema st.path : Work Store Store) =
      openFile t.schema (directory ++ [Name.tableFile name]) := by rw [hschema, h.path_eq]
  rw [Store.reopen_eq, bind_assoc, run_bind_of_ok (Work.run_state _), bind_assoc,
    run_bind_of_ok hclose, bind_assoc, hsame, run_bind_of_ok hopen]
  rfl

/-- What a closed store answers depends on nothing but the store. -/
theorem answer_of_closed (h : StandsFor directory w.files name st t)
    (h' : StandsFor directory w'.files name st t) (hclosed : st.handle = none) (op : Operation) :
    (op.run.run (st, w)).1 = (op.run.run (st, w')).1 := by
  by_cases hown : op = .reopen
  · subst hown
    obtain ⟨_, _, hrun, -⟩ := h.run_reopen
    obtain ⟨_, _, hrun', -⟩ := h'.run_reopen
    rw [hrun, hrun']
  · obtain ⟨e, hidle⟩ := idle?_of_closed hclosed
    have hrun (w : World) : op.run.run (st, w) = (Call.unused st e (.ask op hown), (st, w)) :=
      run_call_of_idle (c := .ask op hown) hidle hclosed nofun
    rw [hrun, hrun]

/-- A store answers alike wherever it stands for the same table. -/
theorem answer_eq (h : StandsFor directory w.files name st t)
    (h' : StandsFor directory w'.files name st t)
    (op : Operation) : (op.run.run (st, w)).1 = (op.run.run (st, w')).1 := by
  by_cases hclosed : st.handle = none
  · exact h.answer_of_closed h' hclosed op
  · rw [(h.of_open hclosed).answer_eq, (h'.of_open hclosed).answer_eq]

/-- An operation leaves a table of the same schema, and changes its file at most. -/
theorem run (h : StandsFor directory w.files name st t) (hr : Rooted w.files directory place)
    (hs : w.files.Sane) (op : Operation) :
    ∃ result st' w' rows, op.run.run (st, w) = (result, (st', w')) ∧
      StandsFor directory w'.files name st' { t with rows } ∧
      Edit (· = place ++ [Name.tableFile name]) w.files w'.files ∧
      ∀ q, w'.files.entry? q = w.files.entry? q := by
  have hsame {w' : World} (hfiles : w'.files = w.files) :
      Edit (· = place ++ [Name.tableFile name]) w.files w'.files := by
    rw [hfiles]
    exact Edit.refl hs
  by_cases hown : op = .reopen
  · subst hown
    obtain ⟨st', w', hrun, hfiles, hshows⟩ := h.run_reopen
    exact ⟨_, st', w', t.rows, hrun, .shown hshows, hsame hfiles, fun q => by rw [hfiles]⟩
  by_cases hclosed : st.handle = none
  · obtain ⟨e, hidle⟩ := idle?_of_closed hclosed
    have hrun : op.run.run (st, w) = (Call.unused st e (.ask op hown), (st, w)) :=
      run_call_of_idle (c := .ask op hown) hidle hclosed nofun
    exact ⟨_, st, w, t.rows, hrun, h, hsame rfl, fun _ => rfl⟩
  · have hshows := h.of_open hclosed
    obtain ⟨handle, records, ho, hrows⟩ := hshows.opened
    have hends := Operation.run_ends_onFile ho op
    generalize op.run.run (st, w) = ending at hends ⊢
    generalize op.onFile t.schema (liveRows records) = expected at hends
    cases hends with
    | @error e st' handle' w' ho' hfiles =>
      refine ⟨_, st', w', t.rows, rfl, ?_, hsame hfiles, fun q => by rw [hfiles]⟩
      exact .shown ⟨hshows.named, hshows.plain, hshows.normal, handle', records, ho', hrows⟩
    | @ok a st' handle' w' records' ho' hrewrites =>
      obtain ⟨hedit, hentries⟩ := hrewrites.edit hs hr hshows.plain
      refine ⟨_, st', w', liveRows records', rfl, ?_, hedit, hentries⟩
      exact .shown ⟨hshows.named, hshows.plain, hshows.normal, handle', records', ho', rfl⟩

end StandsFor
end Store

/-! ## Databases -/

namespace Database

variable {directory place : Path} {fs fs' : Files} {touched : Path → Prop} {name table : String}
  {d : Database} {m : Memory.Tables} {w : World} {schema : Schema} {st : Store}

/-- A database keeps these tables in a directory, in which there are files only.  Whether a manifest
lists them is left open. -/
structure Stocked (directory place : Path) (fs : Files) (name : String) (d : Database)
    (m : Memory.Tables) : Prop where
  named : d.name = name
  located : d.directory = directory
  rooted : Rooted fs directory place
  sane : fs.Sane
  tables : Keyed.Match (Store.StandsFor directory fs) d.tables m
  apart : Name.Apart m
  flat : fs.Flat place

/-- The manifest in the directory lists the tables of the database, and their files are there. -/
structure Resides (directory place : Path) (fs : Files) (name : String) (d : Database)
    (m : Memory.Tables) : Prop extends Stocked directory place fs name d m where
  manifest : Lists fs place name m

/-- A change of files that the database knows nothing of. -/
theorem Stocked.edit (h : Stocked directory place fs name d m) (he : Edit touched fs fs')
    (hr : Rooted fs' directory place) (hflat : fs'.Flat place)
    (hfree : ∀ table ∈ Keyed.keys m, ¬touched (place ++ [Name.tableFile table])) :
    Stocked directory place fs' name d m where
  named := h.named
  located := h.located
  rooted := hr
  sane := he.sane
  tables := h.tables.mono fun table st t hmem hst => by
    refine hst.edit h.rooted hr he (hfree table ?_)
    rw [← h.tables.keys_eq]
    exact List.mem_map.mpr ⟨_, hmem, rfl⟩
  apart := h.apart
  flat := hflat

theorem Resides.edit (h : Resides directory place fs name d m) (he : Edit touched fs fs')
    (hr : Rooted fs' directory place) (hflat : fs'.Flat place)
    (hmanifest : ¬touched (place ++ [manifestName]))
    (hfree : ∀ table ∈ Keyed.keys m, ¬touched (place ++ [Name.tableFile table])) :
    Resides directory place fs' name d m where
  toStocked := h.toStocked.edit he hr hflat hfree
  manifest := h.manifest.edit he hmanifest

/-- The file of another table goes. -/
theorem Resides.edit_gone (h : Resides directory place fs name d m)
    (he : Edit (· = place ++ [Name.tableFile table]) fs fs')
    (hgone : fs'.entry? (place ++ [Name.tableFile table]) = none)
    (hnew : ∀ other ∈ Keyed.keys m, Name.tableFile other ≠ Name.tableFile table) :
    Resides directory place fs' name d m := by
  refine h.edit he (he.rooted_child h.rooted) (h.flat.edit he ?_)
    (fun heq => tableFile_ne_manifestName table (child_inj.mp heq).symm)
    fun other hmem heq => hnew other hmem (child_inj.mp heq)
  rintro q rfl
  rw [hgone]
  exact nofun

/-- Writing the manifest completes what a directory has to hold. -/
theorem Stocked.run_saveManifest (h : Stocked directory place w.files name d m) :
    ∃ fs', saveManifest.run (d, w) = (.ok (), (d, { w with files := fs' })) ∧
      Edit (Saving place) w.files fs' ∧ Resides directory place fs' name d m := by
  have hfree (file : String) : w.files.entry? (place ++ [file]) ≠ some .directory :=
    h.flat _ (below_child place file)
  obtain ⟨fs', hrun, hr, written⟩ :=
    run_saveManifest_of_free h.located h.rooted h.sane (hfree draftName) (hfree manifestName)
  obtain ⟨node, hentry, hbytes⟩ := written.manifest
  rw [manifest_eq h.tables fun _ _ _ hst => hst.schema_eq, h.named] at hbytes
  have hflat : fs'.Flat place := by
    refine h.flat.edit written.edit ?_
    rintro q (rfl | rfl)
    · rw [written.draft]
      exact nofun
    · rw [hentry]
      exact nofun
  exact ⟨fs', hrun, written.edit,
    h.edit written.edit hr hflat fun table _ => not_saving_tableFile place table, node, hentry,
    hbytes⟩

/-! ### Creating a table -/

/-- The file of a new table joins the others. -/
theorem Stocked.run_openFile (h : Stocked directory place w.files name d m)
    (hnew : ∀ table ∈ Keyed.keys m, Name.tableFile table ≠ Name.tableFile schema.name)
    (hn : Plain (Name.tableFile schema.name))
    (hnormal : (Manifest.Table.ofSchema schema).toSchema = .ok schema)
    (hnone : w.files.entry? (place ++ [Name.tableFile schema.name]) = none) :
    ∃ st w', (Store.openFile schema (directory ++ [Name.tableFile schema.name])).run (d, w) =
        (.ok st, (d, w')) ∧
      Edit (· = place ++ [Name.tableFile schema.name]) w.files w'.files ∧
      Stocked directory place w'.files name { d with tables := d.tables ++ [(schema.name, st)] }
        (m ++ [(schema.name, ⟨schema, []⟩)]) ∧
      ∃ handle, Store.Opened schema (directory ++ [Name.tableFile schema.name]) st handle w'.files
        [] := by
  obtain ⟨st, w', hrun, hedit, handle, ho⟩ :=
    Store.run_openFile_of_new schema d h.rooted h.sane hn hnone
  have hr : Rooted w'.files directory place := hedit.rooted_child h.rooted
  have hflat := h.flat.edit_file hedit ((hr.openFile_child hn).mp ho.opened)
  have hstocked := h.edit hedit hr hflat fun table hmem heq => hnew table hmem (child_inj.mp heq)
  refine ⟨st, w', hrun, hedit, ?_, handle, ho⟩
  exact { hstocked with
    tables := hstocked.tables.concat (.shown ⟨rfl, hn, hnormal, handle, [], ho, rfl⟩)
    apart := h.apart.concat fun other hmem heq => hnew other hmem (Name.tableFile_inj.mpr heq) }

/-- A database with one more table, which is empty. -/
structure Extended (directory place : Path) (fs : Files) (name : String) (d : Database)
    (m : Memory.Tables) (schema : Schema) (st : Store) (fs' : Files) : Prop where
  resides : Resides directory place fs' name { d with tables := d.tables ++ [(schema.name, st)] }
    (m ++ [(schema.name, ⟨schema, []⟩)])
  edit : Edit (Defining place schema.name) fs fs'
  empty : ∃ handle, Store.Opened schema (directory ++ [Name.tableFile schema.name])
    st handle fs' []

theorem Stocked.run_enter (h : Stocked directory place w.files name d m)
    (hnew : ∀ table ∈ Keyed.keys m, Name.tableFile table ≠ Name.tableFile schema.name)
    (hn : Plain (Name.tableFile schema.name))
    (hnormal : (Manifest.Table.ofSchema schema).toSchema = .ok schema)
    (hnone : w.files.entry? (place ++ [Name.tableFile schema.name]) = none) :
    ∃ st w', (enter d schema).run (d, w) =
        (.ok (), ({ d with tables := d.tables ++ [(schema.name, st)] }, w')) ∧
      Extended directory place w.files name d m schema st w'.files := by
  obtain ⟨st, w₁, hopen, hedit, hstocked, handle, ho⟩ := h.run_openFile hnew hn hnormal hnone
  obtain ⟨fs₂, hsave, hsaving, hresides⟩ := hstocked.run_saveManifest
  have hkey : schema.name ∉ Keyed.keys d.tables := by
    rw [h.tables.keys_eq]
    exact fun hmem => hnew _ hmem rfl
  have hset : (setTables (Keyed.set schema.name st d.tables)).run (d, w₁) =
      (.ok (), ({ d with tables := d.tables ++ [(schema.name, st)] }, w₁)) := by
    rw [Keyed.set_of_not_mem hkey]
    rfl
  have hfree : ¬Saving place (place ++ [Name.tableFile schema.name]) :=
    not_saving_tableFile place schema.name
  have hentry := (hstocked.rooted.openFile_child hn).mp ho.opened
  have hend : ∃ w', (enter d schema).run (d, w) =
      (.ok (), ({ d with tables := d.tables ++ [(schema.name, st)] }, w')) ∧
      w'.files = fs₂ := by
    rw [← h.located] at hopen
    unfold enter
    rw [run_bind_of_ok hopen, run_bind_of_ok hset, run_bind_of_ok (run_tryCatch_of_ok hsave)]
    refine ⟨_, rfl, ?_⟩
    rfl
  obtain ⟨w', hrun, rfl⟩ := hend
  refine ⟨st, w', hrun, hresides, ?_, handle, ?_⟩
  · exact (hedit.mono fun q hq => Or.inl hq).trans (hsaving.mono fun q hq => Or.inr hq)
  · exact ho.congr ((hresides.rooted.openFile_child hn).mpr ((hsaving.entry _ hfree).trans hentry))
      (hsaving.bytes _ _ hfree hentry)

/-- A file that lies where a new table goes is removed. -/
theorem Resides.run_discard (h : Resides directory place w.files name d m)
    (hnew : ∀ table ∈ Keyed.keys m, Name.tableFile table ≠ Name.tableFile schema.name)
    (hn : Plain (Name.tableFile schema.name)) :
    ∃ w', (discard d schema).run (d, w) = (.ok (), (d, w')) ∧
      Edit (· = place ++ [Name.tableFile schema.name]) w.files w'.files ∧
      w'.files.entry? (place ++ [Name.tableFile schema.name]) = none ∧
      Resides directory place w'.files name d m := by
  have hthere := h.rooted.isThere_child hn
  rw [Database.run_discard, h.located, hthere]
  cases hentry : w.files.entry? (place ++ [Name.tableFile schema.name]) with
  | none => exact ⟨w, rfl, Edit.refl h.sane, hentry, h⟩
  | some e =>
    cases e with
    | directory => exact absurd hentry (h.flat _ (below_child _ _))
    | file node =>
      obtain ⟨fs', hremove, hedit, hnone⟩ := h.rooted.remove_child h.sane hn hentry
      dsimp only [Option.isSome, World.log]
      rw [Work.run_change]
      dsimp only
      rw [hremove]
      exact ⟨_, rfl, hedit, hnone, h.edit_gone hedit hnone hnew⟩

theorem Resides.file_ne (h : Resides directory place fs name d m)
    (hcheck : d.checkNew schema = .ok ()) :
    ∀ table ∈ Keyed.keys m, Name.tableFile table ≠ Name.tableFile schema.name := by
  intro table hmem heq
  obtain ⟨x, hx, rfl⟩ := List.mem_map.mp hmem
  obtain ⟨st, hst, hstands⟩ := h.tables.of_mem_right hx
  refine checkNew_ok hcheck _ hst ?_
  rw [hstands.path_eq, h.located, heq]

/-- A table whose name and file are free is created, with nothing in it. -/
theorem Resides.run_createTable (h : Resides directory place w.files name d m)
    (hcheck : d.checkNew schema = .ok ()) (hn : Plain (Name.tableFile schema.name))
    (hnormal : (Manifest.Table.ofSchema schema).toSchema = .ok schema) :
    ∃ st w', (createTable schema).run (d, w) =
        (.ok (), ({ d with tables := d.tables ++ [(schema.name, st)] }, w')) ∧
      Extended directory place w.files name d m schema st w'.files := by
  have hnew := h.file_ne hcheck
  obtain ⟨w₁, hdiscard, hedit, hnone, h₁⟩ := h.run_discard hnew hn
  obtain ⟨st, w₂, henter, hextended⟩ := h₁.run_enter hnew hn hnormal hnone
  refine ⟨st, w₂, ?_, hextended.resides, ?_, hextended.empty⟩
  · rw [run_createTable_of_new hcheck, run_bind_of_ok hdiscard]
    exact henter
  · exact (hedit.mono fun q hq => Or.inl hq).trans hextended.edit

/-- A name that cannot be looked up makes no table. -/
theorem Resides.run_createTable_of_not_plain (h : Resides directory place w.files name d m)
    (hn : ¬Plain (Name.tableFile schema.name)) :
    ∃ e, (createTable schema).run (d, w) = (.error e, (d, w)) := by
  cases hcheck : d.checkNew schema with
  | error e => exact ⟨e, run_createTable_of_rejected hcheck⟩
  | ok _ =>
    rw [run_createTable_of_new hcheck]
    have hdiscard := Database.run_discard d schema w
    rw [h.located] at hdiscard
    cases hnul : hasNul [Name.tableFile schema.name] with
    | true =>
      rw [Rooted.isThere_child_hidden directory hnul] at hdiscard
      have hopen := Store.run_openFile_of_hidden schema d h.rooted hnul
      rw [← h.located] at hopen
      rw [run_bind_of_ok hdiscard]
      exact ⟨_, run_bind_of_error hopen⟩
    | false =>
      have hlong : maxName < (Text.toBytes (Name.tableFile schema.name)).length :=
        Nat.not_le.mp fun hshort => hn ⟨hnul, tableFile_ne_up _, hshort⟩
      rw [h.rooted.isThere_child_long hnul hlong] at hdiscard
      exact ⟨_, run_bind_of_error hdiscard⟩

/-! ### Dropping a table, and work on one -/

/-- A database with one table less: first its manifest does not list the table any more, and then
the file of the table is gone too. -/
structure Reduced (directory place : Path) (name : String) (d : Database) (m : Memory.Tables)
    (table : String) (fs fs' : Files) : Prop where
  unlisted : Resides directory place fs name { d with tables := Keyed.erase table d.tables }
    (Keyed.erase table m)
  resides : Resides directory place fs' name { d with tables := Keyed.erase table d.tables }
    (Keyed.erase table m)
  edit : Edit (· = place ++ [Name.tableFile table]) fs fs'
  free : ∀ other ∈ Keyed.keys (Keyed.erase table m),
    Name.tableFile other ≠ Name.tableFile table

theorem Resides.run_dropTable (h : Resides directory place w.files name d m)
    (hst : d.tables.lookup table = some st) :
    ∃ fs w', saveManifest.run ({ d with tables := Keyed.erase table d.tables }, w) =
        (.ok (), ({ d with tables := Keyed.erase table d.tables }, { w with files := fs })) ∧
      (dropTable table).run (d, w) =
        (.ok (), ({ d with tables := Keyed.erase table d.tables }, w')) ∧
      Reduced directory place name d m table fs w'.files := by
  obtain ⟨t, ht, hstands⟩ := h.tables.of_lookup hst
  have hstocked : Stocked directory place w.files name
      { d with tables := Keyed.erase table d.tables } (Keyed.erase table m) := { h with
    tables := h.tables.erase fun _ _ _ _ _ hother => hother
    apart := h.apart.erase table }
  have hfree : ∀ other ∈ Keyed.keys (Keyed.erase table m),
      Name.tableFile other ≠ Name.tableFile table := by
    intro other hmem
    obtain ⟨hmem', hne⟩ := Keyed.mem_keys_erase.mp hmem
    exact h.apart.file_ne hmem' (Keyed.mem_keys_of_lookup ht) hne
  obtain ⟨fs₁, hsave, hsaving, h₁⟩ := hstocked.run_saveManifest
  obtain ⟨handle, hshows⟩ := hstands.shows
  obtain ⟨node, hentry⟩ := hshows.entry h.rooted
  obtain ⟨fs₂, hremove, hedit, hnone⟩ :=
    h₁.rooted.removeIfThere_child h₁.sane hshows.plain
    ((hsaving.entry _ (not_saving_tableFile place table)).trans hentry)
  have hgone : ({ w with files := fs₁ } : World).files.removeIfThere st.path = .ok fs₂ := by
    rw [hstands.path_eq]
    exact hremove
  obtain ⟨w₂, hdrop, rfl⟩ := Store.run_drop_eq hstands.dropped_eq hgone
  have hend : ∃ w', (dropTable table).run (d, w) =
      (.ok (), ({ d with tables := Keyed.erase table d.tables }, w')) ∧
      w'.files = w₂.files := by
    rw [Database.run_dropTable hst, run_bind_of_ok hsave, run_bind_of_ok (Work.run_beside _ _ _),
      hdrop]
    exact ⟨_, rfl, rfl⟩
  obtain ⟨w', hrun, hfiles⟩ := hend
  refine ⟨fs₁, w', hsave, hrun, ?_⟩
  rw [hfiles]
  exact ⟨h₁, h₁.edit_gone hedit hnone hfree, hedit, hfree⟩

/-- An operation on one table, whatever it comes to. -/
theorem Resides.run_onTable (h : Resides directory place w.files name d m)
    (hst : d.tables.lookup table = some st) (op : Tabulary.Operation) :
    ∃ result st' w' m', (onTable table op.run).run (d, w) =
        (result, ({ d with tables := Keyed.set table st' d.tables }, w')) ∧
      Resides directory place w'.files name { d with tables := Keyed.set table st' d.tables }
        m' := by
  obtain ⟨t, ht, hstands⟩ := h.tables.of_lookup hst
  obtain ⟨result, st', w', rows, hrun, hstands', hedit, hentries⟩ :=
    hstands.run h.rooted h.sane op
  have hkey : table ∈ Keyed.keys m := Keyed.mem_keys_of_lookup ht
  have hrooted : Rooted w'.files directory place := h.rooted.congr fun q _ => hentries q
  have hon : (Tables.on table op.run).run (d.tables, w) =
      (result, (Keyed.set table st' d.tables, w')) := by
    rw [Tables.run_on hst, hrun]
  refine ⟨result, st', w', Keyed.set table { t with rows } m, run_onTables hon, ?_⟩
  have hschemas : (Keyed.set table { t with rows } m).map (fun t => (t.1, t.2.schema)) =
      m.map fun t => (t.1, t.2.schema) := by
    refine Keyed.map_set _ (fun old hold => ?_) hkey
    cases hold.symm.trans ht
    rfl
  exact { h with
    rooted := hrooted
    sane := hedit.sane
    tables := by
      refine h.tables.update ?_ hstands' fun other st'' t'' hmem hne hother => ?_
      · rw [h.tables.keys_eq]
        exact h.apart.keys
      · have hother' : other ∈ Keyed.keys m := by
          rw [← h.tables.keys_eq]
          exact List.mem_map.mpr ⟨_, hmem, rfl⟩
        exact hother.edit h.rooted hrooted hedit fun heq =>
          h.apart.file_ne hother' hkey hne (child_inj.mp heq)
    apart := by
      unfold Name.Apart
      rw [Keyed.keys_set_of_mem hkey]
      exact h.apart
    flat := fun q hq => by
      rw [hentries]
      exact h.flat q hq
    manifest := by
      unfold Lists
      rw [manifestOf_congr hschemas]
      exact h.manifest.edit hedit fun heq =>
        tableFile_ne_manifestName table (child_inj.mp heq).symm }

/-- Closing leaves the files, and the tables that the stores stand for. -/
theorem Resides.run_close (h : Resides directory place w.files name d m) :
    ∃ ts w', close.run (d, w) = (.ok (), ({ d with tables := ts }, w')) ∧ w'.files = w.files ∧
      Resides directory place w.files name { d with tables := ts } m := by
  have hstep : ∀ table ∈ Keyed.keys d.tables, ∀ x : Tables × World,
      (x.2.files = w.files ∧ Keyed.Match (Store.StandsFor directory w.files) x.1 m) →
        ∃ x', (Tables.on table Store.close).run x = (.ok (), x') ∧ x'.2.files = w.files ∧
          Keyed.Match (Store.StandsFor directory w.files) x'.1 m := by
    rintro table hmem ⟨ts, w₁⟩ ⟨hfiles, hmatch⟩
    rw [h.tables.keys_eq, ← hmatch.keys_eq] at hmem
    obtain ⟨st, hst⟩ := Keyed.exists_lookup hmem
    obtain ⟨w₂, hclose, hsame⟩ := Store.run_close st w₁
    refine ⟨(Keyed.set table { st with handle := none } ts, w₂), ?_, hsame.trans hfiles, ?_⟩
    · rw [Tables.run_on hst, hclose]
    · obtain ⟨t, ht, hstands⟩ := hmatch.of_lookup hst
      rw [← Keyed.set_of_lookup ht]
      refine hmatch.update ?_ hstands.close fun _ _ _ _ _ hother => hother
      rw [hmatch.keys_eq]
      exact h.apart.keys
  obtain ⟨⟨ts, w'⟩, hrun, hfiles, hmatch⟩ :=
    Attempt.exists_run_forM hstep (s := (d.tables, w)) ⟨rfl, h.tables⟩
  exact ⟨ts, w', run_onTables hrun, hfiles, { h with tables := hmatch }⟩

/-! ### Opening the directory -/

/-- The directory is opened with the tables that the database stands for. -/
theorem Resides.run_openIn {σ : Type} (h : Resides directory place w.files name d m) (y : σ) :
    ∃ d' w', (openIn name directory : Work σ Database).run (y, w) = (.ok d', (y, w')) ∧
      w'.files = w.files ∧ Resides directory place w.files name d' m ∧
      Keyed.Match (Store.Shows directory w.files) d'.tables m := by
  have hthere : ∀ t ∈ m, ∃ st, Store.Shows directory w.files t.1 st t.2 := by
    intro t ht
    obtain ⟨st, -, hst⟩ := h.tables.of_mem_right ht
    obtain ⟨handle, hshows⟩ := hst.shows
    exact ⟨_, hshows⟩
  obtain ⟨ts, w', hrun, hfiles, hmatch⟩ :=
    run_openIn_of_listed h.manifest h.rooted hthere h.apart y
  refine ⟨_, w', hrun, hfiles, ?_, hmatch⟩
  exact { h with
    named := rfl
    located := rfl
    tables := hmatch.mono fun _ _ _ _ hshows => .shown hshows }

end Database
end Tabulary
