import Tabulary.Proofs.Attempt
import Tabulary.Proofs.Operator.Query

/-!
A database among the files: its manifest and one file for each table stand in its directory, and
nothing else does.  Work on its tables leaves the manifest as it is, and writing the manifest leaves
the tables.
-/

namespace Tabulary
namespace Database

open Files

/-- What the manifest says of a database of these tables. -/
def manifestOf (name : String) (m : Memory.Tables) : Manifest where
  database := name
  tables := m.map fun t => .ofSchema t.2.schema

def draftName : String := manifestName ++ ".tmp"

/-- The names of the files in the directory of a database. -/
def fileNames (m : Memory.Tables) : List String :=
  manifestName :: (Keyed.keys m).map Name.tableFile

/-- There is nothing in a directory but files of these names. -/
def Only (fs : Files) (place : Path) (files : List String) : Prop :=
  ∀ file rest, (fs.entry? (place ++ file :: rest)).isSome → rest = [] ∧ file ∈ files

/-- The manifest at its place, as a database of these tables writes it. -/
def Lists (fs : Files) (place : Path) (name : String) (m : Memory.Tables) : Prop :=
  ∃ node, fs.entry? (place ++ [manifestName]) = some (.file node) ∧
    fs.nodeBytes node = Text.toBytes (manifestOf name m).render

/-- The database has its directory to itself, and what it keeps there are these tables. -/
structure Shows (directory place : Path) (fs : Files) (name : String) (d : Database)
    (m : Memory.Tables) : Prop where
  named : d.name = name
  located : d.directory = directory
  rooted : Rooted fs directory place
  tables : Keyed.Match (Store.Shows directory fs) d.tables m
  apart : Name.Apart m
  manifest : Lists fs place name m
  only : Only fs place (fileNames m)

/-- The database of a name shows these tables, and since the files were those at the start only
places in its directory have changed. -/
structure At (site : Memory.Site) (place : Path) (start : Files) (name : String)
    (x : Database × World) (m : Memory.Tables) : Prop where
  plain : Plain (Name.sanitize name)
  anchor : start.anchor = site.anchor
  shows : Shows (site.home name) place x.2.files name x.1 m
  edit : Edit (place <+: ·) start x.2.files

variable {directory place : Path} {fs fs' start : Files} {touched : Path → Prop}
  {name table : String}
  {d : Database} {m m' : Memory.Tables} {ts : Tables} {w w' : World} {site : Memory.Site}
  {t : Memory.Table}

/-! ## Names -/

theorem plain_manifestName : Plain manifestName := by decide

theorem plain_draftName : Plain draftName := by decide

theorem draftName_ne_manifestName : draftName ≠ manifestName := by decide

/-- No table has its rows where the manifest or its draft is. -/
theorem tableFile_ne {file : String} (h : file.toList.getLast? ≠ some 'l') (table : String) :
    Name.tableFile table ≠ file := by
  rintro rfl
  refine h ?_
  rw [Name.tableFile, String.toList_append, List.getLast?_append]
  rfl

theorem tableFile_ne_manifestName (table : String) : Name.tableFile table ≠ manifestName :=
  tableFile_ne (by decide) table

theorem tableFile_ne_draftName (table : String) : Name.tableFile table ≠ draftName :=
  tableFile_ne (by decide) table

/-! ## What there is in the directory -/

theorem Only.mono {files files' : List String} (h : Only fs place files) (hsub : files ⊆ files') :
    Only fs place files' := fun file rest hsome =>
  ⟨(h file rest hsome).1, hsub (h file rest hsome).2⟩

theorem Only.not_mem {files : List String} (h : Only fs place files) {file : String}
    (hfile : file ∉ files) : fs.entry? (place ++ [file]) = none := by
  rw [← Option.not_isSome_iff_eq_none]
  exact fun hsome => hfile (h file [] hsome).2

/-- A change at places that are gone after it, or that belong to the files. -/
theorem Only.edit {files : List String} (h : Only fs place files) (he : Edit touched fs fs')
    (ht : ∀ file rest, touched (place ++ file :: rest) →
      fs'.entry? (place ++ file :: rest) = none ∨ rest = [] ∧ file ∈ files) :
    Only fs' place files := by
  intro file rest hsome
  by_cases hq : touched (place ++ file :: rest)
  · rcases ht file rest hq with hnone | hfile
    · rw [hnone] at hsome
      cases hsome
    · exact hfile
  · rw [he.entry _ hq] at hsome
    exact h file rest hsome

/-- The directory without a file that is gone. -/
theorem Only.narrow {files files' : List String} (h : Only fs place files)
    (hgone : ∀ file ∈ files, file ∉ files' → fs.entry? (place ++ [file]) = none) :
    Only fs place files' := by
  intro file rest hsome
  obtain ⟨rfl, hfile⟩ := h file rest hsome
  refine ⟨rfl, ?_⟩
  by_contra hnot
  rw [hgone file hfile hnot] at hsome
  cases hsome

theorem tableFile_mem (h : table ∈ Keyed.keys m) : Name.tableFile table ∈ fileNames m :=
  List.mem_cons_of_mem _ (List.mem_map_of_mem h)

theorem draftName_not_mem (m : Memory.Tables) : draftName ∉ fileNames m := by
  intro h
  rcases List.mem_cons.mp h with heq | hmem
  · exact draftName_ne_manifestName heq
  · obtain ⟨table, -, heq⟩ := List.mem_map.mp hmem
    exact tableFile_ne_draftName table heq

theorem tableFile_not_mem_of_ne (h : ∀ other ∈ Keyed.keys m,
    Name.tableFile other ≠ Name.tableFile table) : Name.tableFile table ∉ fileNames m := by
  intro hmem
  rcases List.mem_cons.mp hmem with heq | hmem
  · exact tableFile_ne_manifestName table heq
  · obtain ⟨other, hother, heq⟩ := List.mem_map.mp hmem
    exact h other hother heq

theorem fileNames_concat (m : Memory.Tables) (table : String) (t : Memory.Table) :
    fileNames (m ++ [(table, t)]) = fileNames m ++ [Name.tableFile table] := by
  simp [fileNames, Keyed.keys]

/-! ## The tables and the manifest -/

theorem match_edit (h : Keyed.Match (Store.Shows directory fs) ts m)
    (hr : Rooted fs directory place) (hr' : Rooted fs' directory place) (he : Edit touched fs fs')
    (hfree : ∀ table ∈ Keyed.keys m, ¬touched (place ++ [Name.tableFile table])) :
    Keyed.Match (Store.Shows directory fs') ts m :=
  h.mono fun table st t hmem hshows => by
    refine hshows.edit hr hr' he (hfree table ?_)
    rw [← h.keys_eq]
    exact List.mem_map.mpr ⟨_, hmem, rfl⟩

theorem Lists.edit (h : Lists fs place name m) (he : Edit touched fs fs')
    (hfree : ¬touched (place ++ [manifestName])) : Lists fs' place name m := by
  obtain ⟨node, hentry, hbytes⟩ := h
  exact ⟨node, (he.entry _ hfree).trans hentry, (he.bytes _ _ hfree hentry).trans hbytes⟩

theorem Lists.not_directory (h : Lists fs place name m) :
    fs.entry? (place ++ [manifestName]) ≠ some .directory := by
  obtain ⟨node, hentry, -⟩ := h
  rw [hentry]
  exact nofun

/-- The manifest says of the tables what their schemas say. -/
theorem manifestOf_congr
    (h : m'.map (fun t => (t.1, t.2.schema)) = m.map fun t => (t.1, t.2.schema)) :
    manifestOf name m' = manifestOf name m := by
  have hschemas := congrArg (List.map fun t => Manifest.Table.ofSchema t.2) h
  simp only [List.map_map] at hschemas
  exact congrArg (Manifest.mk name) hschemas

theorem keys_congr
    (h : m'.map (fun t => (t.1, t.2.schema)) = m.map fun t => (t.1, t.2.schema)) :
    Keyed.keys m' = Keyed.keys m := by
  have hkeys := congrArg (List.map Prod.fst) h
  simp only [List.map_map] at hkeys
  exact hkeys

theorem manifest_eq {R : String → Store → Memory.Table → Prop} (h : Keyed.Match R d.tables m)
    (hschema : ∀ name st t, R name st t → st.schema = t.schema) :
    d.manifest = manifestOf d.name m :=
  congrArg (Manifest.mk d.name)
    (h.map_eq fun name st t hst => congrArg Manifest.Table.ofSchema (hschema name st t hst))

theorem Shows.edit (h : Shows directory place fs name d m) (he : Edit touched fs fs')
    (hr' : Rooted fs' directory place) (hfree : ∀ q, touched q → ¬place <+: q) :
    Shows directory place fs' name d m where
  named := h.named
  located := h.located
  rooted := hr'
  tables := match_edit h.tables h.rooted hr' he fun _ _ ht => hfree _ ht (List.prefix_append _ _)
  apart := h.apart
  manifest := h.manifest.edit he fun ht => hfree _ ht (List.prefix_append _ _)
  only := h.only.edit he fun _ _ ht => absurd (List.prefix_append _ _) (hfree _ ht)

/-- The places that writing the manifest uses. -/
def Saving (place q : Path) : Prop := q = place ++ [draftName] ∨ q = place ++ [manifestName]

theorem not_saving_tableFile (place : Path) (table : String) :
    ¬Saving place (place ++ [Name.tableFile table]) := by
  rintro (heq | heq)
  · exact tableFile_ne_draftName table (child_inj.mp heq)
  · exact tableFile_ne_manifestName table (child_inj.mp heq)

theorem Saving.within {q : Path} (h : Saving place q) : place <+: q := by
  rcases h with rfl | rfl <;> exact List.prefix_append _ _

theorem Saving.below {q : Path} (h : Saving place q) : Below place q := by
  rcases h with rfl | rfl <;> exact below_child _ _

/-- The manifest says what the database is, and its draft is gone. -/
structure Written (place : Path) (fs fs' : Files) (d : Database) : Prop where
  edit : Edit (Saving place) fs fs'
  draft : fs'.entry? (place ++ [draftName]) = none
  manifest : ∃ node, fs'.entry? (place ++ [manifestName]) = some (.file node) ∧
    fs'.nodeBytes node = Text.toBytes d.manifest.render

/-- The manifest is written by way of a draft, where no directories are in the way. -/
theorem run_saveManifest_of_free (hd : d.directory = directory)
    (hr : Rooted w.files directory place)
    (hs : w.files.Sane) (hdraft : w.files.entry? (place ++ [draftName]) ≠ some .directory)
    (hfree : w.files.entry? (place ++ [manifestName]) ≠ some .directory) :
    ∃ fs', saveManifest.run (d, w) = (.ok (), (d, { w with files := fs' })) ∧
      Rooted fs' directory place ∧ Written place w.files fs' d := by
  obtain ⟨fs₁, node, hwrite, hedit₁, hentry₁, hbytes₁⟩ :=
    hr.write_child hs plain_draftName hdraft (Text.toBytes d.manifest.render)
  have hfree₁ : fs₁.entry? (place ++ [manifestName]) ≠ some .directory := by
    rw [hedit₁.entry _ fun heq => draftName_ne_manifestName (child_inj.mp heq).symm]
    exact hfree
  have hr₁ : Rooted fs₁ directory place := hedit₁.rooted_child hr
  obtain ⟨fs₂, hmove, hedit₂, hgone, hentry₂, hbytes₂⟩ :=
    hr₁.move_child hedit₁.sane plain_draftName plain_manifestName
      draftName_ne_manifestName hentry₁ hfree₁
  have hedit : Edit (Saving place) w.files fs₂ :=
    (hedit₁.mono fun q hq => Or.inl hq).trans hedit₂
  refine ⟨fs₂, ?_, hedit.rooted hr fun q hq => hq.below, hedit, hgone, node, hentry₂,
    hbytes₂.trans hbytes₁⟩
  have hdraftPath : d.draftPath = directory ++ [draftName] := congrArg (· ++ [draftName]) hd
  have hmanifestPath : d.manifestPath = directory ++ [manifestName] :=
    congrArg (· ++ [manifestName]) hd
  unfold saveManifest
  rw [Attempt.run_bind_of_ok (Work.run_state _), hdraftPath, hmanifestPath]
  simp only [Attempt.run_bind, Work.run_change, hwrite, hmove]

/-- What the manifest says is what the tables are once it has been written. -/
structure Saved (directory place : Path) (fs fs' : Files) (d : Database) (m : Memory.Tables)
    (files : List String) : Prop where
  rooted : Rooted fs' directory place
  edit : Edit (Saving place) fs fs'
  tables : Keyed.Match (Store.Shows directory fs') d.tables m
  manifest : Lists fs' place d.name m
  only : Only fs' place files

/-- The tables are left as they are, and there is nothing that was not there before. -/
theorem run_saveManifest {files : List String} (hd : d.directory = directory)
    (hr : Rooted w.files directory place) (hs : w.files.Sane)
    (htables : Keyed.Match (Store.Shows directory w.files) d.tables m)
    (honly : Only w.files place files) (hmanifest : manifestName ∈ files)
    (hdraft : draftName ∉ files) (hfree : w.files.entry? (place ++ [manifestName]) ≠
      some .directory) :
    ∃ fs', saveManifest.run (d, w) = (.ok (), (d, { w with files := fs' })) ∧
      Saved directory place w.files fs' d m files := by
  have hdraftFree : w.files.entry? (place ++ [draftName]) ≠ some .directory := by
    rw [honly.not_mem hdraft]
    exact nofun
  obtain ⟨fs', hrun, hr', written⟩ := run_saveManifest_of_free hd hr hs hdraftFree hfree
  refine ⟨fs', hrun, hr', written.edit, ?_, ?_, ?_⟩
  · exact match_edit htables hr hr' written.edit fun table _ => not_saving_tableFile place table
  · have hlists := written.manifest
    rw [manifest_eq htables fun _ _ _ hshows => hshows.schema_eq] at hlists
    exact hlists
  · refine honly.edit written.edit fun file rest hq => ?_
    rcases hq with heq | heq
    · rw [heq]
      exact Or.inl written.draft
    · obtain ⟨rfl, hrest⟩ := below_eq_child.mp heq
      exact Or.inr ⟨hrest, hmanifest⟩

/-- A directory without a manifest is opened by writing one that lists no tables. -/
theorem run_openIn_of_missing {σ : Type} (y : σ)
    (hmake : w.files.ensureDirectory directory = (.ok (), fs))
    (hmissing : fs.isThere (directory ++ [manifestName]) = .ok false)
    (hsave : saveManifest.run
      (⟨name, directory, [], w.opened⟩, { w with files := fs, opened := w.opened + 1 }) =
      (.ok (), (d, w'))) :
    (openIn name directory : Work σ Database).run (y, w) = (.ok d, (y, w')) := by
  let d₀ : Database := ⟨name, directory, [], w.opened⟩
  let w₁ : World := { w with files := fs, opened := w.opened + 1 }
  have hdirectory : (Work.ensureDirectory directory : Work σ Unit).run (y, w) =
      (.ok (), (y, { w with files := fs })) := by
    rw [Work.run_ensureDirectory, hmake]
  have hserial : (Work.takeSerial : Work σ Nat).run (y, { w with files := fs }) =
      (.ok w.opened, (y, w₁)) := rfl
  have hknown : (Work.query fun fs => fs.isThere d₀.manifestPath : Work σ Bool).run (y, w₁) =
      (.ok false, (y, w₁)) := by
    rw [Work.run_query]
    exact congrArg (·, (y, w₁)) hmissing
  have hbeside := Work.run_beside (σ := σ) d₀ saveManifest (y, w₁)
  rw [hsave] at hbeside
  unfold openIn
  rw [Attempt.run_bind_of_ok hdirectory, Attempt.run_bind_of_ok hserial]
  refine (Attempt.run_bind_of_ok hknown).trans ?_
  rw [if_neg Bool.false_ne_true]
  refine (Attempt.run_bind_of_ok hbeside).trans ?_
  rfl

/-! ## Work on the tables -/

theorem At.sane (h : At site place start name (d, w) m) : w.files.Sane := h.edit.sane

/-- What is recorded of the work beside the files is not looked at. -/
theorem At.congr (h : At site place start name (d, w) m) (hf : w'.files = w.files) :
    At site place start name (d, w') m where
  plain := h.plain
  anchor := h.anchor
  shows := by
    show Shows _ place w'.files name d m
    rw [hf]
    exact h.shows
  edit := by
    show Edit _ start w'.files
    rw [hf]
    exact h.edit

theorem At.tablesAt (h : At site place start name (d, w) m) :
    Tables.At (site.home name) place w.files (m.map fun t => (t.1, t.2.schema)) m
      (d.tables, w) where
  rooted := h.shows.rooted
  shows := h.shows.tables
  apart := h.shows.apart
  schemas := rfl
  entries _ := rfl
  edit := Edit.refl h.sane

/-- Work on the tables leaves the rest of the database. -/
theorem run_onTables {α : Type} {x : Work Tables α} {d : Database} {r : Except Fault α}
    {y : Tables × World} (hx : x.run (d.tables, w) = (r, y)) :
    (onTables x).run (d, w) = (r, ({ d with tables := y.1 }, y.2)) := by
  show ((x.run (d.tables, w)).1, ({ d with tables := (x.run (d.tables, w)).2.1 },
    (x.run (d.tables, w)).2.2)) = _
  rw [hx]

theorem At.run_onTables (h : At site place start name (d, w) m) {α : Type} {x : Work Tables α}
    {r : Except Fault α} {y : Tables × World} (hx : x.run (d.tables, w) = (r, y))
    (hy : Tables.At (site.home name) place w.files (m.map fun t => (t.1, t.2.schema)) m' y) :
    ∃ z, (onTables x).run (d, w) = (r, z) ∧ At site place start name z m' := by
  refine ⟨({ d with tables := y.1 }, y.2), Database.run_onTables hx, ?_⟩
  have hmanifestFree : ¬∃ table, place ++ [manifestName] = place ++ [Name.tableFile table] := by
    rintro ⟨table, heq⟩
    exact tableFile_ne_manifestName table (child_inj.mp heq).symm
  have hkeys := keys_congr hy.schemas
  have hmanifest := h.shows.manifest.edit hy.edit hmanifestFree
  refine ⟨h.plain, h.anchor, ?_, ?_⟩
  · exact {
      named := h.shows.named
      located := h.shows.located
      rooted := hy.rooted
      tables := hy.shows
      apart := hy.apart
      manifest := by
        unfold Lists
        rw [manifestOf_congr hy.schemas]
        exact hmanifest
      only := by
        intro file rest hsome
        rw [hy.entries] at hsome
        unfold fileNames
        rw [hkeys]
        exact h.shows.only file rest hsome }
  · refine h.edit.trans (hy.edit.mono ?_)
    rintro q ⟨table, rfl⟩
    exact List.prefix_append _ _

end Database
end Tabulary
