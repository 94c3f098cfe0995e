import Tabulary.Proofs.Catalog.Sanity

/-!
What it is to create a database.  Main statement: a database is created under a name and in a
directory that no open one has, without tables and with a manifest that names it, unless a manifest
was left in the directory: then it is the tables of that manifest that are opened
(`Registry.createDatabase_outcome`).
-/

namespace Tabulary

open Attempt Files

variable {d d' : Database} {w w' : World} {name : String}

namespace Database

/-! ## Loading -/

theorem loadTable_ok {t : Manifest.Table} (hrun : (loadTable t).run (d, w) = (.ok (), (d', w'))) :
    ∃ schema path st w₁, w.files.locate d.directory t.file = .ok path ∧
      (Store.openFile schema path).run (d, w) = (.ok st, (d, w₁)) ∧
      d' = { d with tables := Keyed.set t.name st d.tables } ∧ w'.files = w₁.files := by
  obtain ⟨schema, -, hrun⟩ := of_run_ofExcept_bind_ok hrun
  rw [run_bind_of_ok (Work.run_state _)] at hrun
  obtain ⟨path, ⟨d₀, w₀⟩, hlocate, hrun⟩ := of_run_bind_ok hrun
  obtain ⟨hpath, rfl, rfl⟩ : w.files.locate d.directory t.file = .ok path ∧
      d = d₀ ∧ w = w₀ := by
    rw [Work.run_query] at hlocate
    exact ⟨congrArg Prod.fst hlocate, congrArg (·.2.1) hlocate, congrArg (·.2.2) hlocate⟩
  obtain ⟨st, ⟨d₁, w₁⟩, hopen, hrun⟩ := of_run_bind_ok hrun
  have hkeeps := Store.keeps_openFile schema path (d, w)
  rw [hopen] at hkeeps
  obtain rfl : d₁ = d := hkeeps
  cases hrun
  exact ⟨schema, path, st, w₁, hpath, hopen, rfl, rfl⟩

/-- The tables of a manifest are opened, and those that were open stay. -/
theorem loadTables_ok {tables : List Manifest.Table}
    (hrun : (tables.forM loadTable).run (d, w) = (.ok (), (d', w'))) :
    d'.name = d.name ∧ d'.directory = d.directory ∧
      ∀ table, table ∈ Keyed.keys d'.tables ↔ table ∈ tables.map (·.name) ∨
      table ∈ Keyed.keys d.tables := by
  induction tables generalizing d w with
  | nil =>
    cases hrun
    simp
  | cons t tables ih =>
    obtain ⟨_, ⟨d₁, w₁⟩, hload, hrun⟩ := of_run_bind_ok hrun
    obtain ⟨schema, path, st, w₂, -, -, rfl, -⟩ := loadTable_ok hload
    obtain ⟨hname, hdirectory, hkeys⟩ := ih hrun
    refine ⟨hname, hdirectory, fun table => ?_⟩
    rw [hkeys, Keyed.mem_keys_set, List.map_cons, List.mem_cons]
    tauto

/-- Opening tables in the files of their names changes nothing else. -/
theorem local_loadTables {tables : List Manifest.Table} (hs : w.files.Sane)
    (hown : ∀ t ∈ tables, t.file = Name.tableFile t.name)
    (hrun : (tables.forM loadTable).run (d, w) = (.ok (), (d', w'))) :
    Local d.directory (tables.map fun t => Name.tableFile t.name) w.files w'.files := by
  induction tables generalizing d w with
  | nil =>
    cases hrun
    exact .refl hs
  | cons t tables ih =>
    obtain ⟨_, ⟨d₁, w₁⟩, hload, hrun⟩ := of_run_bind_ok hrun
    obtain ⟨schema, path, st, w₂, hpath, hopen, rfl, hfiles⟩ := loadTable_ok hload
    rw [hown t List.mem_cons_self, Files.locate_tableFile] at hpath
    cases hpath
    have hlocal : Local d.directory [Name.tableFile t.name] w.files w₂.files := by
      rcases Store.openFile_outcome schema d hs with ⟨e, w₃, hfailed, -⟩ |
        ⟨st', w₃, hopened, -, hlocal, -⟩
      · cases hfailed.symm.trans hopen
      · cases hopened.symm.trans hopen
        exact hlocal
    rw [← hfiles] at hlocal
    have hrest := ih hlocal.sane (fun t ht => hown t (List.mem_cons_of_mem _ ht)) hrun
    exact (hlocal.mono (by simp)).trans (hrest.mono (by simp))

/-- A database that was created in a directory.  Once the directory has been made, either there is
no manifest in it, and the database has no tables and its name in the manifest; or there is one, and
the database has its tables. -/
structure Begun (name : String) (p : Path) (fs : Files) (d : Database) (fs' : Files) : Prop where
  named : d.name = name
  located : d.directory = p
  empty : (fs.ensureDirectory p).2.isThere (p ++ [manifestName]) = .ok false →
    d.tables = [] ∧ (fs'.read (p ++ [manifestName])).bind Manifest.ofBytes = .ok ⟨name, []⟩
  found : ∀ bytes m, fs.read (p ++ [manifestName]) = .ok bytes →
    Manifest.ofBytes bytes = .ok m →
    (∀ table, table ∈ Keyed.keys d.tables ↔ table ∈ m.tables.map (·.name)) ∧
      ((∀ t ∈ m.tables, t.file = Name.tableFile t.name) →
        fs'.read (p ++ [manifestName]) = .ok bytes)

theorem loadManifest_ok (hrun : loadManifest.run (d, w) = (.ok (), (d', w'))) :
    ∃ bytes m, w.files.read d.manifestPath = .ok bytes ∧ Manifest.ofBytes bytes = .ok m ∧
      (m.tables.forM loadTable).run (d, w) = (.ok (), (d', w')) := by
  unfold loadManifest at hrun
  rw [run_bind_of_ok (Work.run_state _)] at hrun
  obtain ⟨bytes, y, hread, hrun⟩ := of_run_bind_ok hrun
  obtain ⟨m, hm, hrun⟩ := of_run_ofExcept_bind_ok hrun
  cases hfile : w.files.read d.manifestPath with
  | error e =>
    rw [Work.run_query, hfile] at hread
    cases hread
  | ok content =>
    rw [Work.run_query, hfile] at hread
    cases hread
    exact ⟨bytes, m, rfl, hm, hrun⟩

theorem begun_openIn {σ : Type} {y y' : σ} {p : Path} (hs : w.files.Sane)
    (hrun : (openIn name p : Work σ Database).run (y, w) = (.ok d, (y', w'))) :
    y' = y ∧ Begun name p w.files d w'.files := by
  obtain ⟨fs, known, hmake, hknown, rfl, hload⟩ := openIn_ok hrun
  have hlocal : Local p [] w.files fs := by
    have hmade := local_ensureDirectory hs p p
    rwa [hmake] at hmade
  have hstill {bytes : Bytes} (hread : w.files.read (p ++ [manifestName]) = .ok bytes) :
      fs.read (p ++ [manifestName]) = .ok bytes := hlocal.read nofun (by decide) nofun hread
  refine ⟨rfl, ?_⟩
  cases known with
  | false =>
    rw [if_neg Bool.false_ne_true] at hload
    have hkeeps := keeps_saveManifest (⟨name, p, [], w.opened⟩,
      { w with files := fs, opened := w.opened + 1 })
    rw [hload] at hkeeps
    obtain rfl : d = ⟨name, p, [], w.opened⟩ := hkeeps
    refine ⟨rfl, rfl, fun _ => ⟨rfl, ?_⟩, fun bytes m hread _ => ?_⟩
    · have hread := read_manifestPath hload
      dsimp only [manifestPath] at hread
      rw [hread, Except.bind, Manifest.ofBytes_render]
      rfl
    · cases hknown.symm.trans (isThere_of_read (hstill hread))
  | true =>
    rw [if_pos rfl] at hload
    obtain ⟨bytes, m, hread, hm, hload⟩ := loadManifest_ok hload
    obtain ⟨hname, hdirectory, hkeys⟩ := loadTables_ok hload
    refine ⟨hname, hdirectory, fun hnone => ?_, fun bytes' m' hread' hm' => ?_⟩
    · rw [hmake] at hnone
      cases hknown.symm.trans hnone
    · obtain rfl : bytes = bytes' := Except.ok.inj (hread.symm.trans (hstill hread'))
      obtain rfl : m = m' := Except.ok.inj (hm.symm.trans hm')
      refine ⟨fun table => ?_, fun hown => ?_⟩
      · rw [hkeys]
        simp [Keyed.keys]
      · refine (local_loadTables hlocal.sane hown hload).read ?_ (by decide) ?_ hread
        · intro hup
          obtain ⟨t, -, heq⟩ := List.mem_map.mp hup
          exact tableFile_ne_up _ heq
        · intro hmem
          obtain ⟨t, -, heq⟩ := List.mem_map.mp hmem
          exact tableFile_ne_manifestName _ heq

end Database

namespace Registry

/-- A name that is in use, or whose directory is. -/
def Taken (r : Registry) (name : String) : Prop :=
  (r.databases.lookup name).isSome ∨
    (Name.isStorable (Name.sanitize name) = true ∧
      r.dataDir ++ [Name.sanitize name] ∈ r.directories)

theorem run_createDatabase_taken {r : Registry} (h : r.Taken name) (w : World) :
    (createDatabase name).run (r, w) = (.error (.engine (.databaseExists name)), (r, w)) := by
  unfold createDatabase
  rw [run_bind_of_ok (Work.run_state _)]
  dsimp only
  split
  · rfl
  · rename_i hnew
    obtain ⟨hstorable, hmem⟩ := h.resolve_left hnew
    obtain ⟨d, hd, hdirectory⟩ := List.mem_map.mp hmem
    rw [if_neg (by simp [hstorable]),
      if_pos (List.any_eq_true.mpr ⟨d, hd, decide_eq_true hdirectory⟩)]
    rfl

theorem createDatabase_ok {r r' : Registry} {p : Path} (hs : w.files.Sane)
    (hrun : (createDatabase name).run (r, w) = (.ok p, (r', w'))) :
    p = r.dataDir ++ [Name.sanitize name] ∧ ∃ d,
      r' = { r with databases := r.databases ++ [(name, d)] } ∧
      Database.Begun name p w.files d w'.files := by
  unfold createDatabase at hrun
  rw [run_bind_of_ok (Work.run_state _)] at hrun
  dsimp only at hrun
  split at hrun
  · cases hrun
  rename_i hnew
  split at hrun
  · cases hrun
  split at hrun
  · cases hrun
  obtain ⟨d, ⟨r₁, w₁⟩, hopen, hrun⟩ := of_run_bind_ok hrun
  obtain ⟨rfl, hbegun⟩ := Database.begun_openIn hs hopen
  have hkey : name ∉ Keyed.keys r₁.databases :=
    Keyed.not_mem_keys_of_lookup (Option.not_isSome_iff_eq_none.mp hnew)
  cases hrun
  exact ⟨rfl, d, by rw [← Keyed.set_of_not_mem hkey], hbegun⟩

/-- A name that is in use, or whose directory is that of an open database, is refused.  Under any
other name a database that is created has no tables and its name in the manifest, unless its
directory held a manifest: then it has the tables of that one, which stays as it is. -/
theorem createDatabase_outcome {r : Registry} {dataDir : Path} {ops : List Operation}
    (hs : w.files.Sane) (hops : runAll ops (⟨dataDir, []⟩, w) = (r, w')) (name : String) :
    (r.Taken name →
      (createDatabase name).run (r, w') = (.error (.engine (.databaseExists name)), (r, w'))) ∧
    ∀ p r' w'', (createDatabase name).run (r, w') = (.ok p, (r', w'')) →
      p = r.dataDir ++ [Name.sanitize name] ∧ ∃ d,
        r' = { r with databases := r.databases ++ [(name, d)] } ∧
        Database.Begun name p w'.files d w''.files := by
  have hs' : w'.files.Sane := by
    have hsane := sane_runAll ops (x := (⟨dataDir, []⟩, w)) hs
    rwa [hops] at hsane
  exact ⟨fun h => run_createDatabase_taken h w',
    fun p r' w'' hrun => createDatabase_ok hs' hrun⟩

def pets : Schema := ⟨"pets", [⟨"id", .integer, true, false⟩], by decide⟩

def petsEntry : Manifest.Table := ⟨"pets", "pets.tbl", [⟨"id", .integer, false⟩]⟩

/-- A database with a table is closed. -/
def leftOver : List Operation := [.createDatabase "x", .createTable "x" pets, .close]

theorem read_leftOver : (runAll leftOver (⟨["data"], []⟩, World.empty "/")).2.files.read
    ["data", "x", "catalog.json"] =
    .ok (Text.toBytes (Manifest.render ⟨"x", [petsEntry]⟩)) := by
  decide +kernel

theorem run_leftOver :
    ((createDatabase "x/").run (runAll leftOver (⟨["data"], []⟩, World.empty "/"))).1 =
    .ok ["data", "x"] := by
  have hdata : (runAll leftOver (⟨["data"], []⟩, World.empty "/")).1.dataDir = ["data"] := by
    decide +kernel
  have hclosed : (runAll leftOver (⟨["data"], []⟩, World.empty "/")).1.databases.isEmpty =
      true := by
    decide +kernel
  have hroom : (runAll leftOver (⟨["data"], []⟩, World.empty "/")).2.files.find ["data", "x"] =
      .ok (["data", "x"], .directory) := by
    decide +kernel
  have hloaded : (Database.loading "x/" [petsEntry] ["data", "x"]
      (runAll leftOver (⟨["data"], []⟩, World.empty "/")).2).1 = .ok () := by
    decide +kernel
  have hread := read_leftOver
  generalize runAll leftOver (⟨["data"], []⟩, World.empty "/") = x at *
  obtain ⟨⟨dataDir, databases⟩, w⟩ := x
  obtain rfl : dataDir = ["data"] := hdata
  obtain rfl : databases = [] := List.isEmpty_iff.mp hclosed
  have hmade : w.files.ensureDirectory ["data", "x"] = (.ok (), w.files) :=
    ensureDirectory_of_find (by decide) hroom
  have hopen := Database.run_openIn_of_read (⟨["data"], []⟩ : Registry) hmade
    (isThere_of_read hread) hread (Manifest.ofBytes_render _) (Prod.ext hloaded rfl)
  unfold createDatabase
  rw [run_bind_of_ok (Work.run_state _)]
  exact congrArg Prod.fst (run_bind_of_ok hopen)

theorem taken_rivals : (runAll rivals (⟨["data"], []⟩, World.empty "/")).1.Taken "//x" := by
  right
  decide +kernel

/-- In the directory of a database that was closed, one of another name has its table.  From then on
the directory is taken. -/
theorem createDatabase_outcome_leftOver :
    (World.empty "/").files.Sane ∧
    (∃ r w d r' w' bytes, runAll leftOver (⟨["data"], []⟩, World.empty "/") = (r, w) ∧
      (createDatabase "x/").run (r, w) = (.ok ["data", "x"], (r', w')) ∧
      r' = { r with databases := r.databases ++ [("x/", d)] } ∧
      (∀ table, table ∈ Keyed.keys d.tables ↔ table ∈ ["pets"]) ∧
      w.files.read ["data", "x", "catalog.json"] = .ok bytes ∧
      w'.files.read ["data", "x", "catalog.json"] = .ok bytes) ∧
    ∃ r w, runAll rivals (⟨["data"], []⟩, World.empty "/") = (r, w) ∧
      r.Taken "//x" ∧ (createDatabase "//x").run (r, w) =
      (.error (.engine (.databaseExists "//x")), (r, w)) := by
  have hs : (World.empty "/").files.Sane := sane_empty "/"
  have hread := read_leftOver
  have hrun := run_leftOver
  have htaken := taken_rivals
  generalize hops : runAll leftOver (⟨["data"], []⟩, World.empty "/") = x at hread hrun ⊢
  generalize hops' : runAll rivals (⟨["data"], []⟩, World.empty "/") = z at htaken ⊢
  obtain ⟨r, w⟩ := x
  obtain ⟨r₂, w₂⟩ := z
  obtain ⟨-, d, hd, hbegun⟩ := (createDatabase_outcome hs hops "x/").2 _ _ _ (run_of_fst hrun)
  obtain ⟨hkeys, hkept⟩ := hbegun.found _ _ hread (Manifest.ofBytes_render _)
  refine ⟨hs, ⟨r, w, d, _, _, _, rfl, run_of_fst hrun, hd, hkeys, hread, hkept (by decide)⟩,
    ?_⟩
  exact ⟨r₂, w₂, rfl, htaken, (createDatabase_outcome hs hops' "//x").1 htaken⟩

/-- What the manifest in the directory of the database names is another one. -/
theorem createDatabase_takes_over :
    let y := (createDatabase "x/").run
      (runAll [.createDatabase "x", .close] (⟨["data"], []⟩, World.empty "/"))
    y.1 = .ok ["data", "x"] ∧ y.2.1.names = ["x/"] ∧
      y.2.2.files.read ["data", "x", "catalog.json"] =
      .ok (Text.toBytes (Manifest.render ⟨"x", []⟩)) := by
  decide +kernel

end Registry
end Tabulary
