import Tabulary.Proofs.Engine.Life

/-!
What is open and what there is on the disk.  Main statement: whatever has been asked of the engines
over a data directory, each open database of a started engine has a directory of its own in it,
where there are a manifest that says which tables are open and the files of these tables, and
nothing else (`Lived.registry_inStep`).
-/

namespace Tabulary

open Files

namespace Database

/-- A database is what there is in its directory. -/
structure InStep (dataDir : Path) (fs : Files) (name : String) (d : Database) : Prop where
  named : d.name = name
  /-- The directory is named by one name, which does not lead up. -/
  located : ∃ folder, d.directory = dataDir ++ [folder] ∧ Path.parts folder = [folder] ∧
    folder ≠ ".."
  isDirectory : fs.isDirectory d.directory = true
  /-- The manifest tells the name of the database and of each table the name, the schema and the
  file. -/
  manifest : ∃ bytes manifest, fs.read d.manifestPath = .ok bytes ∧
    Manifest.ofBytes bytes = .ok manifest ∧ manifest.database = name ∧
    manifest.tables.map (·.name) = Keyed.keys d.tables ∧
    manifest.tables.mapM Manifest.Table.toSchema = .ok (d.tables.map (·.2.schema)) ∧
    (manifest.tables.map fun t => d.directory ++ Path.parts t.file) = d.tables.map (·.2.path)
  paths : (d.tables.map (·.2.path)).Nodup
  /-- The file of a table is there, right in the directory. -/
  files : ∀ t ∈ d.tables, ∃ file node, t.2.path = d.directory ++ [file] ∧
    Path.parts file = [file] ∧
    file ≠ ".." ∧ file ≠ manifestName ∧ fs.openFile t.2.path = .ok node
  names : ∀ file, file ∈ fs.names d.directory ↔
    file = manifestName ∨ ∃ t ∈ d.tables, t.2.path = d.directory ++ [file]
  /-- There are no directories in the directory, in which there could be more. -/
  flat : ∀ place, fs.find d.directory = .ok (place, .directory) → ∀ file next rest,
    fs.entry? (place ++ file :: next :: rest) = none

variable {directory place : Path} {fs : Files} {name : String} {d : Database} {m : Memory.Tables}

namespace Shows

theorem paths_eq (h : Shows directory place fs name d m) :
    d.tables.map (·.2.path) = m.map fun t => directory ++ [Name.tableFile t.1] :=
  h.tables.map_eq fun _ _ _ hst => hst.path_eq

theorem schemas_eq (h : Shows directory place fs name d m) :
    d.tables.map (·.2.schema) = m.map (·.2.schema) :=
  h.tables.map_eq fun _ _ _ hst => hst.schema_eq

theorem mem_right (h : Shows directory place fs name d m) {t : String × Memory.Table}
    (ht : t ∈ m) : ∃ st, Store.Shows directory fs t.1 st t.2 :=
  let ⟨st, _, hst⟩ := h.tables.of_mem_right ht
  ⟨st, hst⟩

theorem named_of_mem (h : Shows directory place fs name d m) {t : String × Memory.Table}
    (ht : t ∈ m) : t.2.schema.name = t.1 :=
  let ⟨_, hst⟩ := h.mem_right ht
  hst.named

/-- The schemas that the manifest tells are those of the tables. -/
theorem mapM_toSchema (h : Shows directory place fs name d m) :
    (manifestOf name m).tables.mapM Manifest.Table.toSchema = .ok (d.tables.map (·.2.schema)) := by
  have hnormal : ∀ t ∈ m, (Manifest.Table.ofSchema t.2.schema).toSchema = .ok t.2.schema :=
      fun t ht =>
    let ⟨_, hst⟩ := h.mem_right ht
    hst.normal
  rw [h.schemas_eq]
  unfold manifestOf
  clear h
  induction m with
  | nil => rfl
  | cons t m ih =>
    have hrest := ih fun t ht => hnormal t (List.mem_cons_of_mem _ ht)
    simp only [List.map_cons, List.mapM_cons, hnormal t List.mem_cons_self, hrest]
    rfl

theorem paths_manifest (h : Shows directory place fs name d m) :
    ((manifestOf name m).tables.map fun t => d.directory ++ Path.parts t.file) =
      d.tables.map (·.2.path) := by
  rw [h.paths_eq, h.located]
  unfold manifestOf
  rw [List.map_map]
  refine List.map_congr_left fun t ht => ?_
  show directory ++ Path.parts (Name.tableFile t.2.schema.name) = _
  rw [Path.parts_tableFile, h.named_of_mem ht]

theorem names_manifest (h : Shows directory place fs name d m) :
    (manifestOf name m).tables.map (·.name) = Keyed.keys d.tables := by
  rw [h.tables.keys_eq]
  unfold manifestOf
  rw [List.map_map]
  exact List.map_congr_left fun t ht => h.named_of_mem ht

theorem paths_nodup_of_apart (h : Shows directory place fs name d m) :
    (d.tables.map (·.2.path)).Nodup := by
  have hfiles : ((Keyed.keys m).map Name.tableFile).Nodup := by
    refine List.Nodup.map_on (fun a ha b hb heq => ?_) h.apart.keys
    exact h.apart.eq ha hb (Name.tableFile_inj.mp heq)
  rw [h.paths_eq]
  rw [Keyed.keys, List.map_map] at hfiles
  have hpaths := hfiles.map (f := fun file => directory ++ [file]) fun a b heq => child_inj.mp heq
  rw [List.map_map] at hpaths
  exact hpaths

theorem mem_paths (h : Shows directory place fs name d m) {file : String} :
    (∃ t ∈ d.tables, t.2.path = d.directory ++ [file]) ↔
    file ∈ (Keyed.keys m).map Name.tableFile := by
  have hpath : (∃ t ∈ d.tables, t.2.path = d.directory ++ [file]) ↔
      directory ++ [file] ∈ d.tables.map (·.2.path) := by
    rw [List.mem_map, h.located]
  rw [hpath, h.paths_eq, Keyed.keys, List.map_map, List.mem_map, List.mem_map]
  simp only [child_inj, Function.comp_apply]

/-- A table's file stands in the directory. -/
theorem stored (h : Shows directory place fs name d m) {t : String × Store} (ht : t ∈ d.tables) :
    ∃ node, t.2.path = directory ++ [Name.tableFile t.1] ∧ Plain (Name.tableFile t.1) ∧
      fs.openFile t.2.path = .ok node := by
  obtain ⟨s, -, hst⟩ := h.tables.of_mem_left ht
  obtain ⟨handle, _, ho, -⟩ := hst.opened
  exact ⟨handle.node, hst.path_eq, hst.plain, by rw [hst.path_eq]; exact ho.opened⟩

theorem mem_names (h : Shows directory place fs name d m) (file : String) :
    file ∈ fs.names d.directory ↔
      file = manifestName ∨ ∃ t ∈ d.tables, t.2.path = d.directory ++ [file] := by
  rw [h.mem_paths, h.located, h.rooted.mem_names]
  constructor
  · intro hsome
    exact List.mem_cons.mp (h.only file [] hsome).2
  · rintro (rfl | hfile)
    · obtain ⟨node, hentry, -⟩ := h.manifest
      rw [hentry]
      rfl
    · obtain ⟨table, htable, rfl⟩ := List.mem_map.mp hfile
      obtain ⟨t, ht, rfl⟩ := List.mem_map.mp htable
      obtain ⟨st, hst⟩ := h.mem_right ht
      obtain ⟨handle, _, ho, -⟩ := hst.opened
      rw [(h.rooted.openFile_child hst.plain).mp ho.opened]
      rfl

theorem inStep {site : Memory.Site} (h : Shows (site.home name) place fs name d m)
    (hdown : Name.sanitize name ≠ "..") (hname : Name.isStorable (Name.sanitize name) = true) :
    InStep site.directory fs name d where
  named := h.named
  located := ⟨Name.sanitize name, h.located, Path.parts_sanitize hname, hdown⟩
  isDirectory := by
    rw [h.located, Files.isDirectory, h.rooted.find]
  manifest := by
    refine ⟨_, manifestOf name m, ?_, Manifest.ofBytes_render _, rfl, h.names_manifest,
      h.mapM_toSchema, h.paths_manifest⟩
    rw [manifestPath, h.located]
    exact h.read_manifest
  paths := h.paths_nodup_of_apart
  files t ht := by
    obtain ⟨node, hpath, hplain, hopen⟩ := h.stored ht
    refine ⟨Name.tableFile t.1, node, ?_, Path.parts_tableFile t.1, hplain.down,
      tableFile_ne_manifestName t.1, hopen⟩
    rw [h.located]
    exact hpath
  names := h.mem_names
  flat := by
    intro root hroot file next rest
    rw [h.located, h.rooted.find] at hroot
    cases hroot
    rw [← Option.not_isSome_iff_eq_none]
    intro hsome
    cases (h.only file (next :: rest) hsome).1

end Shows
end Database

namespace Registry

/-- The open databases are what there is in directories of their own. -/
structure InStep (dataDir : Path) (fs : Files) (r : Registry) : Prop where
  names : r.names.Nodup
  directories : r.directories.Nodup
  databases : ∀ d ∈ r.databases, d.2.InStep dataDir fs d.1

variable {site : Memory.Site} {root : Path} {fs : Files} {r : Registry} {m : Memory}

theorem Shows.directories_apart (h : Shows site root fs r m) : r.directories.Nodup := by
  have heq : r.directories = (Keyed.keys m).map fun name => site.home name := by
    unfold directories
    rw [h.databases.map_eq (g := fun d => site.home d.1) fun _ _ _ hd => hd.2.located, Keyed.keys,
      List.map_map]
    rfl
  rw [heq]
  refine List.Nodup.map_on (fun a ha b hb heq => ?_) h.apart.keys
  exact h.apart.eq ha hb (child_inj.mp heq)

theorem Shows.inStep (h : Shows site root fs r m) (hm : m.Storable) :
    r.InStep site.directory fs where
  names := by
    unfold names
    rw [h.databases.keys_eq]
    exact h.apart.keys
  directories := h.directories_apart
  databases d hd := by
    obtain ⟨tables, -, hplain, hshows⟩ := h.databases.of_mem_left hd
    refine hshows.inStep hplain.down (hm d.1 ?_)
    rw [← h.databases.keys_eq]
    exact List.mem_map_of_mem hd

end Registry

namespace Engine

theorem lasting_storable : Lasting Memory.Storable where
  nil := nofun
  perm := Memory.Storable.perm
  reopen _ standard seeds h := Memory.storable_reopen h standard seeds
  operation site standard op h := by
    cases op with
    | createDatabase name =>
      unfold Operation.onMemory
      rw [Attempt.snd_run_andReturn]
      exact Memory.storable_createDatabase h name
    | dropDatabase name =>
      unfold Operation.onMemory
      rw [Attempt.snd_run_andReturn]
      exact Memory.storable_dropDatabase h name
    | databases => exact h
    | tables database =>
      unfold Operation.onMemory
      rw [Attempt.snd_run_andReturn, Memory.state_find]
      exact h
    | execute text database? =>
      unfold Operation.onMemory
      rw [Attempt.snd_run_andReturn]
      exact h.of_keys_eq (Memory.keys_execute standard text database?)

/-- Whatever has come before, what is open in a started engine is what there is on the disk. -/
theorem Lived.registry_inStep {dataDir : Path} {x : Engine × World} (h : Lived dataDir x)
    (hstarted : x.1.started = true) : x.1.registry.InStep dataDir x.2.files := by
  obtain ⟨anchor, root, hkeeping⟩ := h.keepingOnly lasting_storable
  obtain ⟨m, hm, hat⟩ := hkeeping.exists_at hstarted
  exact hat.registry.inStep hm

/-- A database that takes the directory of one that is gone. -/
def relocation : List Operation :=
  [.createDatabase "sales", .dropDatabase "sales", .createDatabase "sa/les",
    .execute "CREATE TABLE users (id INT)" (some "sa/les")]

theorem registry_inStep_relocation : ∃ e w,
    (running ["data"] "default" relocation).run ((), World.empty "/") = (.ok e, ((), w)) ∧
      e.registry.names = ["default", "sa/les"] ∧ e.registry.InStep ["data"] w.files := by
  have hs : (World.empty "/").files.Sane := sane_empty "/"
  have hb : (World.empty "/").files.Bare ["data"] := bare_empty "/" (by decide)
  have hstart : ((Memory.start ⟨"/", ["data"]⟩ "default" false).run []).1 = .ok () := rfl
  obtain ⟨e, w, root, hrun, hat⟩ := exists_running () hs hb hstart relocation
  refine ⟨e, w, hrun, ?_, (lived_of_running hs hb hrun).registry_inStep hat.started⟩
  exact hat.registry.databases.keys_eq.trans (by decide +kernel)

end Engine
end Tabulary
