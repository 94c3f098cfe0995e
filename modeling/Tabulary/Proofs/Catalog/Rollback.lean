import Tabulary.Proofs.Catalog.Sanity

/-!
Attempts to create or drop a table that fail, in databases that any work has led to and among any
files.  Main statements: a table that could not be created has left nothing
(`Database.createTable_rolled_back`), and one that could not be dropped is forgotten all the same
(`Database.dropTable_failed`), while the manifest may still list it
(`Database.dropTable_loses_table`).
-/

namespace Tabulary

open Attempt

namespace Database

open Files

variable {d d' : Database} {w w' : World} {table : String}

/-! ## Creating a table -/

/-- Beside the draft of the manifest nothing has come into being, and nothing has changed but at the
place of a new table. -/
structure Undone (p : Path) (file : String) (fs fs' : Files) : Prop where
  near : Local p [file, draftName] fs fs'
  old : ∀ q node, fs'.walk [] (p ++ [file]) = .ok q → fs'.entry? q = some (.file node) →
    fs.entry? q = some (.file node)

/-- What is done about a file at the place of a new table. -/
theorem run_discard (d : Database) (schema : Schema) (w : World) : (discard d schema).run (d, w) =
    match w.files.isThere (d.directory ++ [Name.tableFile schema.name]) with
    | .error e => (.error e, (d, w))
    | .ok false => (.ok (), (d, w))
    | .ok true =>
      (Work.change fun fs => fs.remove (d.directory ++ [Name.tableFile schema.name])).run
        (d, w.log .warning "stale_table_file_removed" [("database", .text d.name),
          ("path",
            .text ((d.directory ++ [Name.tableFile schema.name]).text w.files.anchor))]) := by
  unfold discard
  dsimp only
  rw [run_bind, Work.run_query]
  dsimp only
  cases w.files.isThere (d.directory ++ [Name.tableFile schema.name]) with
  | error e => rfl
  | ok there => cases there <;> rfl

/-- A file left over is discarded, or it is still there and the failure is all there is. -/
theorem discard_cases (d : Database) (schema : Schema) (hs : w.files.Sane) :
    (∃ e w', (discard d schema).run (d, w) = (.error e, (d, w')) ∧ w'.files = w.files ∧
        w'.metrics = w.metrics) ∨
      ∃ w', (discard d schema).run (d, w) = (.ok (), (d, w')) ∧ w'.metrics = w.metrics ∧
        Local d.directory [Name.tableFile schema.name] w.files w'.files ∧
        ∀ q node, w'.files.entry? q = some (.file node) →
        w.files.entry? q = some (.file node) := by
  rw [run_discard]
  cases w.files.isThere (d.directory ++ [Name.tableFile schema.name]) with
  | error e => exact Or.inl ⟨e, w, rfl, rfl, rfl⟩
  | ok there =>
    cases there with
    | false => exact Or.inr ⟨w, rfl, rfl, .refl hs, fun _ _ h => h⟩
    | true =>
      dsimp only
      rw [Work.run_change]
      dsimp only [World.log]
      cases hgone : w.files.remove (d.directory ++ [Name.tableFile schema.name]) with
      | error e => exact Or.inl ⟨e, _, rfl, rfl, rfl⟩
      | ok fs =>
        refine Or.inr ⟨_, rfl, rfl, local_remove hs hgone, fun q node hq => ?_⟩
        obtain ⟨place, -, hremoved⟩ := removed_of_remove hs hgone
        by_cases hplace : q = place
        · rw [hplace] at hq
          cases (hremoved.gone place rfl).symm.trans hq
        · exact (hremoved.edit.entry q hplace).symm.trans hq

/-- Whatever fails on the way of a table into the manifest, the table is forgotten and its file is
gone. -/
theorem enter_failed {schema : Schema} {e : Fault} (hs : w.files.Sane)
    (hrun : (enter d schema).run (d, w) = (.error e, (d', w'))) :
    d' = d ∧ w'.metrics.openTables = w.metrics.openTables ∧
      Undone d.directory (Name.tableFile schema.name) w.files w'.files := by
  unfold enter at hrun
  rcases Store.openFile_outcome schema d hs with
    ⟨e₁, w₁, hopen, hlocal, hcount⟩ | ⟨st, w₁, hopen, hready, hlocal, hcount⟩
  · rw [run_bind_of_error hopen] at hrun
    cases hrun
    exact ⟨rfl, hcount, hlocal.mono (by simp), fun q node _ => hlocal.old q node nofun⟩
  · let d₁ : Database := { d with tables := Keyed.set schema.name st d.tables }
    have hset : (setTables (Keyed.set schema.name st d.tables)).run (d, w₁) =
        (.ok (), (d₁, w₁)) :=
      rfl
    rw [run_bind_of_ok hopen, run_bind_of_ok hset] at hrun
    rcases saveManifest_cases d₁ hlocal.sane with
      ⟨e₂, w₂, hsave, hmetrics, hdraft, hfile⟩ | ⟨w₂, hsave, -, -⟩
    · obtain ⟨node, hopened⟩ := hready.opened
      have hnul : hasNul d.directory = false := hasNul_of_child (openFile_eq_ok.mp hopened).1
      obtain ⟨st', w₃, hdrop, hgone, hnone, hcount'⟩ := (hready.beside hdraft (by decide)
        (tableFile_ne_up _) (by simpa using tableFile_ne_draftName _)).run_drop hdraft.sane
      have hback : (takeBack d st e₂).run (d₁, w₂) = (.error e₂, (d, w₃)) := by
        unfold takeBack
        dsimp only
        rw [if_pos (hfile hnul)]
        have hforget : (setTables d.tables).run (d₁, w₂) = (.ok (), (d, w₂)) := rfl
        rw [run_bind_of_ok hforget, run_bind_of_ok (Work.run_beside _ _ _), hdrop]
        rfl
      rw [run_bind_of_error ((run_tryCatch_of_error hsave).trans hback)] at hrun
      cases hrun
      refine ⟨rfl, ?_, ?_, fun q node hq hnode => ?_⟩
      · rw [hcount', hmetrics, hcount]
        omega
      · exact ((hlocal.mono (by simp)).trans (hdraft.mono (by simp))).trans (hgone.mono (by simp))
      · rw [hnone q hq] at hnode
        cases hnode
    · rw [run_bind_of_ok (run_tryCatch_of_ok hsave)] at hrun
      cases hrun

theorem checkNew_ok {schema : Schema} (h : d.checkNew schema = .ok ()) :
    ∀ t ∈ d.tables, t.2.path ≠ d.directory ++ [Name.tableFile schema.name] := by
  unfold checkNew at h
  split at h
  · cases h
  split at h
  · cases h
  split at h
  · cases h
  · rename_i hnone
    intro t ht hpath
    exact absurd (decide_eq_true hpath) (List.find?_eq_none.mp hnone t ht)

theorem Undone.file_old {p q : Path} {file : String} {fs fs' : Files} {node : Nat}
    (h : Undone p file fs fs')
    (hfree : fs'.walk [] (p ++ [draftName]) ≠ .ok q) (hq : fs'.entry? q = some (.file node)) :
    fs.entry? q = some (.file node) := by
  by_cases hnew : fs'.walk [] (p ++ [file]) = .ok q
  · exact h.old q node hnew hq
  · refine h.near.old q node (fun name hname => ?_) hq
    rcases List.mem_pair.mp hname with rfl | rfl
    · exact hnew
    · exact hfree

theorem Undone.read {p : Path} {file name : String} {fs fs' : Files} {bytes : Bytes}
    (h : Undone p file fs fs')
    (hfile : file ≠ "..") (hname : name ≠ "..") (hne : name ≠ file)
    (hdraft : name ≠ draftName)
    (hread : fs.read (p ++ [name]) = .ok bytes) : fs'.read (p ++ [name]) = .ok bytes :=
  h.near.read (by simpa using ⟨hfile.symm, by decide⟩) hname
    (by simpa using ⟨hne, hdraft⟩) hread

/-- Either nothing was done at all, or no table has the file of the new one, and what was done has
been undone. -/
theorem createTable_failed {schema : Schema} {e : Fault} (hs : w.files.Sane)
    (hrun : (createTable schema).run (d, w) = (.error e, (d', w'))) :
    d' = d ∧ w'.metrics.openTables = w.metrics.openTables ∧
      (w'.files = w.files ∨
        (∀ t ∈ d.tables, t.2.path ≠ d.directory ++ [Name.tableFile schema.name]) ∧
        Undone d.directory (Name.tableFile schema.name) w.files w'.files) := by
  cases hcheck : d.checkNew schema with
  | error e' =>
    rw [run_createTable_of_rejected hcheck] at hrun
    cases hrun
    exact ⟨rfl, rfl, Or.inl rfl⟩
  | ok _ =>
    rw [run_createTable_of_new hcheck] at hrun
    rcases discard_cases d schema hs with
      ⟨e₁, w₁, hdiscard, hfiles, hmetrics⟩ | ⟨w₁, hdiscard, hmetrics, hlocal, hold⟩
    · rw [run_bind_of_error hdiscard] at hrun
      cases hrun
      exact ⟨rfl, by rw [hmetrics], Or.inl hfiles⟩
    · rw [run_bind_of_ok hdiscard] at hrun
      obtain ⟨rfl, hcount, hundone⟩ := enter_failed hlocal.sane hrun
      refine ⟨rfl, by rw [hcount, hmetrics],
        Or.inr ⟨checkNew_ok hcheck, ?_, fun q node hq hnode => ?_⟩⟩
      · exact (hlocal.mono (by simp)).trans hundone.near
      · exact hold q node (hundone.old q node hq hnode)

/-- The files after a table was not created. -/
structure RolledBack (d : Database) (schema : Schema) (w w' : World) : Prop where
  openTables : w'.metrics.openTables = w.metrics.openTables
  manifest : ∀ bytes, w.files.read d.manifestPath = .ok bytes →
    w'.files.read d.manifestPath = .ok bytes
  rows : ∀ t ∈ d.tables, ∀ bytes, w.files.read t.2.path = .ok bytes →
    w'.files.read t.2.path = .ok bytes
  /-- There is no file for the new table but one that was there before. -/
  unmade : ∀ q node, w'.files.walk [] (d.directory ++ [Name.tableFile schema.name]) = .ok q →
    w'.files.entry? q = some (.file node) → w.files.entry? q = some (.file node)
  /-- No file has come into being anywhere, the draft of the manifest apart. -/
  old : ∀ q node, w'.files.walk [] d.draftPath ≠ .ok q →
    w'.files.entry? q = some (.file node) → w.files.entry? q = some (.file node)

/-- A table that cannot be created, for whatever reason, leaves the open tables and the count of
open files as they were, and the manifest and the files of all tables, and no file for itself. -/
theorem createTable_rolled_back {schema : Schema} {e : Fault} (hd : Reached d) (hs : w.files.Sane)
    (hrun : (createTable schema).run (d, w) = (.error e, (d', w'))) :
    d' = d ∧ RolledBack d schema w w' := by
  obtain ⟨rfl, hcount, hfiles | ⟨hfree, hundone⟩⟩ := createTable_failed hs hrun
  · refine ⟨rfl, hcount, ?_, ?_, ?_, ?_⟩
    all_goals rw [hfiles]
    · exact fun _ h => h
    · exact fun _ _ _ h => h
    · exact fun _ _ _ h => h
    · exact fun _ _ _ h => h
  · refine ⟨rfl, hcount, fun bytes => ?_, fun t ht bytes => ?_, hundone.old,
      fun q node => hundone.file_old⟩
    · exact hundone.read (tableFile_ne_up _) (by decide)
        (tableFile_ne_manifestName _).symm (by decide)
    · have hpath := hd.housed t ht
      rw [hpath]
      refine hundone.read (tableFile_ne_up _) (tableFile_ne_up _) (fun heq => ?_)
        (tableFile_ne_draftName _)
      exact hfree t ht (by rw [hpath, heq])

/-! ### A directory in the way -/

deriving instance DecidableEq for Store

deriving instance DecidableEq for Database

def shop : Database := ⟨"shop", ["data", "shop"], [], 0⟩

theorem openIn_shop :
    ((openIn "shop" ["data", "shop"] : Work Unit Database).run ((), World.empty "/")).1 =
    .ok shop := by
  decide +kernel

theorem reached_shop : Reached shop := by
  refine .opened (listsOwn_of_error (e := .refused .missing "/data/shop/catalog.json" none) ?_)
    (run_of_fst openIn_shop)
  decide +kernel

def users : Schema :=
  ⟨"users", [⟨"id", .integer, true, false⟩, ⟨"name", .text, false, true⟩], by decide⟩

def items : Schema := ⟨"items", [⟨"id", .integer, true, false⟩], by decide⟩

/-- The database with two tables, and a directory where the draft of its manifest goes. -/
def blocked : Database × World :=
  let opened := (openIn "shop" ["data", "shop"] : Work Unit Database).run ((), World.empty "/")
  let first := (createTable users).run (shop, opened.2.2)
  let second := (createTable items).run first.2
  (second.2.1, { second.2.2 with files := (second.2.2.files.ensureDirectory shop.draftPath).2 })

theorem reached_blocked : Reached blocked.1 :=
  .worked (.createTable items) (.worked (.createTable users) reached_shop rfl) rfl

theorem sane_blocked : blocked.2.files.Sane := by
  have hopened := (keepsSane_openIn "shop" ["data", "shop"]).run (y := ((), World.empty "/"))
    (sane_empty "/")
  have hfirst := (keepsSane_createTable users).run (y := (shop, _)) hopened
  exact (local_ensureDirectory ((keepsSane_createTable items).run hfirst) [] shop.draftPath).sane

/-- The file of a table that was dropped in vain is discarded, and then the table is not created. -/
theorem createTable_rolled_back_blocked : ∃ d w e d' w', Reached d ∧ w.files.Sane ∧
    (createTable items).run (d, w) = (.error e, (d', w')) ∧
    Keyed.keys d.tables = ["users"] ∧
    (w.files.read (d.directory ++ ["items.tbl"])).isOk = true ∧
    d' = d ∧ RolledBack d items w w' := by
  have hd : Reached ((dropTable "items").run blocked).2.1 :=
    .worked (.dropTable "items") reached_blocked rfl
  have hs := (keepsSane_dropTable "items").run sane_blocked
  have hrun : ((createTable items).run ((dropTable "items").run blocked).2).1 =
      .error (.refused .isDirectory "/data/shop/catalog.json.tmp" none) := by
    decide +kernel
  have hkept := createTable_rolled_back hd hs (run_of_fst hrun)
  exact ⟨_, _, _, _, _, hd, hs, run_of_fst hrun, by decide +kernel, by decide +kernel, hkept⟩

/-! ## Dropping a table -/

/-- A table that was to be dropped is forgotten, though its file is there.  Either the manifest
could not be written and still lists the table, or it is the file that could not be removed. -/
structure Forgotten (d : Database) (table : String) (e : Fault) (w : World) (d' : Database)
    (w' : World) : Prop where
  tables : d' = { d with tables := Keyed.erase table d.tables }
  again : ∀ w, (dropTable table).run (d', w) = (.error (.engine (.noTable table)), (d', w))
  rows : ∀ t ∈ d.tables, ∀ bytes, w.files.read t.2.path = .ok bytes →
    w'.files.read t.2.path = .ok bytes
  manifest : ((saveManifest.run (d', w)).1 = .error e ∧
      w'.metrics.openTables = w.metrics.openTables ∧
      ∀ bytes, w.files.read d.manifestPath = .ok bytes →
      w'.files.read d.manifestPath = .ok bytes) ∨
    w'.files.read d.manifestPath = .ok (Text.toBytes d'.manifest.render)

theorem run_dropTable_none (hnone : d.tables.lookup table = none) (w : World) :
    (dropTable table).run (d, w) = (.error (.engine (.noTable table)), (d, w)) := by
  unfold dropTable
  rw [run_bind_of_ok (Work.run_state _), hnone]
  rfl

/-- Dropping a table writes the manifest without it and then removes its file. -/
theorem run_dropTable {st : Store} (hst : d.tables.lookup table = some st) (w : World) :
    (dropTable table).run (d, w) = (do
      saveManifest
      let (result, _) ← Work.beside st Store.drop
      Attempt.ofExcept result
      Work.log .info "table_dropped" [("database", .text d.name), ("table", .text table)] :
        Work Database Unit).run ({ d with tables := Keyed.erase table d.tables }, w) := by
  unfold dropTable
  rw [run_bind_of_ok (Work.run_state _)]
  dsimp only
  rw [hst]
  rfl

/-- What is done to the manifest and its draft leaves the files of the tables as they are. -/
theorem Reached.read_table {names : List String} {fs : Files} (hd : Reached d)
    (hlocal : Local d.directory names w.files fs) (hsub : names ⊆ [draftName, manifestName]) :
    ∀ t ∈ d.tables, ∀ bytes, w.files.read t.2.path = .ok bytes →
    fs.read t.2.path = .ok bytes := by
  intro t ht bytes hread
  rw [hd.housed t ht] at hread ⊢
  refine (hlocal.mono hsub).read (by decide) (tableFile_ne_up _) (fun hmem => ?_) hread
  rcases List.mem_pair.mp hmem with heq | heq
  · exact tableFile_ne_draftName _ heq
  · exact tableFile_ne_manifestName _ heq

/-- A table that cannot be dropped is forgotten all the same, unless it was not known. -/
theorem dropTable_failed {e : Fault} (hd : Reached d) (hs : w.files.Sane)
    (hrun : (dropTable table).run (d, w) = (.error e, (d', w'))) :
    (d.tables.lookup table = none ∧ e = .engine (.noTable table) ∧ d' = d ∧ w' = w) ∨
      ((d.tables.lookup table).isSome ∧ Forgotten d table e w d' w') := by
  cases hst : d.tables.lookup table with
  | none =>
    rw [run_dropTable_none hst] at hrun
    cases hrun
    exact Or.inl ⟨rfl, rfl, rfl, rfl⟩
  | some st =>
    refine Or.inr ⟨rfl, ?_⟩
    rw [run_dropTable hst] at hrun
    obtain ⟨d₁, hd₁⟩ : ∃ d₁ : Database,
        d₁ = { d with tables := Keyed.erase table d.tables } :=
      ⟨_, rfl⟩
    rw [← hd₁] at hrun
    have hdirectory : d₁.directory = d.directory := by rw [hd₁]
    have hgone : d₁.tables.lookup table = none := by
      rw [hd₁, Keyed.lookup_erase, if_pos (beq_self_eq_true table)]
    have hcases := saveManifest_cases d₁ hs
    rw [hdirectory] at hcases
    rcases hcases with ⟨e₁, w₁, hsave, hmetrics, hlocal, -⟩ | ⟨w₁, hsave, -, hlocal⟩
    · rw [run_bind_of_error hsave] at hrun
      cases hrun
      refine ⟨hd₁, run_dropTable_none hgone, hd.read_table hlocal (by simp),
        Or.inl ⟨by rw [hsave], by rw [hmetrics], ?_⟩⟩
      exact fun bytes hread => hlocal.read (by decide) (by decide) (by decide) hread
    · rw [run_bind_of_ok hsave, run_bind_of_ok (Work.run_beside _ _ _)] at hrun
      have hdrop := Store.spares_drop (st, w₁)
      generalize Store.drop.run (st, w₁) = ending at hrun hdrop
      obtain ⟨result, st', w₂⟩ := ending
      cases result with
      | ok _ => cases hrun
      | error e₂ =>
        cases hrun
        have hfiles : w₂.files = w₁.files := hdrop _ _ rfl
        have hread := read_manifestPath hsave
        rw [manifestPath, hdirectory, ← manifestPath] at hread
        refine ⟨hd₁, run_dropTable_none hgone, ?_, Or.inr ?_⟩
        · rw [hfiles]
          exact hd.read_table hlocal (by simp)
        · rw [hfiles]
          exact hread

theorem dropTable_failed_blocked : ∃ e d' w', Reached blocked.1 ∧ blocked.2.files.Sane ∧
    (dropTable "items").run blocked = (.error e, (d', w')) ∧
    (blocked.1.tables.lookup "items").isSome ∧ Forgotten blocked.1 "items" e blocked.2 d' w' := by
  have hrun : ((dropTable "items").run blocked).1 =
      .error (.refused .isDirectory "/data/shop/catalog.json.tmp" none) := by
    decide +kernel
  have hsome : (blocked.1.tables.lookup "items").isSome := by decide +kernel
  rcases dropTable_failed reached_blocked sane_blocked (run_of_fst hrun) with ⟨hnone, -⟩ |
    ⟨-, hforgotten⟩
  · rw [hnone] at hsome
    cases hsome
  · exact ⟨_, _, _, reached_blocked, sane_blocked, run_of_fst hrun, hsome, hforgotten⟩

/-- The table is not listed any more, and the manifest still lists it. -/
theorem dropTable_loses_table :
    ((dropTable "items").run blocked).1 =
      .error (.refused .isDirectory "/data/shop/catalog.json.tmp" none) ∧
      Keyed.keys blocked.1.tables = ["users", "items"] ∧
      Keyed.keys ((dropTable "items").run blocked).2.1.tables = ["users"] ∧
      ((dropTable "items").run blocked).2.2.files.read shop.manifestPath =
        blocked.2.files.read shop.manifestPath := by
  decide +kernel

end Database
end Tabulary
