import Tabulary.Proofs.Catalog.Creation
import Tabulary.Proofs.Catalog.Rollback
import Tabulary.Proofs.Files.Confined

/-!
Names of databases and tables as names in the file system.  Main statement: whatever text names a
database or a table, creating it fails before a file is touched, or what it makes, changes and
removes is a directory of the sanitized name in the data directory, or files in the directory of the
database that are not its manifest (`names_confined`).
-/

namespace Tabulary

open Attempt Files Work

/-! ## Names -/

/-- The name of something directly in a directory. -/
structure Name.Step (name : String) : Prop where
  ne_empty : name ≠ ""
  slash : '/' ∉ name.toList
  backslash : '\\' ∉ name.toList
  ne_here : name ≠ "."
  ne_up : name ≠ ".."

namespace Name

/-- Taking away pairs of dots, slashes and backslashes can leave a pair of dots, or nothing; neither
can be stored. -/
theorem step_sanitize {name : String} (h : isStorable (sanitize name) = true) :
    Step (sanitize name) := by
  have hne {other : String} (hother : isStorable other = false) : sanitize name ≠ other := by
    rintro heq
    rw [heq, hother] at h
    cases h
  exact ⟨hne (by decide), slash_not_mem_sanitize name, backslash_not_mem_sanitize name,
    hne (by decide), hne (by decide)⟩

example : sanitize ".\\/." = ".." := by decide

theorem step_tableFile (table : String) : Step (tableFile table) := by
  have hnot {c : Char} (hc : c ∉ (sanitize table).toList) (hc' : c ∉ ".tbl".toList) :
      c ∉ (tableFile table).toList := by
    rw [tableFile, String.toList_append, List.mem_append, not_or]
    exact ⟨hc, hc'⟩
  exact ⟨Database.tableFile_ne (by decide) table, hnot (slash_not_mem_sanitize table) (by decide),
    hnot (backslash_not_mem_sanitize table) (by decide), Database.tableFile_ne (by decide) table,
    Database.tableFile_ne (by decide) table⟩

end Name

/-- A path to a direct child: it is written as one more name, and wherever the directory is, it
leads to the place of that name in it. -/
def Path.Child (p path : Path) : Prop :=
  ∃ name, Name.Step name ∧ path = p ++ [name] ∧ Path.parts name = [name] ∧
    ∀ (fs : Files) q, fs.walk [] path = .ok q → ∃ place, fs.walk [] p = .ok place ∧
    q = place ++ [name]

/-- Two paths that never lead to the same place. -/
def Path.Apart (a b : Path) : Prop :=
  a ≠ b ∧ ∀ (fs : Files) q, fs.walk [] a = .ok q → fs.walk [] b ≠ .ok q

namespace Path

theorem child_of_step (p : Path) {name : String} (h : Name.Step name) : Child p (p ++ [name]) :=
  ⟨name, h, rfl, parts_eq_singleton h.slash h.ne_empty h.ne_here,
    fun _ _ hw => of_walk_child hw h.ne_up⟩

theorem apart_of_ne (p : Path) {a b : String} (ha : a ≠ "..") (hb : b ≠ "..") (hne : a ≠ b) :
    Apart (p ++ [a]) (p ++ [b]) :=
  ⟨fun heq => hne (child_inj.mp heq), fun _ _ hw hw' => hne (eq_of_walk_child hw hw' ha hb)⟩

end Path

/-- Two states of the files differ only in what is directly in a directory, and in directories that
lead to it. -/
def Files.Within (p : Path) (fs fs' : Files) : Prop :=
  ∃ names, (∀ name ∈ names, Name.Step name) ∧ Confined p names fs fs'

namespace Store

variable {σ : Type} {P : σ → Prop} {p : Path} {name : String}

theorem entries_rebuild : Keeps (fun y : Store × World => y.2.files.entries) rebuild := by
  refine (keeps_ensureOpen.through (·.2.2.2.entries)).bind fun h =>
    Keeps.bind (fun _ => rfl) fun s => ?_
  refine Keeps.bind (fun _ => rfl) fun file => ?_
  dsimp only
  split
  · exact Keeps.bind (fun _ => rfl) fun _ => keeps_throw _
  · refine Keeps.bind (fun _ => rfl) fun _ => Keeps.bind (fun _ => rfl) fun path => ?_
    split
    · exact fun _ => rfl
    · exact fun _ => rfl

/-- Reading the records of a file at most cuts it off. -/
theorem confines_attach (s : Schema) :
    Confines P p [name] (attach s (p ++ [name]) : Work σ Store) := by
  refine confines_of_run fun y hP hs => ?_
  have hentries : Keeps (fun y : σ × World => y.2.files.entries)
      (attach s (p ++ [name]) : Work σ Store) := by
    refine Keeps.bind (fun _ => rfl) fun node => ?_
    let st : Store := ⟨Table.empty s, p ++ [name], some ⟨node, none⟩, false⟩
    refine Keeps.bind (fun _ => rfl) fun _ => Keeps.bind (fun y => entries_rebuild (st, y.2))
      fun ending => ?_
    dsimp only
    split
    · exact keeps_pure _
    · exact Keeps.bind (fun _ => rfl) fun _ => keeps_throw _
  have hsame : ((attach s (p ++ [name]) : Work σ Store).run y).2.2.files.entries =
    y.2.files.entries := hentries y
  have hold (q : Path) (hq : ((attach s (p ++ [name]) : Work σ Store).run y).2.2.files.entry? q =
      some .directory) : y.2.files.entry? q = some .directory := by
    unfold Files.entry? at hq ⊢
    rwa [hsame] at hq
  rcases @attach_cases σ p name y.2 s y.1 hs with
    ⟨e, w', hrun, hfiles, -⟩ | ⟨st, w', hrun, -, hlocal, -⟩
  · rw [Prod.eta] at hrun
    rw [hrun]
    exact ⟨hP, by rw [hfiles]; exact .refl hs⟩
  · rw [Prod.eta] at hrun
    rw [hrun] at hold ⊢
    exact ⟨hP, hlocal.confined hold⟩

theorem confines_openFile (s : Schema) :
    Confines P p [name] (openFile s (p ++ [name]) : Work σ Store) := by
  rw [openFile_eq, List.dropLast_concat]
  refine (confines_ensureDirectory p).bind fun _ => (confines_query _).bind fun there => ?_
  have hcreate : Confines P p [name]
      (change fun fs => (fs.create (p ++ [name])).map (·.2) : Work σ Unit) := by
    refine confines_change fun fs fs' hs h => ?_
    cases hmade : fs.create (p ++ [name]) with
    | error e =>
      rw [hmade] at h
      cases h
    | ok made =>
      rw [hmade] at h
      cases h
      exact confined_create hs hmade
  split
  · exact hcreate.bind fun _ => confines_attach s
  · exact confines_attach s

theorem confines_close : Confines (fun st => st.path = p ++ [name]) p [name] close := by
  refine confines_state fun st hst => ?_
  split
  · exact confines_of_keeps (keeps_pure _) (keeps_pure _)
  · refine (confines_of_keeps (keeps_pure _) (keeps_pure _)).bind fun _ => ?_
    refine Confines.bind (fun fs y hy => ⟨hst, hy.2⟩) fun _ => ?_
    exact confines_of_keeps (fun _ => rfl) fun _ => rfl

theorem confines_drop : Confines (fun st => st.path = p ++ [name]) p [name] drop := by
  refine confines_state fun st hst => ?_
  split
  · exact confines_throw _
  refine confines_close.bind fun _ => ?_
  rw [hst]
  refine (confines_change fun fs fs' hs h => confined_removeIfThere hs h).bind fun _ => ?_
  refine confines_state fun st' hst' => Confines.bind (fun fs y hy => ⟨hst', hy.2⟩) fun _ => ?_
  exact confines_of_keeps (fun _ => rfl) fun _ => rfl

end Store

namespace Database

variable {d : Database} {w : World} {p : Path} {names : List String} {schema : Schema}

/-- Work on a database in a directory that changes nothing but files of some names there. -/
abbrev Confines (p : Path) (names : List String) {α : Type} (x : Work Database α) : Prop :=
  Work.Confines (fun d : Database => d.directory = p) p names x

theorem confines_setTables (ts : Tables) : Confines p names (setTables ts) := fun _ _ hy => hy

theorem confines_saveManifest : Confines p [draftName, manifestName] saveManifest := by
  refine confines_of_run fun y hp hs => ?_
  obtain ⟨d, w⟩ := y
  have hsame := keeps_saveManifest (d, w)
  refine ⟨(congrArg (·.directory) hsame).trans hp, ?_⟩
  have hrun : saveManifest.run (d, w) = (do
      Work.change fun fs => fs.write (d.directory ++ [draftName]) (Text.toBytes d.manifest.render)
      Work.change fun fs => fs.move (d.directory ++ [draftName]) (d.directory ++ [manifestName]) :
        Work Database Unit).run (d, w) := rfl
  obtain rfl : d.directory = p := hp
  rw [hrun, run_bind, Work.run_change]
  dsimp only
  cases hwrite : w.files.write (d.directory ++ [draftName]) (Text.toBytes d.manifest.render) with
  | error e => exact .refl hs
  | ok fs₁ =>
    have hwritten : Confined d.directory [draftName] w.files fs₁ := confined_write hs hwrite
    dsimp only
    rw [Work.run_change]
    dsimp only
    cases hmove : fs₁.move (d.directory ++ [draftName]) (d.directory ++ [manifestName]) with
    | error e => exact hwritten.mono (by simp)
    | ok fs₂ =>
      obtain ⟨node, hopen, -⟩ := openFile_of_write hwrite
      refine (hwritten.mono (by simp)).trans ?_
      exact confined_move hwritten.sane plain_draftName.down plain_manifestName.down
        draftName_ne_manifestName hopen hmove

/-- The names of the files that creating a table has to do with. -/
def touched (schema : Schema) : List String := [Name.tableFile schema.name, draftName, manifestName]

theorem confines_discard (hd : d.directory = p) :
    Confines p (touched schema) (discard d schema) := by
  unfold discard
  dsimp only
  rw [hd]
  refine (confines_query _).bind fun there => ?_
  split
  · refine (confines_of_keeps (fun _ => rfl) fun _ => rfl).bind fun _ =>
      (confines_log _ _ _).bind fun _ => ?_
    refine (confines_change fun fs fs' hs h => confined_remove hs h).mono ?_
    simp [touched]
  · exact confines_of_keeps (keeps_pure _) (keeps_pure _)

theorem confines_takeBack {st : Store} (hst : st.path = p ++ [Name.tableFile schema.name])
    (e : Fault) : Confines p (touched schema) (takeBack d st e) := by
  unfold takeBack
  dsimp only
  split
  · refine (confines_setTables _).bind fun _ => ?_
    refine ((Store.confines_drop.beside hst).mono (by simp [touched])).bind fun _ => ?_
    exact (confines_ofExcept _).bind fun _ => confines_throw _
  · exact confines_throw _

theorem confines_enter (hd : d.directory = p) : Confines p (touched schema) (enter d schema) := by
  unfold enter
  rw [hd]
  have hopen : Confines p (touched schema)
      (Store.openFile schema (p ++ [Name.tableFile schema.name])) :=
    (Store.confines_openFile schema).mono (by simp [touched])
  refine hopen.bind_of_returns (R := fun st => st.path = p ++ [Name.tableFile schema.name])
    (fun _ _ _ hrun => Store.place_of_openFile hrun) fun st hst => ?_
  refine (confines_setTables _).bind fun _ => Confines.bind ?_ fun _ => confines_log _ _ _
  exact (confines_saveManifest.mono (by simp [touched])).tryCatch fun e => confines_takeBack hst e

theorem confines_createTable (schema : Schema) :
    Confines p (touched schema) (createTable schema) := by
  rw [createTable_eq]
  refine confines_state fun d hd => (confines_ofExcept _).bind fun _ => ?_
  exact (confines_discard hd).bind fun _ => confines_enter hd

/-- What is taken back has failed. -/
theorem returns_takeBack (st : Store) (e : Fault) : Returns (fun _ => False) (takeBack d st e) := by
  unfold takeBack
  dsimp only
  split
  · exact Returns.bind fun _ => Returns.bind fun _ => Returns.bind fun _ => returns_throw e
  · exact returns_throw e

/-- A table that is created has the file of its name. -/
theorem createTable_ok {d' : Database} {w' : World}
    (hrun : (createTable schema).run (d, w) = (.ok (), (d', w'))) :
    ∃ st, st.path = d.directory ++ [Name.tableFile schema.name] ∧
      d' = { d with tables := Keyed.set schema.name st d.tables } := by
  rw [createTable_eq, run_bind_of_ok (Work.run_state _)] at hrun
  obtain ⟨_, hcheck, hrun⟩ := of_run_ofExcept_bind_ok hrun
  obtain ⟨_, ⟨d₁, w₁⟩, hdiscard, hrun⟩ := of_run_bind_ok hrun
  have hkeeps := keeps_discard d schema (d, w)
  rw [hdiscard] at hkeeps
  obtain rfl : d₁ = d := hkeeps
  obtain ⟨st, ⟨d₂, w₂⟩, hopen, hrun⟩ := of_run_bind_ok hrun
  have hkeeps := Store.keeps_openFile schema
    (d₁.directory ++ [Name.tableFile schema.name]) (d₁, w₁)
  rw [hopen] at hkeeps
  obtain rfl : d₂ = d₁ := hkeeps
  let d₃ : Database := { d₂ with tables := Keyed.set schema.name st d₂.tables }
  have hset : (setTables (Keyed.set schema.name st d₂.tables)).run (d₂, w₂) =
      (.ok (), (d₃, w₂)) :=
    rfl
  rw [run_bind_of_ok hset] at hrun
  obtain ⟨_, z, hsave, hlog⟩ := of_run_bind_ok hrun
  cases hlog
  have hkeeps := keeps_saveManifest (d₃, w₂)
  generalize hsaved : saveManifest.run (d₃, w₂) = ending at hkeeps
  obtain ⟨result, d₄, w₃⟩ := ending
  cases result with
  | error e =>
    exact (returns_takeBack st e _ _ _ ((run_tryCatch_of_error hsaved).symm.trans hsave)).elim
  | ok _ =>
    cases (run_tryCatch_of_ok hsaved).symm.trans hsave
    exact ⟨st, Store.place_of_openFile hopen, hkeeps⟩

/-! ## Opening a database -/

theorem confines_loadTable {t : Manifest.Table} (ht : t.file = Name.tableFile t.name)
    (hmem : Name.tableFile t.name ∈ names) : Confines p names (loadTable t) := by
  refine (confines_ofExcept _).bind fun schema => confines_state fun d hd => ?_
  rw [ht, Work.query_locate, hd]
  refine ((Store.confines_openFile schema).mono (by simpa using hmem)).bind fun st => ?_
  exact (confines_setTables _).bind fun _ => confines_log _ _ _

theorem confines_loadTables {tables : List Manifest.Table}
    (hown : ∀ t ∈ tables, t.file = Name.tableFile t.name)
    (hmem : ∀ t ∈ tables, Name.tableFile t.name ∈ names) :
    Confines p names (tables.forM loadTable) := by
  induction tables with
  | nil => exact confines_of_keeps (keeps_pure _) (keeps_pure _)
  | cons t tables ih =>
    refine (confines_loadTable (hown t List.mem_cons_self) (hmem t List.mem_cons_self)).bind
      fun _ => ?_
    exact ih (fun t ht => hown t (List.mem_cons_of_mem _ ht)) fun t ht =>
      hmem t (List.mem_cons_of_mem _ ht)

theorem within_loadManifest {d : Database} (hs : w.files.Sane)
    (hown : ListsOwn d.directory w.files) :
    Within d.directory w.files (loadManifest.run (d, w)).2.2.files := by
  have hsame : Within d.directory w.files w.files := ⟨[], nofun, .refl hs⟩
  unfold loadManifest
  rw [run_bind_of_ok (Work.run_state _), run_bind, Work.run_query]
  cases hread : w.files.read d.manifestPath with
  | error e => exact hsame
  | ok bytes =>
    dsimp only
    rw [run_bind, run_ofExcept]
    cases hm : Manifest.ofBytes bytes with
    | error e => exact hsame
    | ok m =>
      refine ⟨m.tables.map fun t => Name.tableFile t.name, fun name hname => ?_, ?_⟩
      · obtain ⟨t, -, rfl⟩ := List.mem_map.mp hname
        exact Name.step_tableFile t.name
      · have hload : Confines d.directory (m.tables.map fun t => Name.tableFile t.name)
          (m.tables.forM loadTable) :=
          confines_loadTables (hown bytes m hread hm) fun t ht => List.mem_map_of_mem ht
        exact (hload.run (y := (d, w)) rfl hs).2

theorem step_manifestName : Name.Step manifestName :=
  ⟨by decide, by decide, by decide, by decide, by decide⟩

theorem step_draftName : Name.Step draftName :=
  ⟨by decide, by decide, by decide, by decide, by decide⟩

/-- Opening a database stays in its directory if the manifest that may be there does. -/
theorem within_openIn {σ : Type} (name : String) (y : σ) (hs : w.files.Sane)
    (hown : ListsOwn p (w.files.ensureDirectory p).2) :
    Within p w.files ((openIn name p : Work σ Database).run (y, w)).2.2.files := by
  have hmade := confined_ensureDirectory hs p
  unfold openIn
  rw [run_bind, Work.run_ensureDirectory]
  generalize w.files.ensureDirectory p = made at hmade hown ⊢
  obtain ⟨result, fs⟩ := made
  cases result with
  | error e => exact ⟨[], nofun, hmade⟩
  | ok _ =>
    let d : Database := ⟨name, p, [], w.opened⟩
    let w₁ : World := { w with files := fs, opened := w.opened + 1 }
    show Within p w.files ((do
        let known ← Work.query fun fs => fs.isThere d.manifestPath
        let ending ← Work.beside d (if known then loadManifest else saveManifest)
        Attempt.ofExcept ending.1
        return ending.2 : Work σ Database).run (y, w₁)).2.2.files
    rw [run_bind, Work.run_query]
    dsimp only
    cases hknown : fs.isThere d.manifestPath with
    | error e => exact ⟨[], nofun, hmade⟩
    | ok known =>
      dsimp only
      rw [run_bind_of_ok (Work.run_beside _ _ _)]
      obtain ⟨names, hsteps, hload⟩ : Within p fs
          ((if known then loadManifest else saveManifest).run (d, w₁)).2.2.files := by
        cases known with
        | true => exact within_loadManifest (d := d) (w := w₁) hmade.sane hown
        | false =>
          refine ⟨[draftName, manifestName], ?_,
            (confines_saveManifest.run (y := (d, w₁)) rfl hmade.sane).2⟩
          simp [step_draftName, step_manifestName]
      dsimp only
      generalize (if known then loadManifest else saveManifest).run (d, w₁) = ending at hload ⊢
      obtain ⟨result, d', w'⟩ := ending
      refine ⟨names, hsteps, (hmade.mono (List.nil_subset _)).trans ?_⟩
      cases result with
      | error e => exact hload
      | ok _ => exact hload

end Database

namespace Registry

variable {r : Registry} {w : World} {name : String}

/-- A database that cannot have its name is refused at once; any other is opened in the directory of
its sanitized name. -/
theorem run_createDatabase_cases (r : Registry) (w : World) (name : String) :
    (∃ e, (createDatabase name).run (r, w) = (.error e, (r, w))) ∨
      Name.isStorable (Name.sanitize name) = true ∧ (createDatabase name).run (r, w) = (do
        let d ← Database.openIn name (r.dataDir ++ [Name.sanitize name])
        setDatabases (Keyed.set name d (← Work.state).databases)
        Work.log .info "database_created"
          [("database", .text name),
            ("path", .text (← Work.pathText (r.dataDir ++ [Name.sanitize name])))]
        return r.dataDir ++ [Name.sanitize name] : Work Registry Path).run (r, w) := by
  unfold createDatabase
  rw [run_bind_of_ok (Work.run_state _)]
  dsimp only
  split
  · exact Or.inl ⟨_, rfl⟩
  split
  · exact Or.inl ⟨_, rfl⟩
  · rename_i hstorable
    split
    · exact Or.inl ⟨_, rfl⟩
    · exact Or.inr ⟨by simpa using hstorable, rfl⟩

theorem within_createDatabase (hs : w.files.Sane)
    (hown : Database.ListsOwn (r.dataDir ++ [Name.sanitize name])
      (w.files.ensureDirectory (r.dataDir ++ [Name.sanitize name])).2) :
    Within (r.dataDir ++ [Name.sanitize name]) w.files
    ((createDatabase name).run (r, w)).2.2.files := by
  rcases run_createDatabase_cases r w name with ⟨e, hrun⟩ | ⟨-, hrun⟩
  · rw [hrun]
    exact ⟨[], nofun, .refl hs⟩
  · have hopened := Database.within_openIn name r hs hown
    rw [hrun, run_bind]
    generalize
      (Database.openIn name (r.dataDir ++ [Name.sanitize name]) : Work Registry Database).run
        (r, w) = ending at hopened ⊢
    obtain ⟨result, r', w'⟩ := ending
    cases result with
    | error e => exact hopened
    | ok d => exact hopened

end Registry

/-! ## What a name can do -/

/-- How the name of a new database is taken: it is refused with nothing done, or it stands for a
direct child of the data directory, and what changes is there, unless a manifest was left there that
lists files of other names. -/
inductive Registry.Placed (r : Registry) (w : World) (name : String) :
    Except Fault Path × Registry × World → Prop
  | refused (e : Fault) : Placed r w name (.error e, r, w)
  | used {result : Except Fault Path} {r' : Registry} {w' : World}
      (step : Name.Step (Name.sanitize name))
      (child : Path.Child r.dataDir (r.dataDir ++ [Name.sanitize name]))
      (made : ∀ p, result = .ok p → p = r.dataDir ++ [Name.sanitize name] ∧
        ∃ d, r' = { r with databases := r.databases ++ [(name, d)] } ∧ d.directory = p)
      (within : Database.ListsOwn (r.dataDir ++ [Name.sanitize name])
          (w.files.ensureDirectory (r.dataDir ++ [Name.sanitize name])).2 →
        Within (r.dataDir ++ [Name.sanitize name]) w.files w'.files) : Placed r w name
          (result, r', w')

/-- How the name of a new table is taken: it is refused with nothing done, or it stands for a direct
child of the directory that is neither the manifest nor its draft, and these three are all that
changes. -/
inductive Database.Placed (d : Database) (w : World) (schema : Schema) :
    Except Fault Unit × Database × World → Prop
  | refused (e : Fault) : Placed d w schema (.error e, d, w)
  | used {result : Except Fault Unit} {d' : Database} {w' : World}
      (step : Name.Step (Name.sanitize schema.name))
      (child : Path.Child d.directory (d.directory ++ [Name.tableFile schema.name]))
      (manifest : Path.Apart (d.directory ++ [Name.tableFile schema.name]) d.manifestPath)
      (draft : Path.Apart (d.directory ++ [Name.tableFile schema.name]) d.draftPath)
      (made : result = .ok () → ∃ st, st.path = d.directory ++ [Name.tableFile schema.name] ∧
        d' = { d with tables := Keyed.set schema.name st d.tables })
      (confined : Confined d.directory [Name.tableFile schema.name, draftName, manifestName] w.files
        w'.files) :
      Placed d w schema (result, d', w')

theorem Registry.placed {r : Registry} {w : World} (hs : w.files.Sane) (name : String) :
    Placed r w name ((createDatabase name).run (r, w)) := by
  rcases run_createDatabase_cases r w name with ⟨e, hrun⟩ | ⟨hstorable, -⟩
  · rw [hrun]
    exact .refused e
  · have hstep := Name.step_sanitize hstorable
    have hwithin := @within_createDatabase r w name hs
    generalize hrun : (createDatabase name).run (r, w) = ending at hwithin ⊢
    obtain ⟨result, r', w'⟩ := ending
    refine .used hstep (Path.child_of_step _ hstep) (fun p hp => ?_) hwithin
    rw [hp] at hrun
    obtain ⟨rfl, d, hr', hbegun⟩ := createDatabase_ok hs hrun
    exact ⟨rfl, d, hr', hbegun.located⟩

namespace Database

theorem apart_manifestPath (d : Database) (table : String) :
    Path.Apart (d.directory ++ [Name.tableFile table]) d.manifestPath :=
  Path.apart_of_ne _ (tableFile_ne_up table) (by decide) (tableFile_ne_manifestName table)

theorem apart_draftPath (d : Database) (table : String) :
    Path.Apart (d.directory ++ [Name.tableFile table]) d.draftPath :=
  Path.apart_of_ne _ (tableFile_ne_up table) (by decide) (tableFile_ne_draftName table)

theorem storable_of_checkNew {d : Database} {schema : Schema} (h : d.checkNew schema = .ok ()) :
    Name.isStorable (Name.sanitize schema.name) = true := by
  unfold checkNew at h
  split at h
  · cases h
  split at h
  · cases h
  · rename_i hstorable
    simpa using hstorable

theorem placed {d : Database} {w : World} (hs : w.files.Sane) (schema : Schema) :
    Placed d w schema ((createTable schema).run (d, w)) := by
  cases hcheck : d.checkNew schema with
  | error e =>
    rw [run_createTable_of_rejected hcheck]
    exact .refused e
  | ok _ =>
    have hstep := Name.step_sanitize (storable_of_checkNew hcheck)
    have hconfined := ((confines_createTable schema).run (y := (d, w)) rfl hs).2
    generalize hrun : (createTable schema).run (d, w) = ending at hconfined ⊢
    obtain ⟨result, d', w'⟩ := ending
    refine .used hstep (Path.child_of_step _ (Name.step_tableFile _)) (apart_manifestPath d _)
      (apart_draftPath d _) (fun hok => ?_) hconfined
    rw [hok] at hrun
    exact createTable_ok hrun

end Database

/-- No text that names a database or a table leads out of the data directory or of the directory of
the database, and no table has the file of the manifest or of its draft. -/
theorem names_confined :
    (∀ (r : Registry) (w : World) (name : String), w.files.Sane →
      r.Placed w name ((Registry.createDatabase name).run (r, w))) ∧
    (∀ (d : Database) (w : World) (schema : Schema), w.files.Sane →
      d.Placed w schema ((Database.createTable schema).run (d, w))) ∧
    ∀ d : Database, d.Reached → ∀ t ∈ d.tables, Path.Child d.directory t.2.path ∧
      Path.Apart t.2.path d.manifestPath ∧ Path.Apart t.2.path d.draftPath := by
  refine ⟨fun r w name hs => Registry.placed hs name,
    fun d w schema hs => Database.placed hs schema, fun d hd t ht => ?_⟩
  rw [hd.housed t ht]
  exact ⟨Path.child_of_step _ (Name.step_tableFile _), d.apart_manifestPath _,
    d.apart_draftPath _⟩

/-- One name that becomes a plain one, and one from which a pair of dots is left. -/
theorem names_confined_upwards :
    (World.empty "/").files.Sane ∧
    ((Registry.createDatabase "../etc\\/x").run (⟨["data"], []⟩, World.empty "/")).1 =
    .ok ["data", "etcx"] ∧ Registry.Placed ⟨["data"], []⟩ (World.empty "/") "../etc\\/x"
      ((Registry.createDatabase "../etc\\/x").run (⟨["data"], []⟩, World.empty "/")) ∧
    ((Registry.createDatabase ".\\/.").run (⟨["data"], []⟩, World.empty "/")).1 =
      .error (.engine (.schema (.databaseName ".\\/."))) ∧
    Registry.Placed ⟨["data"], []⟩ (World.empty "/") ".\\/."
      ((Registry.createDatabase ".\\/.").run (⟨["data"], []⟩, World.empty "/")) ∧
    Database.shop.Placed (World.empty "/") Database.items
      ((Database.createTable Database.items).run (Database.shop, World.empty "/")) ∧
    Database.Reached Database.blocked.1 ∧ ∃ t ∈ Database.blocked.1.tables,
      Path.Child Database.blocked.1.directory t.2.path ∧
      Path.Apart t.2.path Database.blocked.1.manifestPath ∧
      Path.Apart t.2.path Database.blocked.1.draftPath := by
  have hs := sane_empty "/"
  obtain ⟨hdatabase, htable, hreached⟩ := names_confined
  have hne : Database.blocked.1.tables ≠ [] := by decide +kernel
  exact ⟨hs, by decide +kernel, hdatabase _ _ _ hs, by decide +kernel, hdatabase _ _ _ hs,
    htable _ _ _ hs, Database.reached_blocked, _, List.head_mem hne,
    hreached _ Database.reached_blocked _ (List.head_mem hne)⟩

end Tabulary
