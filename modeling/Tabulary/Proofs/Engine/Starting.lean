import Tabulary.Proofs.Catalog.Directories
import Tabulary.Proofs.Engine.Basic
import Tabulary.Proofs.Store.Opening

/-!
Starts that fail.  A table that is opened is counted and reported, and one that cannot be opened
closes its file again.  Main statement: a start that fails leaves the engine stopped, and the count
of open tables higher by the tables that it had opened before, whatever was in the data directory
(`Engine.start_tallied`).
-/

namespace Tabulary

open Attempt

/-- How many of the events report a table that was opened. -/
def openings (events : List Event) : Nat := events.countP fun e => e.name = "table_opened"

/-- Since a world was seen, the count of open tables has risen by the tables that were reported as
opened and by `k` besides. -/
def World.Tallied (before : World) (k : Int) (w : World) : Prop :=
  ∃ events, w.events = events ++ before.events ∧
    w.metrics.openTables = before.metrics.openTables + openings events + k

variable {σ τ α : Type} {before : World} {k : Int}

theorem World.tallied_self (w : World) : World.Tallied w 0 w :=
  ⟨[], rfl, by rw [openings, List.countP_nil]; omega⟩

theorem World.Tallied.congr {w w' : World} (h : before.Tallied k w) (hevents : w'.events = w.events)
    (htables : w'.metrics.openTables = w.metrics.openTables) : before.Tallied k w' := by
  obtain ⟨events, hw, hk⟩ := h
  exact ⟨events, hevents.trans hw, htables.trans hk⟩

namespace Work

/-- What has been tallied when work begins and when it ends. -/
def Tally (before : World) (k : Int) (y : σ × World) : Prop := before.Tallied k y.2

/-- Work that reports each table that it opens, and closes what it opens besides. -/
abbrev Tallies (before : World) (k : Int) (x : Work σ α) : Prop :=
  Triple (Tally before k) x (fun _ => Tally before k) (Tally before k)

theorem tallies_of_keeps {x : Work σ α}
    (hx : Keeps (fun y => (y.2.events, y.2.metrics.openTables)) x) : Tallies before k x := by
  intro y hy
  have hkept := hx y
  generalize x.run y = ending at hkept ⊢
  obtain ⟨result, y'⟩ := ending
  obtain ⟨hevents, htables⟩ := Prod.mk.inj hkept
  have hy' : Tally before k y' := World.Tallied.congr hy hevents htables
  cases result with
  | ok a => exact hy'
  | error e => exact hy'

theorem tallied_log {w : World} (h : before.Tallied k w) (level : Level) (name : String)
    (fields : List (String × Json)) :
    before.Tallied (if name = "table_opened" then k - 1 else k) (w.log level name fields) := by
  obtain ⟨events, hw, hk⟩ := h
  obtain ⟨e, hname, hlog⟩ : ∃ e : Event, e.name = name ∧
      (w.log level name fields).events = e :: w.events :=
    ⟨_, rfl, rfl⟩
  refine ⟨e :: events, by rw [hlog, hw, List.cons_append], ?_⟩
  rw [show (w.log level name fields).metrics = w.metrics from rfl, hk, openings, openings,
    List.countP_cons, hname]
  by_cases hopened : name = "table_opened"
  · rw [if_pos hopened, if_pos (decide_eq_true hopened)]
    omega
  · rw [if_neg hopened, if_neg (by simpa using hopened)]
    omega

theorem tallies_log {name : String} (h : name ≠ "table_opened") (level : Level)
    (fields : List (String × Json)) :
    Tallies before k (Work.log level name fields : Work σ Unit) := by
  intro y hy
  have hlogged := tallied_log hy level name fields
  rw [if_neg h] at hlogged
  exact hlogged

/-- A table that is reported is tallied from then on. -/
theorem triple_logOpened {E : σ × World → Prop} (level : Level)
    (fields : List (String × Json)) :
    Triple (Tally before (k + 1)) (Work.log level "table_opened" fields : Work σ Unit)
      (fun _ => Tally before k) E := by
  intro y hy
  have hlogged := tallied_log hy level "table_opened" fields
  rw [if_pos rfl, Int.add_sub_cancel] at hlogged
  exact hlogged

theorem triple_addOpenTables {E : σ × World → Prop} (n : Int) :
    Triple (Tally before k) (Work.addOpenTables n : Work σ Unit)
    (fun _ => Tally before (k + n)) E := by
  rintro ⟨s, w⟩ ⟨events, hw, hk⟩
  refine ⟨events, hw, ?_⟩
  show w.metrics.openTables + n = before.metrics.openTables + openings events + (k + n)
  dsimp only at hk
  omega

theorem tallies_query (f : Files → Except Fault α) :
    Tallies before k (Work.query f : Work σ α) :=
  tallies_of_keeps fun _ => rfl

theorem tallies_change (f : Files → Except Fault Files) :
    Tallies before k (Work.change f : Work σ Unit) := by
  refine tallies_of_keeps fun y => ?_
  rw [run_change]
  split <;> rfl

/-- Work on another state in the same world. -/
theorem triple_beside {E : σ × World → Prop} {x : Work τ α}
    (hx : Tallies before k x) (t : τ) :
    Triple (Tally before k) (Work.beside t x : Work σ (Except Fault α × τ))
    (fun _ => Tally before k) E := by
  intro y hy
  have hend := hx (t, y.2) hy
  rw [run_beside]
  generalize x.run (t, y.2) = ending at hend ⊢
  obtain ⟨result, t', w⟩ := ending
  cases result with
  | ok a => exact hend
  | error e => exact hend

end Work

open Work

/-! ## Tables -/

namespace Store

theorem tallies_log {name : String} (h : name ≠ "table_opened") (level : Level)
    (fields : List (String × Json)) : Tallies before k (log level name fields) :=
  triple_state fun _ => (Work.tallies_log h level _).mono (fun _ hy => hy.2)
    (fun _ _ hy => hy) fun _ hy => hy

theorem tallies_rebuild : Tallies before k rebuild := by
  have hstate {α : Type} {f : Store → Work Store α} (hf : ∀ s, Tallies before k (f s)) :
      Tallies before k (Work.state >>= f) :=
    (tallies_of_keeps fun _ => rfl).bind hf
  have hopen : Tallies before k ensureOpen := by
    refine hstate fun s => ?_
    dsimp only
    split
    · exact tallies_of_keeps (keeps_throw _)
    · split
      · exact tallies_of_keeps (keeps_pure _)
      · exact tallies_of_keeps (keeps_throw _)
  refine hopen.bind fun h => hstate fun s => (tallies_of_keeps fun _ => rfl).bind fun file => ?_
  dsimp only
  split
  · exact (tallies_of_keeps fun _ => rfl).bind fun _ => tallies_of_keeps (keeps_throw _)
  refine (tallies_of_keeps fun _ => rfl).bind fun _ =>
    (tallies_of_keeps fun _ => rfl).bind fun path => ?_
  have hfinish (f : Store → Store) (fields : List (String × Json)) : Tallies before k (do
      Work.setState (f (← Work.state)); log .info "index_rebuilt" fields) :=
    hstate fun _ => (tallies_of_keeps fun _ => rfl).bind fun _ => tallies_log (by decide) _ _
  split
  · exact (tallies_log (by decide) _ _).bind fun _ => (tallies_of_keeps fun _ => rfl).bind fun _ =>
      hfinish _ _
  · exact hfinish _ _

/-- A file that is opened is counted; one whose records cannot be read is closed again. -/
theorem triple_openFile_tally (s : Schema) (path : Path) :
    Triple (Tally before k) (openFile s path : Work σ Store) (fun _ => Tally before (k + 1))
    (Tally before k) := by
  unfold openFile
  refine (tallies_of_keeps fun _ => rfl).bind fun _ => (tallies_query _).bind fun there => ?_
  have hattach : Triple (Tally before k) (attach s path : Work σ Store)
      (fun _ => Tally before (k + 1)) (Tally before k) := by
    refine (tallies_query _).bind fun node => (triple_addOpenTables 1).bind fun _ => ?_
    refine (triple_beside tallies_rebuild _).bind fun ending => ?_
    obtain ⟨result, st⟩ := ending
    cases result with
    | ok _ => exact triple_pure fun _ h => h
    | error e =>
      refine (triple_addOpenTables (-1)).bind fun _ y hy => ?_
      show before.Tallied k y.2
      rwa [Tally, Int.add_neg_cancel_right] at hy
  split
  · exact (tallies_change _).bind fun _ => hattach
  · exact hattach

end Store

/-! ## Databases -/

namespace Database

/-- A table is counted and reported, or it is neither. -/
theorem tallies_loadTable (t : Manifest.Table) : Tallies before k (loadTable t) := by
  unfold loadTable
  refine (tallies_of_keeps (keeps_ofExcept _)).bind fun schema => ?_
  refine (tallies_of_keeps fun _ => rfl).bind fun d => (tallies_query _).bind fun path => ?_
  refine (Store.triple_openFile_tally _ _).bind fun st => ?_
  have hset : Triple (Tally before (k + 1)) (setTables (Keyed.set t.name st d.tables))
      (fun _ => Tally before (k + 1)) (Tally before k) := fun y hy => hy
  exact hset.bind fun _ => triple_logOpened _ _

theorem tallies_loadManifest : Tallies before k loadManifest := by
  refine (tallies_of_keeps fun _ => rfl).bind fun d => (tallies_query _).bind fun bytes => ?_
  exact (tallies_of_keeps (keeps_ofExcept _)).bind fun m => triple_forM tallies_loadTable _

theorem tallies_saveManifest : Tallies before k saveManifest :=
  (tallies_of_keeps fun _ => rfl).bind fun _ => (tallies_change _).bind fun _ => tallies_change _

theorem tallies_openIn (name : String) (directory : Path) :
    Tallies before k (openIn name directory : Work σ Database) := by
  unfold openIn
  refine (tallies_of_keeps fun _ => rfl).bind fun _ =>
    (tallies_of_keeps fun _ => rfl).bind fun serial => ?_
  refine (tallies_query _).bind fun known => ?_
  have hload : Tallies before k (if known = true then loadManifest else saveManifest) := by
    split
    · exact tallies_loadManifest
    · exact tallies_saveManifest
  refine (triple_beside hload _).bind fun ending => ?_
  exact (tallies_of_keeps (keeps_ofExcept _)).bind fun _ => triple_pure fun _ h => h

end Database

/-! ## The registry -/

namespace Registry

theorem tallies_discoverIn (directory : Path) : Tallies before k (discoverIn directory) := by
  unfold discoverIn
  refine (tallies_query _).bind fun bytes => (tallies_of_keeps (keeps_ofExcept _)).bind fun m => ?_
  refine (tallies_of_keeps fun _ => rfl).bind fun r => ?_
  split
  · exact triple_pure fun _ h => h
  refine (Database.tallies_openIn _ _).bind fun d => (tallies_of_keeps fun _ => rfl).bind fun r =>
    ?_
  exact (tallies_of_keeps fun _ => rfl).bind fun _ => triple_pure fun _ h => h

theorem tallies_discover : Tallies before k discover := by
  unfold discover
  refine (tallies_of_keeps fun _ => rfl).bind fun r => (tallies_of_keeps fun _ => rfl).bind fun _ =>
    ?_
  refine (tallies_query _).bind fun directories => ?_
  refine (triple_mapM fun directory _ => tallies_discoverIn directory).bind fun opened => ?_
  dsimp only
  split
  · exact (tallies_log (by decide) _ _).bind fun _ => triple_pure fun _ h => h
  · exact triple_pure fun _ h => h

theorem tallies_createDatabase (name : String) : Tallies before k (createDatabase name) := by
  unfold createDatabase
  refine (tallies_of_keeps fun _ => rfl).bind fun r => ?_
  dsimp only
  split
  · exact tallies_of_keeps (keeps_throw _)
  split
  · exact tallies_of_keeps (keeps_throw _)
  split
  · exact tallies_of_keeps (keeps_throw _)
  refine (Database.tallies_openIn _ _).bind fun d => (tallies_of_keeps fun _ => rfl).bind fun r =>
    ?_
  refine (tallies_of_keeps fun _ => rfl).bind fun _ =>
    (tallies_of_keeps fun _ => rfl).bind fun path => ?_
  exact (tallies_log (by decide) _ _).bind fun _ => triple_pure fun _ h => h

end Registry

/-! ## The engine -/

namespace Engine

theorem tallies_opening (standard : String) : Tallies before k (opening standard) := by
  unfold opening
  refine Registry.tallies_discover.bind fun _ => (tallies_of_keeps fun _ => rfl).bind fun r => ?_
  split
  · exact (Registry.tallies_createDatabase standard).bind fun _ => triple_pure fun _ h => h
  · exact triple_pure fun _ h => h

theorem tallies_serve (dataDir : Path) : Tallies before k (serve false dataDir) := by
  unfold serve
  refine (tallies_of_keeps fun _ => rfl).bind fun e => (tallies_of_keeps fun _ => rfl).bind fun _ =>
    ?_
  rw [if_neg Bool.false_ne_true]
  refine (tallies_of_keeps fun _ => rfl).bind fun path =>
    (tallies_of_keeps fun _ => rfl).bind fun e => ?_
  exact tallies_log (by decide) _ _

/-- A start that does not seed.  Just if it fails, the engine is not started, and either way the
count of open tables has risen by the tables that were reported as opened.  So the table whose file
is damaged is closed when a start fails over it, and the tables that were opened before it are
not. -/
theorem start_tallied {e e' : Engine} {w w' : World} {result : Except Fault Unit}
    (hstarted : e.started = false) (hseeds : e.seeds = false)
    (hrun : start.run (e, w) = (result, (e', w'))) :
    (e'.started = true ↔ result = .ok ()) ∧ ∃ events, w'.events = events ++ w.events ∧
      w'.metrics.openTables = w.metrics.openTables + openings events := by
  obtain ⟨standard, seeds, started, ⟨dataDir, databases⟩, dispatchers⟩ := e
  obtain rfl : seeds = false := hseeds
  rw [run_start_eq hstarted, run_bind, run_onRegistry] at hrun
  have hopened := tallies_opening standard (⟨dataDir, []⟩, w) w.tallied_self
  dsimp only [Engine.dataDir] at hrun
  generalize (opening standard).run (⟨dataDir, []⟩, w) = ending at hrun hopened
  obtain ⟨opened, r, w₁⟩ := ending
  cases opened with
  | ok _ =>
    obtain ⟨w₂, hserve⟩ : ∃ w₂,
        (serve false dataDir).run (⟨standard, false, started, r, dispatchers⟩, w₁) =
          (.ok (), (⟨standard, false, true, r, dispatchers⟩, w₂)) := ⟨_, rfl⟩
    have hserved := tallies_serve dataDir
      (⟨standard, false, started, r, dispatchers⟩, w₁) hopened
    rw [hserve] at hserved
    cases hserve.symm.trans hrun
    obtain ⟨events, hevents, htables⟩ := hserved
    exact ⟨iff_of_true rfl rfl, events, hevents, by rw [htables, Int.add_zero]⟩
  | error f =>
    cases hrun
    obtain ⟨events, hevents, htables⟩ := hopened
    refine ⟨iff_of_false ?_ (fun h => nomatch h), events,
      hevents, by rw [htables, Int.add_zero]⟩
    exact fun h => Bool.false_ne_true (hstarted.symm.trans h)

/-! ## What stops a start -/

section failing

variable {w w₁ : World} {directory : Path} {bytes : Bytes} {m : Manifest} {f : Fault}
  {r : Registry}

theorem run_discoverIn_of_error (hread : w.files.read (directory ++ [Database.manifestName]) =
    .ok bytes) (hm : Manifest.ofBytes bytes = .ok m) (hnew : r.databases.lookup m.database = none)
    (hopen : (Database.openIn m.database directory : Work Registry Database).run (r, w) =
      (.error f, (r, w₁))) :
    (Registry.discoverIn directory).run (r, w) = (.error f, (r, w₁)) := by
  have hquery : (Work.query fun fs => fs.read (directory ++ [Database.manifestName]) :
      Work Registry Bytes).run (r, w) = (.ok bytes, (r, w)) := by
    rw [Work.run_query, hread]
  have hnone : (r.databases.lookup m.database).isSome = false := by rw [hnew, Option.isSome_none]
  unfold Registry.discoverIn
  rw [run_bind_of_ok hquery, hm, run_bind_of_ok (run_ofExcept _ _),
    run_bind_of_ok (Work.run_state _)]
  dsimp only
  rw [hnone, if_neg Bool.false_ne_true]
  exact run_bind_of_error hopen

/-- What stops the search in the first directory stops a start. -/
theorem run_start_of_error {e : Engine} {directories : List Path} (hstarted : e.started = false)
    (hmade : w.files.ensureDirectory e.dataDir = (.ok (), w.files))
    (hfound : Registry.candidates e.dataDir w.files = .ok (directory :: directories))
    (hfirst : (Registry.discoverIn directory).run (⟨e.dataDir, []⟩, w) =
      (.error f, (r, w₁))) :
    start.run (e, w) = (.error f, ({ e with registry := r }, w₁)) := by
  have hensure : (Work.ensureDirectory e.dataDir : Work Registry Unit).run
      (⟨e.dataDir, []⟩, w) = (.ok (), (⟨e.dataDir, []⟩, w)) := by
    rw [Work.run_ensureDirectory, hmade]
  have hquery : (Work.query (Registry.candidates e.dataDir) : Work Registry (List Path)).run
      (⟨e.dataDir, []⟩, w) = (.ok (directory :: directories), (⟨e.dataDir, []⟩, w)) := by
    rw [Work.run_query, hfound]
  have hdiscover : Registry.discover.run (⟨e.dataDir, []⟩, w) = (.error f, (r, w₁)) := by
    unfold Registry.discover
    rw [run_bind_of_ok (Work.run_state _)]
    refine (run_bind_of_ok hensure).trans ((run_bind_of_ok hquery).trans ?_)
    rw [List.mapM_cons]
    exact run_bind_of_error (run_bind_of_error hfirst)
  have hopening : (opening e.defaultDatabase).run (⟨e.dataDir, []⟩, w) =
      (.error f, (r, w₁)) :=
    run_bind_of_error hdiscover
  rw [run_start_eq hstarted]
  refine run_bind_of_error ?_
  rw [run_onRegistry, hopening]

end failing

/-! ## A directory in which the second of two tables is damaged -/

/-- A table of keys alone. -/
def keysOnly (name : String) : Manifest.Table :=
  ⟨name, name ++ ".tbl", [⟨"id", .integer, false⟩]⟩

def twoTables : Manifest := ⟨"default", [keysOnly "a", keysOnly "b"]⟩

/-- The file of the second of the two tables does not begin with a record. -/
def damaged : World := { World.empty "/" with files :=
  { anchor := "/"
    entries := [(["data"], .directory), (["data", "default"], .directory),
      (["data", "default", "catalog.json"], .file 0), (["data", "default", "a.tbl"], .file 1),
      (["data", "default", "b.tbl"], .file 2)]
    contents := [(0, Text.toBytes twoTables.render), (1, []), (2, [7])]
    fresh := 3 } }

def stopped : Engine := ⟨"default", false, false, ⟨["data"], []⟩, []⟩

/-- What becomes of the two tables. -/
def loadingDamaged : Except Fault Unit × Database × World :=
  Database.loading twoTables.database twoTables.tables ["data", "default"] damaged

theorem fst_loadingDamaged : loadingDamaged.1 = .error (.record (.unknownFlag 7 0)) := by
    decide +kernel

theorem openTables_loadingDamaged : loadingDamaged.2.2.metrics.openTables = 1 := by decide +kernel

theorem names_damaged : damaged.files.names ["data"] = ["default"] := by decide +kernel

theorem run_start_damaged : start.run (stopped, damaged) =
    (.error (.record (.unknownFlag 7 0)), (stopped, loadingDamaged.2.2)) := by
  have hanchor : damaged.files.find ["data"] = .ok (["data"], .directory) := by decide +kernel
  have hroom : damaged.files.find ["data", "default"] = .ok (["data", "default"], .directory) := by
    decide +kernel
  have hdata : damaged.files.ensureDirectory ["data"] = (.ok (), damaged.files) :=
    Files.ensureDirectory_of_find (by decide) hanchor
  have hdefault : damaged.files.ensureDirectory ["data", "default"] = (.ok (), damaged.files) :=
    Files.ensureDirectory_of_find (by decide) hroom
  have hfound : Registry.candidates ["data"] damaged.files = .ok [["data", "default"]] := by
    unfold Registry.candidates
    rw [names_damaged, List.map_cons, List.map_nil]
    rfl
  have hread : damaged.files.read (["data", "default"] ++ [Database.manifestName]) =
      .ok (Text.toBytes twoTables.render) := rfl
  have hload : Database.loading twoTables.database twoTables.tables ["data", "default"] damaged =
      (.error (.record (.unknownFlag 7 0)), loadingDamaged.2) :=
    Prod.ext fst_loadingDamaged rfl
  have hopen := Database.run_openIn_of_read (⟨["data"], []⟩ : Registry) hdefault
    (Files.isThere_of_read hread) hread (Manifest.ofBytes_render _) hload
  exact run_start_of_error rfl hdata hfound
    (run_discoverIn_of_error hread (Manifest.ofBytes_render _) rfl hopen)

theorem start_tallied_damaged : stopped.started = false ∧ stopped.seeds = false ∧
    ∃ f e' w', start.run (stopped, damaged) = (.error f, (e', w')) ∧ e'.started = false ∧
      ∃ events, w'.events = events ++ damaged.events ∧
        w'.metrics.openTables = damaged.metrics.openTables + openings events := by
  obtain ⟨hstarted, htallied⟩ := start_tallied rfl rfl run_start_damaged
  refine ⟨rfl, rfl, _, _, _, run_start_damaged, ?_, htallied⟩
  exact Bool.eq_false_iff.mpr fun h => nomatch hstarted.mp h

/-- The first of the two tables stays open, though no database has been opened. -/
theorem start_leaves_open : damaged.metrics.openTables = 0 ∧
    ∃ w', start.run (stopped, damaged) = (.error (.record (.unknownFlag 7 0)), (stopped, w')) ∧
      w'.metrics.openTables = 1 :=
  ⟨rfl, _, run_start_damaged, openTables_loadingDamaged⟩

end Engine
end Tabulary
