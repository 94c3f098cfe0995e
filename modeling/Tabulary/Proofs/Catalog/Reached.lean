import Tabulary.Execution
import Tabulary.Proofs.Catalog.Loading
import Tabulary.Proofs.Catalog.ManifestText
import Tabulary.Proofs.Catalog.Table
import Tabulary.Proofs.Store.Opening

/-!
Databases that are opened and worked on, whatever happens to the files in the meantime.  Main
statement: each table of such a database has the file of its name in the directory of the database
(`Database.Reached.housed`).
-/

namespace Tabulary

open Attempt

variable {α : Type} {p : Path} {ts : Tables} {d : Database} {table : String}

/-! ## Tables -/

namespace Tables

/-- Each table has the file of its name in a directory. -/
def Housed (p : Path) (ts : Tables) : Prop := ∀ t ∈ ts, t.2.path = p ++ [Name.tableFile t.1]

/-- Work that leaves each table the file of its name. -/
abbrev Settled (p : Path) (x : Work Tables α) : Prop :=
  Triple (fun y => Housed p y.1) x (fun _ y => Housed p y.1) fun y => Housed p y.1

theorem Housed.of_lookup (h : Housed p ts) {st : Store} (hst : ts.lookup table = some st) :
    st.path = p ++ [Name.tableFile table] := by
  obtain ⟨xs, ys, heq, -⟩ := List.lookup_eq_some_iff.mp hst
  refine h (table, st) ?_
  rw [heq]
  simp

theorem Housed.set (h : Housed p ts) {st : Store} (hst : st.path = p ++ [Name.tableFile table]) :
    Housed p (Keyed.set table st ts) := by
  intro t ht
  rcases Keyed.mem_set ht with rfl | ht
  · exact hst
  · exact h t ht

theorem Housed.erase (h : Housed p ts) (table : String) : Housed p (Keyed.erase table ts) :=
  fun t ht => h t (List.mem_of_mem_filter ht)

theorem settled_on (table : String) {x : Work Store α} (hx : Keeps Store.place x) :
    Settled p (on table x) := by
  rintro ⟨ts, w⟩ hts
  cases hst : ts.lookup table with
  | none =>
    have hrun : (on table x).run (ts, w) = (.error (.engine (.noTable table)), (ts, w)) :=
      run_bind_of_error (run_get_none hst)
    rw [hrun]
    exact hts
  | some st =>
    have hplace := hx (st, w)
    rw [run_on hst]
    generalize x.run (st, w) = ending at hplace ⊢
    obtain ⟨result, st', w'⟩ := ending
    have hset : Housed p (Keyed.set table st' ts) := hts.set (hplace.trans (hts.of_lookup hst))
    cases result with
    | ok a => exact hset
    | error e => exact hset

theorem settled_onEach {x : Work Store Unit} (hx : Keeps Store.place x) : Settled p (onEach x) :=
  Work.triple_state fun _ =>
    (triple_forM (P := fun y : Tables × World => Housed p y.1)
      (fun table => settled_on table hx) _).mono (fun _ h => h.2) (fun _ _ h => h) fun _ h => h

end Tables

/-! ## Databases -/

namespace Database

/-- What can be asked of a database. -/
inductive Operation where
  | createTable (schema : Schema)
  | dropTable (table : String)
  | onTable (table : String) (op : Tabulary.Operation)
  | close
  | destroy

def Operation.run : Operation → Work Database Unit
  | createTable schema => Database.createTable schema
  | dropTable table => Database.dropTable table
  | onTable table op => do let _ ← Database.onTable table op.run
  | close => Database.close
  | destroy => Database.destroy

/-- A manifest in a directory, if there is one, lists each table with the file of its name. -/
def ListsOwn (directory : Path) (fs : Files) : Prop :=
  ∀ bytes m, fs.read (directory ++ [manifestName]) = .ok bytes →
    Manifest.ofBytes bytes = .ok m → ∀ t ∈ m.tables, t.file = Name.tableFile t.name

theorem listsOwn_of_error {directory : Path} {fs : Files} {e : Fault}
    (h : fs.read (directory ++ [manifestName]) = .error e) : ListsOwn directory fs := by
  intro bytes m hread
  rw [h] at hread
  cases hread

/-- A database that was opened and then worked on.  Every step may find the files changed since the
last one. -/
inductive Reached : Database → Prop
  | opened {ρ : Type} {y y' : ρ} {name : String} {directory : Path} {d : Database} {w w' : World}
      (hown : ListsOwn directory (w.files.ensureDirectory directory).2)
      (hrun : (openIn name directory : Work ρ Database).run (y, w) = (.ok d, (y', w'))) : Reached d
  | worked {d d' : Database} {w w' : World} {r : Except Fault Unit} (op : Operation)
      (hd : Reached d) (hrun : op.run.run (d, w) = (r, (d', w'))) : Reached d'

/-- Each table has the file of its name in the directory of the database. -/
def Housed (d : Database) : Prop := d.tables.Housed d.directory

/-- Work that leaves each table the file of its name. -/
abbrev Settled (x : Work Database α) : Prop :=
  Triple (fun y => Housed y.1) x (fun _ y => Housed y.1) fun y => Housed y.1

theorem settled_of_keeps {x : Work Database α} (hx : Keeps (·.1) x) : Settled x :=
  hx.triple (I := Housed)

theorem settled_onTables {x : Work Tables α} (hx : ∀ p, Tables.Settled p x) :
    Settled (onTables x) := by
  rintro ⟨d, w⟩ hd
  have hend := hx d.directory (d.tables, w) hd
  rw [run_onTables (Prod.eta _).symm]
  generalize x.run (d.tables, w) = ending at hend ⊢
  obtain ⟨result, ts, w'⟩ := ending
  cases result with
  | ok a => exact hend
  | error e => exact hend

theorem keeps_saveManifest : Keeps (·.1) saveManifest :=
  Keeps.bind (fun _ => rfl) fun _ => (Work.keeps_change _).bind fun _ => Work.keeps_change _

/-- The database is looked at. -/
theorem settled_state {f : Database → Work Database α} (hf : ∀ d, Housed d →
    Triple (fun y => y.1 = d) (f d) (fun _ y => Housed y.1) fun y => Housed y.1) :
    Settled (Work.state >>= f) := fun y hy => hf y.1 hy y rfl

theorem triple_setTables {E : Database × World → Prop} (d : Database) (ts : Tables) :
    Triple (fun y => y.1 = d) (setTables ts) (fun _ y => y.1 = { d with tables := ts }) E := by
  rintro ⟨_, w⟩ rfl
  rfl

theorem housed_of_keeps (hd : Housed d) {x : Work Database α} (hx : Keeps (·.1) x) :
    Triple (fun y => y.1 = d) x (fun _ y => Housed y.1) fun y => Housed y.1 :=
  (settled_of_keeps hx).mono (fun _ h => h ▸ hd) (fun _ _ h => h) fun _ h => h

/-- When the manifest could not be written, the new table is forgotten and its file removed. -/
def takeBack (d : Database) (s : Store) (e : Fault) : Work Database Unit := do
  if e.isFileFailure then
    setTables d.tables
    let (result, _) ← Work.beside s Store.drop
    Attempt.ofExcept result
  throw e

/-- A table's file is opened and the table entered into the manifest, or all of it is taken back. -/
def enter (d : Database) (schema : Schema) : Work Database Unit := do
  let s ← Store.openFile schema (d.directory ++ [Name.tableFile schema.name])
  setTables (Keyed.set schema.name s d.tables)
  tryCatch saveManifest (takeBack d s)
  Work.log .info "table_created"
    [("database", .text d.name), ("table", .text schema.name),
      ("columns", .array (schema.columnNames.map .text))]

/-- A file left over at the place of a table is discarded. -/
def discard (d : Database) (schema : Schema) : Work Database Unit := do
  let path := d.directory ++ [Name.tableFile schema.name]
  if ← Work.query fun fs => fs.isThere path then
    Work.log .warning "stale_table_file_removed"
      [("database", .text d.name), ("path", .text (← Work.pathText path))]
    Work.change fun fs => fs.remove path

/-- Whether the name of a table and its file are free. -/
def checkNew (d : Database) (schema : Schema) : Except Fault Unit :=
  if (d.tables.lookup schema.name).isSome then .error (.engine (.tableExists schema.name))
  else if !Name.isStorable (Name.sanitize schema.name) then .error
    (.engine (.schema (.tableName schema.name)))
  else match d.tables.find? fun t => t.2.path = d.directory ++ [Name.tableFile schema.name] with
    | some other => .error (.engine (.schema (.fileCollision schema.name other.2.schema.name)))
    | none => .ok ()

theorem createTable_eq (schema : Schema) : createTable schema = (do
    let d ← Work.state
    Attempt.ofExcept (d.checkNew schema)
    discard d schema
    enter d schema) := by
  refine congrArg (Work.state >>= ·) (funext fun d => ?_)
  unfold checkNew
  dsimp only
  split
  · rfl
  split
  · rfl
  generalize d.tables.find? (fun t => t.2.path = d.directory ++ [Name.tableFile schema.name]) =
    found
  cases found with
  | some other => rfl
  | none =>
  unfold discard
  rw [bind_assoc]
  refine congrArg (Work.query _ >>= ·) (funext fun there => ?_)
  cases there
  · rfl
  · simp only [if_true, bind_assoc]
    rfl

theorem run_createTable_of_rejected {d : Database} {w : World} {schema : Schema} {e : Fault}
    (h : d.checkNew schema = .error e) : (createTable schema).run (d, w) = (.error e, (d, w)) := by
  rw [createTable_eq, run_bind_of_ok (Work.run_state _), h]
  rfl

theorem run_createTable_of_new {d : Database} {w : World} {schema : Schema}
    (h : d.checkNew schema = .ok ()) :
    (createTable schema).run (d, w) = (do discard d schema; enter d schema : Work Database Unit).run
    (d, w) := by
  rw [createTable_eq, run_bind_of_ok (Work.run_state _), h]
  exact run_bind_of_ok (run_ofExcept _ _)

theorem keeps_discard (d : Database) (schema : Schema) : Keeps (·.1) (discard d schema) := by
  refine Keeps.bind (fun _ => rfl) fun there => ?_
  split
  · exact Keeps.bind (fun _ => rfl) fun _ => Keeps.bind (fun _ => rfl) fun _ => Work.keeps_change _
  · exact keeps_pure _

theorem housed_takeBack (hd : Housed d) {d' : Database} (hd' : Housed d')
    (hback : { d' with tables := d.tables } = d) (st : Store) (e : Fault) :
    Triple (fun y => y.1 = d') (takeBack d st e) (fun _ y => Housed y.1) fun y => Housed y.1 := by
  unfold takeBack
  dsimp only
  split
  · refine (triple_setTables d' d.tables).bind fun _ => ?_
    rw [hback]
    refine housed_of_keeps hd (Keeps.bind (fun _ => rfl) fun _ => ?_)
    exact (keeps_ofExcept _).bind fun _ => keeps_throw _
  · exact housed_of_keeps hd' (keeps_throw _)

/-- A table is opened in the file of its name, and joins the others. -/
theorem housed_join (hd : Housed d) (schema : Schema) {path : Path}
    (hpath : path = d.directory ++ [Name.tableFile table]) {rest : Store → Work Database Unit}
    (hrest : ∀ st, Housed { d with tables := Keyed.set table st d.tables } →
      Triple (fun y => y.1 = { d with tables := Keyed.set table st d.tables }) (rest st)
        (fun _ y => Housed y.1) fun y => Housed y.1) :
    Triple (fun y => y.1 = d)
      (Store.openFile schema path >>= fun st => setTables (Keyed.set table st d.tables) >>=
        fun _ => rest st)
      (fun _ y => Housed y.1) fun y => Housed y.1 := by
  have hopen : Triple (fun y => y.1 = d) (Store.openFile schema path)
      (fun st y => st.path = path ∧ y.1 = d) fun y => Housed y.1 :=
    (Store.triple_openFile schema path d).mono (fun _ h => h) (fun _ _ h => h) fun _ h => h ▸ hd
  refine hopen.bind fun st => ?_
  rintro y ⟨hplace, hy⟩
  have hd' : Housed { d with tables := Keyed.set table st d.tables } :=
    Tables.Housed.set hd (hplace.trans hpath)
  exact (triple_setTables d _).bind (fun _ => hrest st hd') y hy

theorem housed_enter (hd : Housed d) (schema : Schema) :
    Triple (fun y => y.1 = d) (enter d schema) (fun _ y => Housed y.1) fun y => Housed y.1 := by
  refine housed_join hd schema rfl fun st hd' => ?_
  have hlog (level : Level) (name : String) (fields : List (String × Json)) :
      Settled (Work.log level name fields) := fun _ h => h
  refine Triple.bind (Q := fun _ y => Housed y.1) ?_ fun _ => hlog _ _ _
  refine Triple.tryCatch ?_ fun e => housed_takeBack hd hd' rfl st e
  exact (keeps_saveManifest.triple (I := (· = _))).mono (fun _ h => h)
    (fun _ _ h => h ▸ hd') fun _ h => h

theorem settled_createTable (schema : Schema) : Settled (createTable schema) := by
  rw [createTable_eq]
  refine settled_state fun d hd => ?_
  have hcheck : Keeps (·.1)
      (do Attempt.ofExcept (d.checkNew schema); discard d schema : Work Database Unit) :=
    (keeps_ofExcept _).bind fun _ => keeps_discard d schema
  rw [← bind_assoc]
  refine Triple.bind (Q := fun _ y => y.1 = d) ?_ fun _ => housed_enter hd schema
  exact (hcheck.triple (I := (· = d))).mono (fun _ h => h) (fun _ _ h => h) fun _ h => h ▸ hd

theorem settled_dropTable (table : String) : Settled (dropTable table) := by
  refine settled_state fun d hd => ?_
  split
  · exact housed_of_keeps hd (keeps_throw _)
  · rename_i st hst
    refine (triple_setTables d _).bind fun _ => ?_
    have herase : Housed { d with tables := Keyed.erase table d.tables } := hd.erase table
    refine housed_of_keeps herase (keeps_saveManifest.bind fun _ => ?_)
    exact Keeps.bind (fun _ => rfl) fun _ => (keeps_ofExcept _).bind fun _ _ => rfl

theorem settled_close : Settled close := settled_onTables fun _ =>
    Tables.settled_onEach Store.place_close

theorem settled_destroy : Settled destroy := by
  refine Triple.bind (settled_onTables fun _ => Tables.settled_onEach Store.place_drop) fun _ => ?_
  refine Triple.bind (Q := fun _ y => Housed y.1) (fun _ _ => nofun) fun _ => ?_
  exact settled_of_keeps (Keeps.bind (fun _ => rfl) fun _ => Work.keeps_change _)

theorem settled_run (op : Operation) : Settled op.run := by
  cases op with
  | createTable schema => exact settled_createTable schema
  | dropTable table => exact settled_dropTable table
  | onTable table op =>
    refine Triple.bind (settled_onTables fun _ => ?_) fun _ => triple_pure fun _ h => h
    exact Tables.settled_on table (Store.place_run op)
  | close => exact settled_close
  | destroy => exact settled_destroy

theorem settled_loadTable {t : Manifest.Table} (ht : t.file = Name.tableFile t.name) :
    Settled (loadTable t) := by
  refine Triple.bind (settled_of_keeps (keeps_ofExcept _)) fun schema => settled_state fun d hd =>
    ?_
  rw [ht, Work.query_locate]
  exact housed_join hd schema rfl fun st hd' => housed_of_keeps hd' fun _ => rfl

theorem settled_loadTables {tables : List Manifest.Table}
    (h : ∀ t ∈ tables, t.file = Name.tableFile t.name) : Settled (tables.forM loadTable) := by
  induction tables with
  | nil => exact triple_pure fun _ h => h
  | cons t tables ih =>
    refine Triple.bind (settled_loadTable (h t List.mem_cons_self)) fun _ => ?_
    exact ih fun t ht => h t (List.mem_cons_of_mem _ ht)

theorem triple_loadManifest (hd : Housed d) {fs : Files} (hown : ListsOwn d.directory fs) :
    Triple (fun y => y.1 = d ∧ y.2.files = fs) loadManifest (fun _ y => Housed y.1) fun y =>
    Housed y.1 := by
  rintro ⟨d, w⟩ ⟨rfl, rfl⟩
  unfold loadManifest
  rw [run_bind_of_ok (Work.run_state _), run_bind, Work.run_query]
  cases hread : w.files.read d.manifestPath with
  | error e => exact hd
  | ok bytes =>
    dsimp only
    rw [run_bind, run_ofExcept]
    cases hm : Manifest.ofBytes bytes with
    | error e => exact hd
    | ok m => exact settled_loadTables (hown bytes m hread hm) (d, w) hd

/-- What it is to open a database: its directory is made, and the manifest in it is loaded or a new
one is written. -/
theorem openIn_ok {y y' : σ} {name : String} {directory : Path} {w w' : World}
    (hrun : (openIn name directory : Work σ Database).run (y, w) = (.ok d, (y', w'))) :
    ∃ fs known, w.files.ensureDirectory directory = (.ok (), fs) ∧
      fs.isThere (directory ++ [manifestName]) = .ok known ∧ y' = y ∧
      (if known then loadManifest else saveManifest).run
        (⟨name, directory, [], w.opened⟩, { w with files := fs, opened := w.opened + 1 }) =
        (.ok (), (d, w')) := by
  unfold openIn at hrun
  rw [run_bind, Work.run_ensureDirectory] at hrun
  generalize hmake : w.files.ensureDirectory directory = made at hrun
  obtain ⟨result, fs⟩ := made
  cases result with
  | error e => cases hrun
  | ok _ =>
    let d₀ : Database := ⟨name, directory, [], w.opened⟩
    let w₁ : World := { w with files := fs, opened := w.opened + 1 }
    replace hrun : (do
        let known ← Work.query fun fs => fs.isThere (directory ++ [manifestName])
        let ending ← Work.beside d₀ (if known then loadManifest else saveManifest)
        Attempt.ofExcept ending.1
        return ending.2 : Work σ Database).run (y, w₁) = (.ok d, (y', w')) := hrun
    rw [run_bind, Work.run_query] at hrun
    dsimp only at hrun
    cases hknown : fs.isThere (directory ++ [manifestName]) with
    | error e =>
      rw [hknown] at hrun
      cases hrun
    | ok known =>
      rw [hknown] at hrun
      dsimp only at hrun
      refine ⟨fs, known, rfl, hknown, ?_⟩
      rw [run_bind_of_ok (Work.run_beside _ _ _)] at hrun
      dsimp only at hrun
      generalize (if known then loadManifest else saveManifest).run (d₀, w₁) =
        ending at hrun ⊢
      obtain ⟨result, d₁, w₂⟩ := ending
      cases result with
      | error e => cases hrun
      | ok _ =>
        cases hrun
        exact ⟨rfl, rfl⟩

/-- A database that is opened has its tables where the manifest says. -/
theorem housed_openIn {y y' : σ} {name : String} {directory : Path} {w w' : World}
    (hown : ListsOwn directory (w.files.ensureDirectory directory).2)
    (hrun : (openIn name directory : Work σ Database).run (y, w) = (.ok d, (y', w'))) :
    Housed d := by
  obtain ⟨fs, known, hmake, -, -, hload⟩ := openIn_ok hrun
  rw [hmake] at hown
  have hnone : Housed ⟨name, directory, [], w.opened⟩ := fun _ => nofun
  let w₁ : World := { w with files := fs, opened := w.opened + 1 }
  cases known with
  | true =>
    have hend := triple_loadManifest hnone hown (_, w₁) ⟨rfl, rfl⟩
    rw [if_pos rfl] at hload
    rw [hload] at hend
    exact hend
  | false =>
    have hend := settled_of_keeps keeps_saveManifest (_, w₁) hnone
    rw [if_neg Bool.false_ne_true] at hload
    rw [hload] at hend
    exact hend

/-- However a database has come about, its tables have the files of their names. -/
theorem Reached.housed (h : Reached d) : Housed d := by
  induction h with
  | opened hown hrun => exact housed_openIn hown hrun
  | @worked d d' w w' r op _ hrun ih =>
    have hend := settled_run op (d, w) ih
    rw [hrun] at hend
    cases r with
    | ok _ => exact hend
    | error e => exact hend

end Database
end Tabulary
