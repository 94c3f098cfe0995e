import Tabulary.Proofs.Catalog.Course
import Tabulary.Proofs.Table.Stage

/-!
Databases in a data directory in order.  Whatever is asked of one, its tables keep a file each, that
of their name, and the manifests stay in order.  Work on rows and the loading of tables is quiet; a
manifest is written where tables are added or removed.
-/

namespace Tabulary

open Attempt Files Work

variable {base root : Path} {directory name : String}

theorem Table.schema_of_add {t : Table} {r : Row} {c : Change} (h : t.add r = .ok c) :
    c.table.schema = t.schema := by
  unfold Table.add at h
  simp only [bind, Except.bind] at h
  split at h
  · cases h
  · split at h
    · cases h
    · split at h
      · cases h
      · cases h
        rfl

/-! ## Stores -/

namespace Store

/-- A store of the table of a name, with no file open but one of rows. -/
structure Kept (base root : Path) (directory name : String) (st : Store) (fs : Files) : Prop where
  path : st.path = base ++ [directory, Name.tableFile name]
  named : st.schema.name = name
  loose : ∀ h ∈ st.handle, Loose root directory fs h.node

theorem Kept.along {R : Files → Files → Prop} (hc : Course base root R) {st : Store}
    {fs fs' : Files} (h : Kept base root directory name st fs) (hR : R fs fs') :
    Kept base root directory name st fs' :=
  ⟨h.path, h.named, fun handle hh => hc.loose hR (h.loose handle hh)⟩

variable {R : Files → Files → Prop}

theorem meets_ensureOpen : Meets base root R (Kept base root directory name) ensureOpen
    (fun h st fs => Kept base root directory name st fs ∧ Loose root directory fs h.node)
    (Kept base root directory name) := by
  intro fs₀ _ y h
  unfold ensureOpen
  rw [run_bind_of_ok (Work.run_state _)]
  dsimp only
  by_cases hdropped : y.1.dropped = true
  · rw [if_pos hdropped]
    exact h
  · rw [if_neg hdropped]
    cases hhandle : y.1.handle with
    | none => exact h
    | some handle => exact ⟨h.1, h.2, h.2.loose handle hhandle⟩

/-- What is left of a store while its open file is at hand. -/
abbrev Holding (base root : Path) (directory name : String) (h : Handle) (st : Store) (fs : Files) :
    Prop := Kept base root directory name st fs ∧ Loose root directory fs h.node

theorem meets_log {P E : Store → Files → Prop} (level : Level) (name : String)
    (fields : List (String × Json)) : Meets base root R P (log level name fields) (fun _ => P) E :=
  fun _ _ _ hy => hy

theorem meets_fileBytes {P E : Store → Files → Prop} (h : Handle) :
    Meets base root R P (fileBytes h) (fun _ => P) E := fun _ _ _ hy => hy

theorem meets_setHandle {E : Store → Files → Prop} {h h' : Handle} (hnode : h'.node = h.node) :
    Meets base root R (Holding base root directory name h) (setHandle h')
      (fun _ => Holding base root directory name h) E := by
  rintro fs₀ _ y ⟨hR, hkept, hloose⟩
  refine ⟨hR, ⟨hkept.path, hkept.named, fun g hg => ?_⟩, hloose⟩
  obtain rfl : h' = g := Option.some.inj hg
  rw [hnode]
  exact hloose

/-- What is written stands in the open file. -/
theorem meets_writeFile {E : Store → Files → Prop} (hd : directory ≠ "..") (h : Handle)
    (bytes : Bytes) :
    Meets base root (Quiet root directory) (Holding base root directory name h) (writeFile h bytes)
      (fun _ => Holding base root directory name h) E := by
  refine Meets.bind (Q := fun _ => Holding base root directory name h) ?_
    fun _ => meets_setHandle rfl
  rintro fs₀ ht y ⟨hR, hkept, hloose⟩
  have hc : Course base root (Quiet root directory) := course_quiet hd
  have hquiet := quiet_setNode (hc.tidy hR ht).sane hloose bytes
  exact ⟨hR.trans hquiet, hkept.along hc hquiet, hquiet.loose hloose⟩

/-- The table of a store is replaced by another one of its schema. -/
theorem Kept.setTable {st : Store} {fs : Files} (h : Kept base root directory name st fs)
    {t : Table}
    (ht : t.schema.name = name) : Kept base root directory name { st with table := t } fs :=
  ⟨h.path, ht, h.loose⟩

theorem upholds_rebuild (hd : directory ≠ "..") :
    Upholds base root (Quiet root directory) (Kept base root directory name) rebuild := by
  refine meets_ensureOpen.bind fun h => ?_
  refine meets_state_bind (fun s _ hs => hs.1.named) fun s hnamed => ?_
  refine (meets_fileBytes h).bind fun file => ?_
  dsimp only
  split
  · refine (meets_setHandle (node_advance h _ _ _)).bind fun _ => ?_
    exact meets_throw fun _ _ h => h.1
  · refine (meets_setHandle (rfl : h.discard.node = h.node)).bind fun _ => ?_
    refine (meets_pathText s.path).bind fun path => ?_
    refine meets_ite (fun hrest => (meets_log _ _ _).bind fun _ =>
      (meets_writeFile hd h _).bind fun _ => hrest) ?_
    exact meets_update (fun _ _ hs => hs.1.setTable hnamed) (meets_log _ _ _)

theorem upholds_insert (hd : directory ≠ "..") (r : Row) :
    Upholds base root (Quiet root directory) (Kept base root directory name) (insert r) := by
  refine meets_state_bind (fun _ _ _ => trivial) fun s _ => (upholds_ofExcept _).bind fun _ => ?_
  refine meets_ensureOpen.bind fun h => ?_
  refine meets_state_bind (fun s _ hs => hs.1.named) fun s hnamed => ?_
  refine ((meets_ofExcept _).failing fun _ _ h => h.1).bind fun c => ?_
  refine Meets.of_fact (fun _ _ hs => hs.1) fun hadd => ?_
  have hschema : c.table.schema.name = name := by
    rw [Table.schema_of_add hadd]
    exact hnamed
  refine Meets.bind (Q := fun _ => Kept base root directory name) ?_ fun _ => fun _ _ _ hy => hy
  refine (meets_fileBytes h).bind fun file => ?_
  refine Meets.bind (Q := fun _ => Holding base root directory name h) ?_
    fun _ => fun _ _ _ hy => ⟨hy.1, hy.2.1.setTable hschema⟩
  exact (meets_writeFile hd h _).given fun _ _ hs => hs.2

theorem upholds_close : Upholds base root R (Kept base root directory name) close := by
  intro fs₀ _ y h
  unfold close closeWith
  rw [run_bind_of_ok (Work.run_state _)]
  cases hhandle : y.1.handle with
  | none => exact h
  | some handle => exact ⟨h.1, h.2.path, h.2.named, nofun⟩

theorem upholds_drop (hd : directory ≠ "..") :
    Upholds base root (Quiet root directory) (Kept base root directory name) drop := by
  have hc : Course base root (Quiet root directory) := course_quiet hd
  refine meets_state_bind (fun s _ hs => And.intro hs.path hs.named) fun s hs => ?_
  dsimp only
  split
  · exact meets_throw fun _ _ h => h
  · refine upholds_close.bind fun _ => ?_
    refine Meets.bind (Q := fun _ => Kept base root directory name) ?_
      fun _ => fun _ _ _ hy => ⟨hy.1, hy.2.path, hs.2, hy.2.loose⟩
    refine meets_change hc fun st fs fs' ht hkept hgone => ?_
    rw [hs.1] at hgone
    have hquiet := ht.quiet_removeIfThere hd hgone
    exact ⟨hquiet, hkept.along hc hquiet⟩

/-- The file of a table is opened, and made before if it is not there. -/
theorem meets_openFile {σ : Type} {P : σ → Files → Prop} (hd : directory ≠ "..")
    (hP : Lasts (Quiet root directory) P) {schema : Schema}
    (hnamed : schema.name = name) :
    Meets base root (Quiet root directory) P
      (openFile schema (base ++ [directory, Name.tableFile name]) : Work σ Store)
      (fun st s fs => P s fs ∧ Kept base root directory name st fs) P := by
  have hc : Course base root (Quiet root directory) := course_quiet hd
  have hfront : (base ++ [directory, Name.tableFile name]).dropLast = base ++ [directory] := by
    rw [List.dropLast_append_of_ne_nil (by simp)]
    rfl
  unfold openFile
  rw [hfront]
  refine Meets.bind (upholds_ensureDirectory hc fun s fs ht hs => ?_) fun _ => ?_
  · have hquiet := ht.quiet_ensureDirectory hd
    exact ⟨hquiet, hP _ _ _ hquiet hs⟩
  refine (upholds_query hc _).bind fun there =>
    meets_ite (fun hrest => Meets.bind ?_ fun _ => hrest) ?_
  · refine meets_change hc fun s fs fs' ht hs hmake => ?_
    cases hmade : fs.create (base ++ [directory, Name.tableFile name]) with
    | error e =>
      rw [hmade] at hmake
      cases hmake
    | ok made =>
      have hquiet : Quiet root directory fs made.2 := ht.quiet_create hd hmade
      rw [hmade] at hmake
      cases hmake
      exact ⟨hquiet, hP _ _ _ hquiet hs⟩
  · have hopened : Meets base root (Quiet root directory) P
        (query fun fs => fs.openFile (base ++ [directory, Name.tableFile name]) : Work σ Nat)
        (fun node s fs => P s fs ∧ Loose root directory fs node) P :=
      (meets_query hc _).giving fun _ _ _ h => ⟨h.2, h.1.2.loose_openFile hd h.1.1⟩
    refine hopened.bind fun node => (meets_addOpenTables 1).bind fun _ => ?_
    have hopening : ∀ s fs, P s fs ∧ Loose root directory fs node →
        Kept base root directory name
          ⟨Table.empty schema, base ++ [directory, Name.tableFile name],
            some ⟨node, none⟩, false⟩
          fs := by
      rintro s fs ⟨-, hloose⟩
      refine ⟨rfl, hnamed, fun h hh => ?_⟩
      obtain rfl : (⟨node, none⟩ : Handle) = h := Option.some.inj hh
      exact hloose
    refine (meets_beside hc (fun s fs fs' hR hs => ⟨hP _ _ _ hR hs.1, hR.loose hs.2⟩) hopening
      (upholds_rebuild hd)).bind fun ending => ?_
    obtain ⟨result, st⟩ := ending
    cases result with
    | ok _ => exact meets_pure fun _ _ h => ⟨h.1.1, h.2⟩
    | error e =>
      refine (meets_addOpenTables (-1)).bind fun _ => ?_
      exact meets_throw fun _ _ h => h.1.1

end Store

/-! ## Tables -/

namespace Tables

/-- The stores of tables whose names stand for different files. -/
structure Kept (base root : Path) (directory : String) (ts : Tables) (fs : Files) : Prop where
  apart : Name.Apart ts
  stores : ∀ t ∈ ts, Store.Kept base root directory t.1 t.2 fs

variable {R : Files → Files → Prop} {ts : Tables} {fs fs' : Files} {α : Type}

theorem kept_nil : Kept base root directory [] fs := ⟨List.nodup_nil, nofun⟩

theorem Kept.along (hc : Course base root R) (h : Kept base root directory ts fs) (hR : R fs fs') :
    Kept base root directory ts fs' :=
  ⟨h.apart, fun t ht => (h.stores t ht).along hc hR⟩

theorem Kept.of_lookup (h : Kept base root directory ts fs) {table : String} {st : Store}
    (hst : ts.lookup table = some st) : Store.Kept base root directory table st fs := by
  obtain ⟨xs, ys, rfl, -⟩ := List.lookup_eq_some_iff.mp hst
  exact h.stores (table, st) (by simp)

/-- One more table, of another file. -/
theorem Kept.concat (h : Kept base root directory ts fs) {st : Store}
    (hnew : ∀ other ∈ Keyed.keys ts, Name.sanitize other ≠ Name.sanitize name)
    (hst : Store.Kept base root directory name st fs) :
    Kept base root directory (ts ++ [(name, st)]) fs where
  apart := h.apart.concat hnew
  stores t ht := by
    rcases List.mem_append.mp ht with ht | ht
    · exact h.stores t ht
    · rw [List.mem_singleton.mp ht]
      exact hst

theorem Kept.erase (h : Kept base root directory ts fs) (table : String) :
    Kept base root directory (Keyed.erase table ts) fs where
  apart := h.apart.erase table
  stores t ht := h.stores t (List.mem_of_mem_filter ht)

theorem Kept.set (h : Kept base root directory ts fs) {table : String}
    (hmem : table ∈ Keyed.keys ts) {st : Store}
    (hst : Store.Kept base root directory table st fs) :
    Kept base root directory (Keyed.set table st ts) fs where
  apart := by
    unfold Name.Apart
    rw [Keyed.keys_set_of_mem hmem]
    exact h.apart
  stores t ht := by
    rcases Keyed.mem_set ht with rfl | ht
    · exact hst
    · exact h.stores t ht

/-- No two tables have the same file. -/
theorem Kept.paths_nodup (h : Kept base root directory ts fs) :
    (ts.map fun t => t.2.path).Nodup := by
  have hpaths : ts.map (fun t => t.2.path) =
      ts.map fun t => base ++ [directory, Name.tableFile t.1] :=
    List.map_congr_left fun t ht => (h.stores t ht).path
  have hnames : ((Keyed.keys ts).map Name.sanitize).Nodup := h.apart
  rw [Keyed.keys, List.map_map] at hnames
  rw [hpaths]
  refine List.pairwise_map.mpr ((List.pairwise_map.mp hnames).imp fun {a b} hne heq => hne ?_)
  have hfiles := List.append_cancel_left heq
  simp only [List.cons.injEq, and_true, true_and] at hfiles
  exact Name.tableFile_inj.mp hfiles

theorem upholds_on (hc : Course base root R) (table : String) {x : Work Store α}
    (hx : ∀ name, Upholds base root R (Store.Kept base root directory name) x) :
    Upholds base root R (Kept base root directory) (on table x) := by
  rintro fs₀ htidy ⟨ts, w⟩ ⟨hR, h⟩
  cases hst : ts.lookup table with
  | none =>
    have hrun : (on table x).run (ts, w) = (.error (.engine (.noTable table)), (ts, w)) :=
      run_bind_of_error (run_get_none hst)
    rw [hrun]
    exact ⟨hR, h⟩
  | some st =>
    have htidy' := hc.tidy hR htidy
    have hend := hx table w.files htidy' (st, w) ⟨hc.refl htidy', h.of_lookup hst⟩
    have hmem := Keyed.mem_keys_of_lookup hst
    rw [run_on hst]
    generalize x.run (st, w) = ending at hend ⊢
    obtain ⟨result, st', w'⟩ := ending
    cases result with
    | ok a => exact ⟨hc.trans hR hend.1, (h.along hc hend.1).set hmem hend.2⟩
    | error e => exact ⟨hc.trans hR hend.1, (h.along hc hend.1).set hmem hend.2⟩

theorem upholds_onEach (hc : Course base root R) {x : Work Store Unit}
    (hx : ∀ name, Upholds base root R (Store.Kept base root directory name) x) :
    Upholds base root R (Kept base root directory) (onEach x) :=
  meets_state_bind (fun _ _ _ => trivial) fun ts _ fs ht =>
    triple_forM (fun table => upholds_on hc table hx fs ht) (Keyed.keys ts)

end Tables

/-! ## Databases -/

namespace Database

/-- A database in its directory below the data directory. -/
structure Kept (base root : Path) (directory : String) (d : Database) (fs : Files) : Prop where
  located : d.directory = base ++ [directory]
  tables : Tables.Kept base root directory d.tables fs

variable {R : Files → Files → Prop} {d : Database} {fs fs' : Files} {σ α : Type}

theorem Kept.along (hc : Course base root R) (h : Kept base root directory d fs) (hR : R fs fs') :
    Kept base root directory d fs' := ⟨h.located, h.tables.along hc hR⟩

theorem path_eq (h : d.directory = base ++ [directory]) (file : String) :
    d.directory ++ [file] = base ++ [directory, file] := by
  rw [h, List.append_assoc]
  rfl

theorem upholds_onTables {x : Work Tables α}
    (hx : Upholds base root R (Tables.Kept base root directory) x) :
    Upholds base root R (Kept base root directory) (onTables x) := by
  rintro fs₀ ht ⟨d, w⟩ ⟨hR, h⟩
  have hend := hx fs₀ ht (d.tables, w) ⟨hR, h.tables⟩
  have hrun : (onTables x).run (d, w) = ((x.run (d.tables, w)).1,
      ({ d with tables := (x.run (d.tables, w)).2.1 }, (x.run (d.tables, w)).2.2)) := rfl
  rw [hrun]
  generalize x.run (d.tables, w) = ending at hend ⊢
  obtain ⟨result, ts, w'⟩ := ending
  cases result with
  | ok a => exact ⟨hend.1, h.located, hend.2⟩
  | error e => exact ⟨hend.1, h.located, hend.2⟩

theorem meets_setTables {P Q E : Database → Files → Prop} {ts : Tables}
    (h : ∀ d fs, P d fs → Q { d with tables := ts } fs) :
    Meets base root R P (setTables ts) (fun _ => Q) E :=
    fun _ _ y hy => ⟨hy.1, h y.1 y.2.files hy.2⟩

theorem Kept.withTables (h : Kept base root directory d fs) {ts : Tables}
    (hts : Tables.Kept base root directory ts fs) :
    Kept base root directory { d with tables := ts } fs := ⟨h.located, hts⟩

/-- What a database writes as its manifest is in order. -/
theorem Kept.neat (h : Kept base root directory d fs) : d.manifest.Neat where
  file t ht := by
    obtain ⟨x, -, rfl⟩ := List.mem_map.mp ht
    rfl
  apart := by
    have hnames : d.manifest.tables.map (·.name) = Keyed.keys d.tables := by
      rw [manifest, Keyed.keys, List.map_map]
      exact List.map_congr_left fun t ht => (h.tables.stores t ht).named
    rw [hnames]
    exact h.tables.apart

theorem upholds_saveManifest (hd : directory ≠ "..") :
    Upholds base root (Onward base root) (Kept base root directory) saveManifest := by
  have hc : Course base root (Onward base root) := course_onward
  refine meets_state_bind (fun d _ h => And.intro h.located h.neat) fun d hdatabase => ?_
  obtain ⟨hlocated, hneat⟩ := hdatabase
  have hdraft : d.draftPath = base ++ [directory, draftName] := path_eq hlocated draftName
  have hmanifest : d.manifestPath = base ++ [directory, manifestName] :=
    path_eq hlocated manifestName
  rw [hdraft, hmanifest]
  refine Meets.bind (Q := fun _ d fs => Kept base root directory d fs ∧
    ∃ node, fs.entry? (root ++ [directory, draftName]) = some (.file node)) ?_ fun _ => ?_
  · have hrender : ∀ m, Manifest.ofBytes (Text.toBytes d.manifest.render) =
      .ok m → m.Neat := by
      intro m hm
      rw [Manifest.ofBytes_render] at hm
      obtain rfl : d.manifest = m := Except.ok.inj hm
      exact hneat
    refine meets_change hc fun d' fs fs' ht h hwrite => ?_
    obtain ⟨honward, hnode⟩ := ht.onward_write hd hrender hwrite
    exact ⟨honward, h.along hc honward, hnode⟩
  · refine (meets_change hc fun d' fs fs' ht h hmove => ?_).failing fun _ _ h => h.1
    obtain ⟨hkept, node, hnode⟩ := h
    have honward := ht.onward_move hd hnode hmove
    exact ⟨honward, hkept.along hc honward⟩

/-- The database as it was, with files that may have changed. -/
abbrev Same (base root : Path) (directory : String) (d d' : Database) (fs : Files) : Prop :=
  d' = d ∧ Kept base root directory d' fs

theorem lasts_same (hc : Course base root R) (d : Database) :
    Lasts R (Same base root directory d) := fun _ _ _ hR h => ⟨h.1, h.2.along hc hR⟩

/-- A table joins those that are open. -/
theorem Kept.concat (h : Kept base root directory d fs) {st : Store}
    (hnew : ∀ other ∈ Keyed.keys d.tables, Name.sanitize other ≠ Name.sanitize name)
    (hst : Store.Kept base root directory name st fs) :
    Kept base root directory { d with tables := Keyed.set name st d.tables } fs := by
  rw [Keyed.set_of_not_mem fun hmem => hnew name hmem rfl]
  exact h.withTables (h.tables.concat hnew hst)

/-- A table of a manifest is opened. -/
theorem meets_loadTable (hd : directory ≠ "..") {names : List String} {t : Manifest.Table}
    (hfile : t.file = Name.tableFile t.name)
    (hnew : ∀ other ∈ names, Name.sanitize other ≠ Name.sanitize t.name) :
    Meets base root (Quiet root directory)
      (fun d fs => Kept base root directory d fs ∧ Keyed.keys d.tables = names)
      (loadTable t)
      (fun _ d fs => Kept base root directory d fs ∧ Keyed.keys d.tables = names ++ [t.name])
      (Kept base root directory) := by
  have hc : Course base root (Quiet root directory) := course_quiet hd
  refine ((meets_ofExcept _).failing fun _ _ h => h.1).bind fun schema => ?_
  refine Meets.of_fact (fun _ _ h => h.1) fun hschema => ?_
  have hnamed : schema.name = t.name := by
    cases hbuilt : t.toSchema with
    | error e =>
      rw [hbuilt] at hschema
      cases hschema
    | ok s =>
      rw [hbuilt] at hschema
      cases hschema
      exact (Schema.build_eq_ok hbuilt).1
  refine meets_state_eq fun d => ?_
  refine Meets.of_fact (φ := Keyed.keys d.tables = names)
      (fun _ _ h => h.1 ▸ h.2.2.2) fun hkeys =>
    ?_
  refine Meets.given (P := Same base root directory d) ?_ fun d' fs h => ⟨h.1, h.2.2.1⟩
  refine Meets.of_fact (φ := d.directory = base ++ [directory]) (fun _ _ h => h.1 ▸ h.2.located)
    fun hlocated => ?_
  rw [hfile, Work.query_locate, path_eq hlocated]
  rw [← hkeys] at hnew ⊢
  refine ((Store.meets_openFile hd (lasts_same hc d) hnamed).failing fun _ _ h => h.2).bind
    fun st => ?_
  refine Meets.bind (meets_setTables fun d' fs h => ?_) fun _ => meets_log _ _ _
  obtain ⟨⟨rfl, hkept⟩, hst⟩ := h
  refine ⟨hkept.concat hnew hst, ?_⟩
  show Keyed.keys (Keyed.set t.name st d'.tables) = _
  rw [Keyed.set_of_not_mem fun hmem => hnew t.name hmem rfl, Keyed.keys, List.map_append]
  rfl

/-- The tables of a manifest are opened one after another. -/
theorem meets_forM_loadTable (hd : directory ≠ "..") (names : List String)
    {ts : List Manifest.Table} (hfile : ∀ t ∈ ts, t.file = Name.tableFile t.name)
    (hapart : ((names ++ ts.map (·.name)).map Name.sanitize).Nodup) :
    Meets base root (Quiet root directory)
      (fun d fs => Kept base root directory d fs ∧ Keyed.keys d.tables = names)
      (ts.forM loadTable) (fun _ => Kept base root directory) (Kept base root directory) := by
  induction ts generalizing names with
  | nil => exact meets_pure fun _ _ h => h.1
  | cons t ts ih =>
    have hnew : ∀ other ∈ names, Name.sanitize other ≠ Name.sanitize t.name := by
      intro other hother
      rw [List.map_append] at hapart
      exact (List.nodup_append.mp hapart).2.2 _ (List.mem_map_of_mem hother) _ (by simp)
    have hsplit : names ++ (t :: ts).map (·.name) = (names ++ [t.name]) ++ ts.map (·.name) := by
      simp
    rw [hsplit] at hapart
    exact (meets_loadTable hd (hfile t List.mem_cons_self) hnew).bind fun _ =>
      ih _ (fun t ht => hfile t (List.mem_cons_of_mem _ ht)) hapart

/-- A database without tables gets those of the manifest in its directory. -/
theorem meets_loadManifest (hd : directory ≠ "..") :
    Meets base root (Quiet root directory)
      (fun d fs => Kept base root directory d fs ∧ Keyed.keys d.tables = []) loadManifest
      (fun _ => Kept base root directory) (Kept base root directory) := by
  have hc : Course base root (Quiet root directory) := course_quiet hd
  refine meets_state_bind (fun d _ h => h.1.located) fun d hlocated => ?_
  have hmanifest : d.manifestPath = base ++ [directory, manifestName] :=
    path_eq hlocated manifestName
  rw [hmanifest]
  refine ((meets_query hc _).failing fun _ _ h => h.1).bind fun bytes => ?_
  refine Meets.of_fact (fun _ _ h => h.1.2.neat_of_read hd h.1.1) fun hneat => ?_
  refine ((meets_ofExcept _).failing fun _ _ h => h.2.1).bind fun m => ?_
  refine Meets.of_fact (fun _ _ h => h.1) fun hm => ?_
  exact (meets_forM_loadTable hd [] (hneat m hm).file (hneat m hm).apart).given fun _ _ h => h.2.2

/-- A table whose file is that of no other one has a name of its own. -/
theorem Kept.new_of_find? (h : Kept base root directory d fs)
    (hfree : d.tables.find? (fun t => t.2.path = base ++ [directory, Name.tableFile name]) = none) :
    ∀ other ∈ Keyed.keys d.tables, Name.sanitize other ≠ Name.sanitize name := by
  intro other hother heq
  obtain ⟨t, ht, rfl⟩ := List.mem_map.mp hother
  refine List.find?_eq_none.mp hfree t ht (decide_eq_true ?_)
  rw [(h.tables.stores t ht).path, Name.tableFile_inj.mpr heq]

/-- A database, tables that it had and a store that it gives up. -/
structure Leaving (base root : Path) (directory name : String) (ts : Tables) (st : Store)
    (d : Database) (fs : Files) : Prop where
  kept : Kept base root directory d fs
  tables : Tables.Kept base root directory ts fs
  store : Store.Kept base root directory name st fs

theorem lasts_leaving (hc : Course base root R) (ts : Tables) (st : Store) :
    Lasts R (Leaving base root directory name ts st) :=
  fun _ _ _ hR h => ⟨h.kept.along hc hR, h.tables.along hc hR, h.store.along hc hR⟩

variable {ts : Tables} {st : Store}

theorem upholds_saveManifest_leaving (hd : directory ≠ "..") :
    Upholds base root (Onward base root) (Leaving base root directory name ts st) saveManifest := by
  have hc : Course base root (Onward base root) := course_onward
  have hframe := (upholds_saveManifest hd).frame hc
    (F := fun fs => Tables.Kept base root directory ts fs ∧
      Store.Kept base root directory name st fs)
    fun _ _ hR h => ⟨h.1.along hc hR, h.2.along hc hR⟩
  exact hframe.mono (fun _ _ h => ⟨h.kept, h.tables, h.store⟩)
    (fun _ _ _ h => ⟨h.1, h.2.1, h.2.2⟩) fun _ _ h => ⟨h.1, h.2.1, h.2.2⟩

/-- The file of a store that a database gives up is removed. -/
theorem meets_beside_drop {Q : Unit → Database → Files → Prop} {rest : Work Database Unit}
    (hd : directory ≠ "..")
    (hrest : Meets base root (Onward base root) (Leaving base root directory name ts st) rest Q
      (Kept base root directory)) :
    Meets base root (Onward base root) (Leaving base root directory name ts st)
      (do
        let (result, _) ← Work.beside st Store.drop
        Attempt.ofExcept result
        rest) Q (Kept base root directory) := by
  have hc : Course base root (Onward base root) := course_onward
  refine (meets_beside hc (lasts_leaving hc ts st) (fun _ _ h => h.store)
    ((Store.upholds_drop hd).onward hd)).bind fun ending => ?_
  refine Meets.bind ?_ fun _ => hrest
  exact ((upholds_ofExcept _).failing fun _ _ h => h.kept).given fun _ _ h => h.1

theorem upholds_createTable (hd : directory ≠ "..") (schema : Schema) :
    Upholds base root (Onward base root) (Kept base root directory) (createTable schema) := by
  have hc : Course base root (Onward base root) := course_onward
  refine meets_state_eq fun d => ?_
  refine Meets.of_fact (fun _ _ h => h.1 ▸ h.2.located) fun hlocated => ?_
  have hpath : d.directory ++ [Name.tableFile schema.name] =
      base ++ [directory, Name.tableFile schema.name] := path_eq hlocated _
  have hkept (d' : Database) (fs : Files) (h : Same base root directory d d' fs) :
      Kept base root directory d' fs := h.2
  dsimp only
  rw [hpath]
  split
  · exact meets_throw hkept
  split
  · exact meets_throw hkept
  split
  · exact meets_throw hkept
  rename_i hfree
  refine Meets.of_fact (fun _ _ h => (h.1 ▸ h.2).new_of_find? hfree) fun hnew => ?_
  -- Up to here the database is as it was, whatever is removed or made in its directory.
  have hthere (p : Path) : Upholds base root (Onward base root) (Same base root directory d)
      (query fun fs => fs.isThere p) := upholds_query hc _
  have hremove : Upholds base root (Onward base root) (Same base root directory d)
      (change fun fs => fs.remove (base ++ [directory, Name.tableFile schema.name])) := by
    refine meets_change hc fun d' fs fs' ht h hgone => ?_
    have honward := (ht.quiet_remove hd hgone).onward hd ht
    exact ⟨honward, lasts_same hc d _ _ _ honward h⟩
  refine ((hthere _).failing hkept).bind fun there => meets_ite (fun hadd => ?_) ?_
  · refine (meets_pathText _).bind fun path => (meets_log _ _ _).bind fun _ => ?_
    exact (hremove.failing hkept).bind fun _ => hadd
  have hopen : Meets base root (Onward base root) (Same base root directory d)
      (Store.openFile schema (base ++ [directory, Name.tableFile schema.name])) _
      (Same base root directory d) :=
    (Store.meets_openFile hd (lasts_same (course_quiet hd) d) rfl).onward hd
  refine (hopen.failing hkept).bind fun st => ?_
  refine Meets.bind (Q := fun _ => Leaving base root directory schema.name d.tables st)
    (meets_setTables fun d' fs h => ?_) fun _ => ?_
  · obtain ⟨⟨rfl, hdatabase⟩, hst⟩ := h
    exact ⟨hdatabase.concat hnew hst, hdatabase.tables, hst⟩
  refine Meets.bind (Q := fun _ => Kept base root directory) ?_ fun _ => meets_log _ _ _
  have hsave : Upholds base root (Onward base root)
      (Leaving base root directory schema.name d.tables st) saveManifest :=
    upholds_saveManifest_leaving hd
  refine (hsave.giving fun _ _ _ h => h.kept).tryCatch fun e =>
    meets_ite (fun hthrow => ?_) (meets_throw fun _ _ h => h.kept)
  -- The manifest could not be written: the tables are what they were, without the new one.
  refine Meets.bind (Q := fun _ => Leaving base root directory schema.name d.tables st)
    (meets_setTables fun d' fs h => ⟨h.kept.withTables h.tables, h.tables, h.store⟩) fun _ => ?_
  exact meets_beside_drop hd hthrow

theorem upholds_dropTable (hd : directory ≠ "..") (table : String) :
    Upholds base root (Onward base root) (Kept base root directory) (dropTable table) := by
  refine meets_state_eq fun d => ?_
  split
  · exact meets_throw fun _ _ h => h.2
  rename_i st hst
  refine Meets.bind (Q := fun _ => Leaving base root directory table d.tables st)
    (meets_setTables fun d' fs h => ?_) fun _ => ?_
  · obtain ⟨rfl, hkept⟩ := h
    exact ⟨hkept.withTables (hkept.tables.erase table), hkept.tables,
      hkept.tables.of_lookup hst⟩
  refine ((upholds_saveManifest_leaving hd).failing fun _ _ h => h.kept).bind fun _ => ?_
  exact meets_beside_drop hd ((meets_log _ _ _).given fun _ _ h => h.kept)

theorem upholds_close : Upholds base root (Onward base root) (Kept base root directory) close :=
  upholds_onTables (Tables.upholds_onEach course_onward fun _ => Store.upholds_close)

theorem upholds_destroy (hd : directory ≠ "..") :
    Upholds base root (Onward base root) (Kept base root directory) destroy := by
  have hc : Course base root (Onward base root) := course_onward
  have hdrop (name : String) :
      Upholds base root (Onward base root) (Store.Kept base root directory name) Store.drop :=
    (Store.upholds_drop hd).onward hd
  refine (upholds_onTables (Tables.upholds_onEach hc hdrop)).bind fun _ => ?_
  refine Meets.bind (Q := fun _ => Kept base root directory) ?_ fun _ => ?_
  · exact meets_setTables fun _ _ h => h.withTables Tables.kept_nil
  refine meets_state_bind (fun d _ h => h.located) fun d hlocated => ?_
  dsimp only
  rw [hlocated]
  refine meets_change hc fun d' fs fs' ht h hgone => ?_
  have honward := ht.onward_removeTree hd hgone
  exact ⟨honward, h.along hc honward⟩

/-! ### Opening -/

section opening

variable {P : σ → Files → Prop}

/-- What becomes of a database when its manifest has been read or written. -/
theorem meets_opened (hc : Course base root R) (hP : Lasts R P)
    {x : Work Database Unit} {serial : Nat}
    (hx : Meets base root R
      (fun d fs => Kept base root directory d fs ∧ Keyed.keys d.tables = []) x
      (fun _ => Kept base root directory) (Kept base root directory)) :
    Meets base root R P
      (do
        let (result, d) ← Work.beside ⟨name, base ++ [directory], [], serial⟩ x
        Attempt.ofExcept result
        return d : Work σ Database)
      (fun d s fs => P s fs ∧ Kept base root directory d fs) P := by
  refine (meets_beside hc hP (fun _ _ _ => ⟨⟨rfl, Tables.kept_nil⟩, rfl⟩) hx).bind
    fun ending => ?_
  obtain ⟨result, d⟩ := ending
  cases result with
  | ok _ => exact meets_pure fun _ _ h => h
  | error e => exact meets_throw fun _ _ h => h.1

/-- A database is opened, with the tables of its manifest or with a manifest that is written. -/
theorem meets_openIn (hd : directory ≠ "..") (hP : Lasts (Onward base root) P) :
    Meets base root (Onward base root) P (openIn name (base ++ [directory]) : Work σ Database)
      (fun d s fs => P s fs ∧ Kept base root directory d fs) P := by
  have hc : Course base root (Onward base root) := course_onward
  refine Meets.bind (upholds_ensureDirectory hc fun s fs ht h => ?_) fun _ => ?_
  · have honward := ht.quiet_ensureDirectory hd |>.onward hd ht
    exact ⟨honward, hP _ _ _ honward h⟩
  refine meets_takeSerial.bind fun serial => (upholds_query hc _).bind fun known => ?_
  refine meets_opened hc hP ?_
  cases known with
  | true => exact (meets_loadManifest hd).onward hd
  | false => exact (upholds_saveManifest hd).given fun _ _ h => h.1

/-- A database with a manifest is opened, and the manifest stays as it is. -/
theorem meets_openIn_known (hd : directory ≠ "..") (hP : Lasts (Quiet root directory) P) :
    Meets base root (Quiet root directory)
      (fun s fs => P s fs ∧ ∃ node, fs.openFile (base ++ [directory, manifestName]) = .ok node)
      (openIn name (base ++ [directory]) : Work σ Database)
      (fun d s fs => P s fs ∧ Kept base root directory d fs) P := by
  have hc : Course base root (Quiet root directory) := course_quiet hd
  refine Meets.bind ((upholds_ensureDirectory hc fun s fs ht h => ?_).failing fun _ _ h => h.1)
    fun _ => meets_takeSerial.bind fun serial => ?_
  · obtain ⟨node, hopen⟩ := h.2
    have hsame := ensureDirectory_of_openFile hopen
    rw [List.dropLast_append_of_ne_nil (by simp)] at hsame
    have hmake : fs.ensureDirectory (base ++ [directory]) = (.ok (), fs) := hsame
    rw [hmake]
    exact ⟨hc.refl ht, h⟩
  refine ((meets_query hc _).failing fun _ _ h => h.1).bind fun known => ?_
  refine Meets.of_fact (φ := known = true) (fun s fs h => ?_) fun hknown => ?_
  · obtain ⟨⟨hthere, -⟩, -, node, hopen⟩ := h
    have hpath : manifestPath ⟨name, base ++ [directory], [], serial⟩ =
        base ++ [directory, manifestName] := path_eq rfl manifestName
    rw [hpath, isThere_of_openFile hopen] at hthere
    exact (Except.ok.inj hthere).symm
  · rw [hknown]
    exact (meets_opened hc hP (meets_loadManifest hd)).given fun _ _ h => h.2.1

end opening

end Database
end Tabulary
