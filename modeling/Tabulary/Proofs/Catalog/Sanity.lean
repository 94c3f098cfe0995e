import Tabulary.Proofs.Catalog.Directories
import Tabulary.Proofs.Catalog.ManifestFile
import Tabulary.Proofs.Catalog.Reached

/-!
Work on databases leaves sane files sane, whatever the files hold and whether or not the work
succeeds.  Main statement: files are sane after any sequence of operations on a registry
(`Registry.sane_runAll`).
-/

namespace Tabulary

open Attempt

variable {σ τ α β : Type}

namespace Files

variable {fs fs' : Files} {p : Path} {node : Nat} {bytes : Bytes}

theorem sane_setNode (hs : fs.Sane) (node : Nat) (bytes : Bytes) : (fs.setNode node bytes).Sane :=
  ⟨fun he => hs.used he, fun he he' => hs.own he he'⟩

theorem sane_filter (hs : fs.Sane) (keep : Path → Bool) :
    Sane { fs with entries := fs.entries.filter fun e => keep e.1 } := by
  have hold {q : Path} {node : Nat}
      (hq : entry? { fs with entries := fs.entries.filter fun e => keep e.1 } q =
        some (.file node)) :
      fs.entry? q = some (.file node) := by
    by_cases hnil : q = []
    · rw [hnil] at hq
      cases hq
    · rw [entry?_of_ne_nil hnil] at hq ⊢
      rw [Keyed.lookup_filter_key keep] at hq
      split at hq
      · exact hq
      · cases hq
  exact ⟨fun hq => hs.used (hold hq), fun hq hr => hs.own (hold hq) (hold hr)⟩

theorem sane_create (hs : fs.Sane) (h : (fs.create p).map (·.2) = .ok fs') : fs'.Sane := by
  cases hcreate : fs.create p with
  | error e =>
    rw [hcreate] at h
    cases h
  | ok made =>
    rw [hcreate] at h
    cases h
    obtain ⟨q, -, hmade⟩ := created_of_create hs hcreate
    exact hmade.edit.sane

theorem sane_removeIfThere (hs : fs.Sane) (h : fs.removeIfThere p = .ok fs') : fs'.Sane := by
  unfold removeIfThere at h
  split at h
  · cases h
    exact hs
  · obtain ⟨q, -, hremoved⟩ := removed_of_remove hs h
    exact hremoved.edit.sane

theorem sane_removeTree (hs : fs.Sane) (h : fs.removeTree p = .ok fs') : fs'.Sane := by
  obtain ⟨-, hgone⟩ := guarded_eq_ok.mp h
  cases hfind : fs.find p with
  | error why =>
    rw [hfind] at hgone
    cases hgone
  | ok found =>
    obtain ⟨place, e⟩ := found
    rw [hfind] at hgone
    cases e with
    | file node => cases hgone
    | directory =>
      cases hgone
      exact sane_filter hs fun q => !place.isPrefixOf q

end Files

namespace Work

/-- Work that leaves sane files sane. -/
abbrev KeepsSane (x : Work σ α) : Prop :=
  Triple (fun y => y.2.files.Sane) x (fun _ y => y.2.files.Sane) fun y => y.2.files.Sane

theorem KeepsSane.run {x : Work σ α} (hx : KeepsSane x) {y : σ × World} (hs : y.2.files.Sane) :
    (x.run y).2.2.files.Sane := by
  have hend := hx y hs
  generalize x.run y = ending at hend ⊢
  obtain ⟨result, z⟩ := ending
  cases result with
  | ok a => exact hend
  | error e => exact hend

theorem keepsSane_of_keeps {x : Work σ α} (hx : Keeps (fun y => y.2.files) x) : KeepsSane x :=
  hx.triple (I := Files.Sane)

theorem keepsSane_state {f : σ → Work σ α} (hf : ∀ s, KeepsSane (f s)) :
    KeepsSane (state >>= f) :=
  Triple.bind (keepsSane_of_keeps fun _ => rfl) hf

theorem keepsSane_query {f : Files → Except Fault β} {g : β → Work σ α}
    (hg : ∀ b, KeepsSane (g b)) : KeepsSane (query f >>= g) :=
  Triple.bind (keepsSane_of_keeps fun _ => rfl) hg

theorem keepsSane_ofExcept {r : Except Fault β} {g : β → Work σ α}
    (hg : ∀ b, KeepsSane (g b)) : KeepsSane (Attempt.ofExcept r >>= g) :=
  Triple.bind (keepsSane_of_keeps (keeps_ofExcept r)) hg

theorem keepsSane_change {f : Files → Except Fault Files}
    (hf : ∀ fs fs', fs.Sane → f fs = .ok fs' → fs'.Sane) :
    KeepsSane (change f : Work σ Unit) := by
  intro y hs
  rw [run_change]
  cases hrun : f y.2.files with
  | ok fs => exact hf _ _ hs hrun
  | error e => exact hs

theorem keepsSane_ensureDirectory (p : Path) : KeepsSane (ensureDirectory p : Work σ Unit) := by
  intro y hs
  have hmade := (Files.local_ensureDirectory hs p p).sane
  rw [run_ensureDirectory]
  generalize y.2.files.ensureDirectory p = made at hmade ⊢
  obtain ⟨result, fs⟩ := made
  cases result with
  | ok _ => exact hmade
  | error e => exact hmade

theorem KeepsSane.beside {x : Work τ α} (hx : KeepsSane x) (t : τ) :
    KeepsSane (beside t x : Work σ (Except Fault α × τ)) :=
    fun y hs => hx.run (y := (t, y.2)) hs

end Work

open Work

/-! ## Stores -/

namespace Store

theorem keepsSane_writeFile (h : Handle) (bytes : Bytes) : KeepsSane (writeFile h bytes) :=
  fun _ hs => Files.sane_setNode hs h.node bytes

theorem keepsSane_ensureOpen : KeepsSane ensureOpen :=
  keepsSane_of_keeps (keeps_ensureOpen.through (·.2.2.2))

theorem keepsSane_rebuild : KeepsSane rebuild := by
  refine Triple.bind keepsSane_ensureOpen fun h => keepsSane_state fun s => ?_
  refine Triple.bind (keepsSane_of_keeps fun _ => rfl) fun file => ?_
  dsimp only
  split
  · exact Triple.bind (keepsSane_of_keeps fun _ => rfl) fun _ => keepsSane_of_keeps (keeps_throw _)
  · refine Triple.bind (keepsSane_of_keeps fun _ => rfl) fun _ => ?_
    refine Triple.bind (keepsSane_of_keeps fun _ => rfl) fun path => ?_
    split
    · refine Triple.bind (keepsSane_of_keeps fun _ => rfl) fun _ => ?_
      exact Triple.bind (keepsSane_writeFile _ _) fun _ => keepsSane_of_keeps fun _ => rfl
    · exact keepsSane_of_keeps fun _ => rfl

theorem keepsSane_openFile (schema : Schema) (path : Path) :
    KeepsSane (openFile schema path : Work σ Store) := by
  rw [openFile_eq]
  refine Triple.bind (keepsSane_ensureDirectory _) fun _ => keepsSane_query fun there => ?_
  have hattach : KeepsSane (attach schema path : Work σ Store) := by
    refine keepsSane_query fun node => Triple.bind (keepsSane_of_keeps fun _ => rfl) fun _ => ?_
    refine Triple.bind (keepsSane_rebuild.beside _) fun ending => ?_
    split
    split
    · exact keepsSane_of_keeps (keeps_pure _)
    · exact Triple.bind (keepsSane_of_keeps fun _ => rfl) fun _ =>
        keepsSane_of_keeps (keeps_throw _)
  split
  · exact Triple.bind (keepsSane_change fun fs fs' hs h => Files.sane_create hs h) fun _ => hattach
  · exact hattach

theorem keepsSane_insert (r : Row) : KeepsSane (insert r) := by
  refine keepsSane_state fun s => keepsSane_ofExcept fun _ =>
    Triple.bind keepsSane_ensureOpen fun h => ?_
  refine keepsSane_state fun s => keepsSane_ofExcept fun c => ?_
  have hcommit : KeepsSane (commit h c) :=
    Triple.bind (keepsSane_of_keeps fun _ => rfl) fun file =>
      Triple.bind (keepsSane_writeFile _ _) fun _ => keepsSane_of_keeps fun _ => rfl
  exact Triple.bind hcommit fun _ => keepsSane_of_keeps fun _ => rfl

theorem keepsSane_close : KeepsSane close := by
  refine keepsSane_state fun s => ?_
  split
  · exact keepsSane_of_keeps (keeps_pure _)
  · exact keepsSane_of_keeps fun _ => rfl

theorem keepsSane_drop : KeepsSane drop := by
  refine keepsSane_state fun s => ?_
  dsimp only
  split
  · exact keepsSane_of_keeps (keeps_throw _)
  · refine Triple.bind keepsSane_close fun _ => ?_
    refine Triple.bind (keepsSane_change fun fs fs' hs h => Files.sane_removeIfThere hs h) fun _ =>
      ?_
    exact keepsSane_of_keeps fun _ => rfl

end Store

/-! ## Tables -/

namespace Tables

theorem keepsSane_on (table : String) {x : Work Store α} (hx : KeepsSane x) :
    KeepsSane (on table x) := by
  refine Triple.bind (keepsSane_state fun ts => ?_) fun st => ?_
  · split
    · exact keepsSane_of_keeps (keeps_pure _)
    · exact keepsSane_of_keeps (keeps_throw _)
  · refine Triple.bind (hx.beside st) fun ending => ?_
    exact keepsSane_state fun ts => Triple.bind (keepsSane_of_keeps fun _ => rfl) fun _ =>
      keepsSane_of_keeps (keeps_ofExcept _)

theorem keepsSane_onEach {x : Work Store Unit} (hx : KeepsSane x) : KeepsSane (onEach x) :=
  keepsSane_state fun _ => triple_forM (fun table => keepsSane_on table hx) _

end Tables

/-! ## Databases -/

namespace Database

theorem keepsSane_onTables {x : Work Tables α} (hx : KeepsSane x) : KeepsSane (onTables x) := by
  rintro ⟨d, w⟩ hs
  have hend := hx.run (y := (d.tables, w)) hs
  rw [run_onTables (Prod.eta _).symm]
  generalize x.run (d.tables, w) = ending at hend ⊢
  obtain ⟨result, z⟩ := ending
  cases result with
  | ok a => exact hend
  | error e => exact hend

theorem keepsSane_saveManifest : KeepsSane saveManifest := by
  rintro ⟨d, w⟩ hs
  rcases saveManifest_cases d hs with ⟨e, w', hrun, -, hlocal, -⟩ | ⟨w', hrun, -, hlocal⟩
  · rw [hrun]
    exact hlocal.sane
  · rw [hrun]
    exact hlocal.sane

theorem keepsSane_loadTable (t : Manifest.Table) : KeepsSane (loadTable t) := by
  refine keepsSane_ofExcept fun schema => keepsSane_state fun d => keepsSane_query fun path => ?_
  exact Triple.bind (Store.keepsSane_openFile _ _) fun st => keepsSane_of_keeps fun _ => rfl

theorem keepsSane_loadManifest : KeepsSane loadManifest :=
  keepsSane_state fun _ => keepsSane_query fun _ => keepsSane_ofExcept fun _ =>
    triple_forM keepsSane_loadTable _

theorem keepsSane_openIn (name : String) (directory : Path) :
    KeepsSane (openIn name directory : Work σ Database) := by
  refine Triple.bind (keepsSane_ensureDirectory _) fun _ => ?_
  refine Triple.bind (keepsSane_of_keeps fun _ => rfl) fun serial => keepsSane_query fun known => ?_
  refine Triple.bind (KeepsSane.beside ?_ _) fun ending => ?_
  · split
    · exact keepsSane_loadManifest
    · exact keepsSane_saveManifest
  · exact keepsSane_ofExcept fun _ => keepsSane_of_keeps (keeps_pure _)

theorem keepsSane_discard (d : Database) (schema : Schema) : KeepsSane (discard d schema) := by
  refine keepsSane_query fun there => ?_
  split
  · refine Triple.bind (keepsSane_of_keeps fun _ => rfl) fun path => ?_
    refine Triple.bind (keepsSane_of_keeps fun _ => rfl) fun _ =>
      keepsSane_change fun fs fs' hs h => ?_
    obtain ⟨q, -, hremoved⟩ := Files.removed_of_remove hs h
    exact hremoved.edit.sane
  · exact keepsSane_of_keeps (keeps_pure _)

theorem keepsSane_takeBack (d : Database) (s : Store) (e : Fault) : KeepsSane (takeBack d s e) := by
  unfold takeBack
  dsimp only
  split
  · refine Triple.bind (keepsSane_of_keeps fun _ => rfl) fun _ => ?_
    refine Triple.bind (Store.keepsSane_drop.beside _) fun ending => ?_
    exact keepsSane_ofExcept fun _ => keepsSane_of_keeps (keeps_throw _)
  · exact keepsSane_of_keeps (keeps_throw _)

theorem keepsSane_createTable (schema : Schema) : KeepsSane (createTable schema) := by
  rw [createTable_eq]
  refine keepsSane_state fun d => keepsSane_ofExcept fun _ => ?_
  refine Triple.bind (keepsSane_discard d schema) fun _ => ?_
  refine Triple.bind (Store.keepsSane_openFile _ _) fun s => ?_
  refine Triple.bind (keepsSane_of_keeps fun _ => rfl) fun _ => ?_
  refine Triple.bind (keepsSane_saveManifest.tryCatch fun e => keepsSane_takeBack d s e) fun _ => ?_
  exact keepsSane_of_keeps fun _ => rfl

theorem keepsSane_dropTable (table : String) : KeepsSane (dropTable table) := by
  refine keepsSane_state fun d => ?_
  split
  · exact keepsSane_of_keeps (keeps_throw _)
  · refine Triple.bind (keepsSane_of_keeps fun _ => rfl) fun _ =>
      Triple.bind keepsSane_saveManifest fun _ => ?_
    refine Triple.bind (Store.keepsSane_drop.beside _) fun ending => ?_
    exact keepsSane_ofExcept fun _ => keepsSane_of_keeps fun _ => rfl

theorem keepsSane_close : KeepsSane close :=
  keepsSane_onTables (Tables.keepsSane_onEach Store.keepsSane_close)

theorem keepsSane_destroy : KeepsSane destroy := by
  refine Triple.bind (keepsSane_onTables (Tables.keepsSane_onEach Store.keepsSane_drop)) fun _ => ?_
  refine Triple.bind (keepsSane_of_keeps fun _ => rfl) fun _ => keepsSane_state fun d => ?_
  exact keepsSane_change fun fs fs' hs h => Files.sane_removeTree hs h

end Database

/-! ## Registries -/

namespace Registry

theorem keepsSane_get (name : String) : KeepsSane (get name) := by
  refine keepsSane_state fun r => ?_
  split
  · exact keepsSane_of_keeps (keeps_pure _)
  · exact keepsSane_of_keeps (keeps_throw _)

theorem keepsSane_on (name : String) {x : Work Database α} (hx : KeepsSane x) :
    KeepsSane (on name x) := by
  refine Triple.bind (keepsSane_get name) fun d => Triple.bind (hx.beside d) fun ending => ?_
  exact keepsSane_state fun r => Triple.bind (keepsSane_of_keeps fun _ => rfl) fun _ =>
    keepsSane_of_keeps (keeps_ofExcept _)

theorem keepsSane_createDatabase (name : String) : KeepsSane (createDatabase name) := by
  refine keepsSane_state fun r => ?_
  dsimp only
  split
  · exact keepsSane_of_keeps (keeps_throw _)
  split
  · exact keepsSane_of_keeps (keeps_throw _)
  split
  · exact keepsSane_of_keeps (keeps_throw _)
  exact Triple.bind (Database.keepsSane_openIn _ _) fun d => keepsSane_of_keeps fun _ => rfl

theorem keepsSane_discoverIn (directory : Path) : KeepsSane (discoverIn directory) := by
  refine keepsSane_query fun bytes => keepsSane_ofExcept fun m => keepsSane_state fun r => ?_
  split
  · exact keepsSane_of_keeps (keeps_pure _)
  · exact Triple.bind (Database.keepsSane_openIn _ _) fun d => keepsSane_of_keeps fun _ => rfl

theorem keepsSane_discover : KeepsSane discover := by
  refine keepsSane_state fun r => Triple.bind (keepsSane_ensureDirectory _) fun _ =>
    keepsSane_query fun found => ?_
  refine Triple.bind (triple_mapM fun directory _ => keepsSane_discoverIn directory) fun opened =>
    ?_
  dsimp only
  split
  · exact keepsSane_of_keeps fun _ => rfl
  · exact keepsSane_of_keeps (keeps_pure _)

theorem keepsSane_dropDatabase (name : String) : KeepsSane (dropDatabase name) := by
  refine Triple.bind (keepsSane_get name) fun d => keepsSane_state fun r => ?_
  refine Triple.bind (keepsSane_of_keeps fun _ => rfl) fun _ => ?_
  refine Triple.bind (Database.keepsSane_destroy.beside _) fun ending => ?_
  exact keepsSane_ofExcept fun _ => keepsSane_of_keeps fun _ => rfl

theorem keepsSane_close : KeepsSane close := by
  refine keepsSane_state fun r => ?_
  exact Triple.bind (triple_forM (fun name => keepsSane_on name Database.keepsSane_close) _)
    fun _ => keepsSane_of_keeps fun _ => rfl

theorem keepsSane_run (op : Operation) : KeepsSane op.run := by
  cases op with
  | createDatabase name =>
    exact Triple.bind (keepsSane_createDatabase name) fun _ => keepsSane_of_keeps (keeps_pure _)
  | dropDatabase name => exact keepsSane_dropDatabase name
  | createTable database schema =>
    exact keepsSane_on database (Database.keepsSane_createTable schema)
  | dropTable database table => exact keepsSane_on database (Database.keepsSane_dropTable table)
  | insert database table row =>
    exact keepsSane_on database
      (Database.keepsSane_onTables (Tables.keepsSane_on table (Store.keepsSane_insert row)))
  | discover => exact Triple.bind keepsSane_discover fun _ => keepsSane_of_keeps (keeps_pure _)
  | close => exact keepsSane_close

theorem sane_runAll (ops : List Operation) {x : Registry × World} (hs : x.2.files.Sane) :
    (runAll ops x).2.files.Sane := by
  induction ops generalizing x with
  | nil => exact hs
  | cons op ops ih => exact ih ((keepsSane_run op).run hs)

end Registry
end Tabulary
