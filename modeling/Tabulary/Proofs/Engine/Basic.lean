import Tabulary.Engine
import Tabulary.Proofs.Catalog.Discovery
import Tabulary.Proofs.Files.Bare

/-!
An engine over databases that show some tables.  Each of its operations comes to what it comes to on
the databases in memory, and a start over an empty directory comes to what a first start comes to.
-/

namespace Tabulary
namespace Engine

open Files

/-- The engine keeps these databases, one of which it serves if none is named. -/
structure At (site : Memory.Site) (root : Path) (standard : String) (started : Bool)
    (x : Engine × World) (m : Memory) : Prop where
  registry : Registry.Shows site root x.2.files x.1.registry m
  standard : x.1.defaultDatabase = standard
  started : x.1.started = started

variable {site : Memory.Site} {root : Path} {standard : String} {started : Bool} {e : Engine}
  {w : World} {m : Memory} {α : Type}

/-! ## Operations -/

theorem run_onRegistry (x : Work Registry α) : (onRegistry x).run (e, w) =
    ((x.run (e.registry, w)).1,
      ({ e with registry := (x.run (e.registry, w)).2.1 }, (x.run (e.registry, w)).2.2)) := rfl

theorem simulates_onRegistry {x : Work Registry α} {y : Attempt Fault Memory α}
    (h : Attempt.Simulates (Registry.At site root) x y) :
    Attempt.Simulates (At site root standard started) (onRegistry x) y := by
  rintro ⟨e, w⟩ m hat
  obtain ⟨hresult, hregistry⟩ := h (e.registry, w) m hat.registry
  exact ⟨hresult, hregistry, hat.standard, hat.started⟩

theorem At.run_whileStarted (h : At site root standard true (e, w) m) (x : Work Registry α) :
    (whileStarted x).run (e, w) = (onRegistry x).run (e, w) := by
  have hstarted : e.started = true := h.started
  unfold whileStarted
  rw [Attempt.run_bind_of_ok (Work.run_state _)]
  dsimp only
  rw [hstarted, if_pos rfl]

theorem simulates_whileStarted {x : Work Registry α} {y : Attempt Fault Memory α}
    (h : Attempt.Simulates (Registry.At site root) x y) :
    Attempt.Simulates (At site root standard true) (whileStarted x) y := by
  rintro ⟨e, w⟩ m hat
  unfold Attempt.Agree
  rw [hat.run_whileStarted]
  exact simulates_onRegistry h (e, w) m hat

/-- Whether a dispatcher is kept or made, it is for the database that is open. -/
theorem run_dispatcherFor (d : Database) :
    ∃ dispatchers, (dispatcherFor d).run (e, w) =
      (.ok d.serial, ({ e with dispatchers := dispatchers }, w)) := by
  unfold dispatcherFor
  rw [Attempt.run_bind_of_ok (Work.run_state _)]
  dsimp only
  cases hkept : e.dispatchers.lookup d.name with
  | none => exact ⟨_, rfl⟩
  | some serial =>
    by_cases hserial : serial = d.serial
    · refine ⟨e.dispatchers, ?_⟩
      simp only [hserial, if_true]
      rfl
    · refine ⟨Keyed.set d.name d.serial e.dispatchers, ?_⟩
      simp only [if_neg hserial]
      rfl

theorem run_onOpened {r : Registry} {name : String} {d : Database}
    (h : r.databases.lookup name = some d) (x : Work Database α) :
    (Registry.onOpened name d.serial x).run (r, w) = (Registry.on name x).run (r, w) := by
  unfold Registry.onOpened
  rw [Attempt.run_bind_of_ok (Registry.run_get h), if_pos rfl]

/-- A text goes to the database that is open under the name, if there is one. -/
theorem At.run_execute (h : At site root standard true (e, w) m) (text : String)
    (database? : Option String) :
    (e.registry.databases.lookup (serving standard database?) = none ∧
        (execute text database?).run (e, w) =
          (.ok (.ofError (.noDatabase (serving standard database?))), (e, w))) ∨
      ∃ d dispatchers, e.registry.databases.lookup (serving standard database?) = some d ∧
        (execute text database?).run (e, w) =
          (onRegistry (Registry.on (serving standard database?) (Database.execute text))).run
            ({ e with dispatchers := dispatchers }, w) := by
  obtain rfl : e.defaultDatabase = standard := h.standard
  have hstate : (whileStarted Work.state).run (e, w) = (.ok e.registry, (e, w)) :=
    h.run_whileStarted _
  unfold execute
  rw [Attempt.run_bind_of_ok (Work.run_state _)]
  dsimp only
  rw [Attempt.run_bind_of_ok hstate]
  generalize serving e.defaultDatabase database? = name
  cases hd : e.registry.databases.lookup name with
  | none => exact Or.inl ⟨rfl, rfl⟩
  | some d =>
    obtain ⟨dispatchers, hserial⟩ := run_dispatcherFor (e := e) (w := w) d
    refine Or.inr ⟨d, dispatchers, rfl, ?_⟩
    dsimp only
    rw [Attempt.run_bind_of_ok hserial, run_onRegistry, run_onOpened hd]
    rfl

theorem simulates_execute (text : String) (database? : Option String) :
    Attempt.Simulates (At site root standard true) (execute text database?)
      (Memory.execute site standard text database?) := by
  rintro ⟨e, w⟩ m h
  have hsome := h.registry.databases.isSome_lookup (serving standard database?)
  unfold Attempt.Agree Memory.execute
  rw [Attempt.run_bind_of_ok (Attempt.run_get _), ← hsome]
  rcases h.run_execute text database? with ⟨hd, hrun⟩ | ⟨d, dispatchers, hd, hrun⟩
  · rw [hrun, hd]
    exact ⟨rfl, h⟩
  · rw [hrun, hd]
    exact simulates_onRegistry (Registry.simulates_on fun _ => Database.simulates_execute text) _ _
      ⟨h.registry, h.standard, h.started⟩

theorem simulates_createDatabase (name : String) :
    Attempt.Simulates (At site root standard true) (createDatabase name)
      (do let _ ← Memory.createDatabase site name) :=
  (simulates_whileStarted (Registry.simulates_createDatabase name)).bind fun _ =>
    Attempt.simulates_pure ()

theorem simulates_dropDatabase (name : String) :
    Attempt.Simulates (At site root standard true) (dropDatabase name)
    (Memory.dropDatabase name) := by
  rintro ⟨e, w⟩ m h
  have hdrop := simulates_whileStarted (Registry.simulates_dropDatabase name) (e, w) m h
  refine hdrop.andThen ?_
  rintro ⟨e', w'⟩ m' h'
  exact ⟨_, rfl, h'.registry, h'.standard, h'.started⟩

theorem simulates_databases :
    Attempt.Simulates (At site root standard true) databases
      (do return Keyed.keys (← get : Memory)) := by
  refine simulates_whileStarted ?_
  rintro ⟨r, w⟩ m h
  exact ⟨congrArg Except.ok h.databases.keys_eq, h⟩

theorem simulates_tables (database : String) :
    Attempt.Simulates (At site root standard true) (tables database)
      (do return Keyed.keys (← Memory.find database)) := by
  refine simulates_whileStarted ?_
  rintro ⟨r, w⟩ m h
  rcases h.databases.lookup database with ⟨hd, hm⟩ | ⟨d, tables, hd, hm, hn, hshows⟩
  · exact Attempt.agree_bind_of_error (Registry.run_get_none hd) (Registry.run_find_none hm) h
  · refine Attempt.agree_bind (Registry.run_get hd) (Registry.run_find hm) ?_
    exact ⟨congrArg Except.ok hshows.tables.keys_eq, h⟩

/-! ## Starting -/

theorem simulates_seedCommand (text : String) :
    Attempt.Simulates (At site root standard true) (seedCommand text)
      (Memory.seedCommand site standard text) := by
  refine (simulates_execute text none).bind fun r => ?_
  split
  · exact Attempt.simulates_throw _
  · exact Attempt.simulates_pure ()

theorem simulates_seedDemo :
    Attempt.Simulates (At site root standard true) seedDemo (Memory.seedDemo site standard) := by
  refine (Attempt.simulates_forM fun text _ => simulates_seedCommand text).bind fun _ => ?_
  rintro ⟨e, w⟩ m h
  refine Attempt.agree_bind_left (Work.run_state _) ?_
  have hstandard : e.defaultDatabase = standard := h.standard
  dsimp only
  rw [hstandard]
  have hcount : ((Registry.on standard (Database.onTables (Tables.get "users"))).run
        (e.registry, w)).1.map Store.rowCount =
      ((Memory.on standard (Memory.Tables.find "users")).run m).1.map (·.rows.length) ∧
      Registry.At site root
        ((Registry.on standard (Database.onTables (Tables.get "users"))).run (e.registry, w)).2
        ((Memory.on standard (Memory.Tables.find "users")).run m).2 :=
    h.registry.run_on_map fun _ _ _ _ hat => hat.run_count
  have hrun := h.run_whileStarted (Registry.on standard (Database.onTables (Tables.get "users")))
  rw [run_onRegistry] at hrun
  refine Attempt.agree_bind_of_map (v := Store.rowCount) (by rw [hrun]; exact hcount.1)
    (by rw [hrun]; exact ⟨hcount.2, h.standard, h.started⟩) fun users table heq => ?_
  rw [heq]
  split
  · intro s t hst
    refine (Attempt.simulates_forM fun text _ => simulates_seedCommand text) s t hst |>.andThen ?_
    rintro ⟨e', w'⟩ m' h'
    exact ⟨_, rfl, h'.registry, h'.standard, h'.started⟩
  · exact Attempt.simulates_pure ()

/-- The databases that a start opens: those that there are, and the one that serves. -/
def opening (standard : String) : Work Registry Unit := do
  let _ ← Registry.discover
  if ((← Work.state).databases.lookup standard).isNone then
    let _ ← Registry.createDatabase standard

/-- What a start does once the databases are open. -/
def serve (seeds : Bool) (dataDir : Path) : Work Engine Unit := do
  Work.setState { ← Work.state with started := true }
  if seeds then seedDemo
  Work.log .info "engine_started"
    [("data_dir", .text (← Work.pathText dataDir)),
      ("databases", .array ((← Work.state).registry.names.map .text))]

theorem run_start_eq (h : e.started = false) : start.run (e, w) =
    (onRegistry (opening e.defaultDatabase) >>= fun _ => serve e.seeds e.dataDir).run
      ({ e with registry := ⟨e.dataDir, []⟩ }, w) := by
  unfold start
  rw [Attempt.run_bind_of_ok (Work.run_state _)]
  dsimp only
  rw [h]
  rfl

theorem simulates_serve {b : Bool} (seeds : Bool) (dataDir : Path) :
    ∀ x m, At site root standard b x m →
      Attempt.Agree (At site root standard true) x m (serve seeds dataDir)
        (if seeds then Memory.seedDemo site standard else pure ()) := by
  rintro ⟨e, w⟩ m h
  unfold serve
  have h' : At site root standard true ({ e with started := true }, w) m :=
    ⟨h.registry, h.standard, rfl⟩
  refine Attempt.agree_bind_left (Work.run_state _)
    (Attempt.agree_bind_left (Work.run_setState _ _) ?_)
  cases seeds with
  | true =>
    refine (simulates_seedDemo _ _ h').andThen ?_
    rintro ⟨e', w'⟩ m' h'
    exact ⟨_, rfl, h'.registry, h'.standard, h'.started⟩
  | false => exact ⟨rfl, h'.registry, h'.standard, h'.started⟩

/-- An engine that has been made over an empty directory keeps no databases. -/
theorem run_make {σ : Type} {w : World} {dataDir : Path} (hs : w.files.Sane)
    (hb : w.files.Bare dataDir) (standard : String) (seeds : Bool) (x : σ) :
    ∃ e w' root, (make dataDir standard seeds : Work σ Engine).run (x, w) = (.ok e, (x, w')) ∧
      e.seeds = seeds ∧ At ⟨w.files.anchor, dataDir⟩ root standard false (e, w') [] := by
  obtain ⟨fs, root, hmake, hrooted, hsane, hanchor, hempty⟩ := hb.rooted hs
  have hensure : (Work.ensureDirectory dataDir : Work σ Unit).run (x, w) =
      (.ok (), (x, { w with files := fs })) := by
    rw [Work.run_ensureDirectory, hmake]
  refine ⟨⟨standard, seeds, false, ⟨dataDir, []⟩, []⟩, { w with files := fs },
    root, ?_, rfl, ?_⟩
  · unfold make
    rw [Attempt.run_bind_of_ok hensure]
    rfl
  · refine ⟨⟨rfl, hanchor, hrooted, hsane, .nil, ?_, ?_⟩, rfl, rfl⟩
    · exact .nil
    · intro directory rest hsome
      rw [hempty _ ⟨directory, rest, rfl⟩] at hsome
      cases hsome

/-- An engine that is made over a directory that is there changes nothing. -/
theorem run_make_again {σ : Type} {dataDir : Path} (hr : Rooted w.files dataDir root)
    (standard : String) (seeds : Bool) (y : σ) :
    (make dataDir standard seeds : Work σ Engine).run (y, w) =
      (.ok ⟨standard, seeds, false, ⟨dataDir, []⟩, []⟩, (y, w)) := by
  have hensure : (Work.ensureDirectory dataDir : Work σ Unit).run (y, w) = (.ok (), (y, w)) := by
    rw [Work.run_ensureDirectory, hr.ensureDirectory]
  unfold make
  rw [Attempt.run_bind_of_ok hensure]
  rfl

/-- A start opens the databases that there are, in some order, and makes the one that serves if it
is not there. -/
theorem agree_opening {r : Registry} (h : Registry.Shows site root w.files r m)
    (standard : String) :
    ∃ m', m'.Perm m ∧ Attempt.Agree (Registry.At site root)
      (⟨site.directory, []⟩, w) m' (opening standard) (Memory.provide site standard) := by
  obtain ⟨names, r', w', m', hdiscover, hfiles, hperm, hshows⟩ := h.run_discover
  have hat : Registry.At site root (r', w') m' := by
    show Registry.Shows site root w'.files r' m'
    rw [hfiles]
    exact hshows
  refine ⟨m', hperm, Attempt.agree_bind_left hdiscover ?_⟩
  refine Attempt.agree_bind (Work.run_state _) (Attempt.run_get _) ?_
  dsimp only
  rw [← Option.not_isSome, ← Option.not_isSome, hshows.databases.isSome_lookup]
  split
  · exact (Registry.simulates_createDatabase standard _ _ hat).bind fun _ =>
      Attempt.simulates_pure ()
  · exact ⟨rfl, hat⟩

/-- What the engine does in a start over the files of some databases. -/
theorem run_start_over {r : Registry} (hstarted : e.started = false)
    (hdir : e.dataDir = site.directory) (h : Registry.Shows site root w.files r m) :
    ∃ m', m'.Perm m ∧ (start.run (e, w)).1 =
      ((Memory.reopen site e.defaultDatabase e.seeds).run m').1 ∧
      ∃ started, At site root e.defaultDatabase started (start.run (e, w)).2
        ((Memory.reopen site e.defaultDatabase e.seeds).run m').2 ∧
        ((start.run (e, w)).1 = .ok () → started = true) := by
  obtain ⟨m', hperm, hresult, hregistry⟩ := agree_opening h e.defaultDatabase
  refine ⟨m', hperm, ?_⟩
  unfold Memory.reopen
  rw [run_start_eq hstarted, hdir, Attempt.run_bind, run_onRegistry, Attempt.run_bind]
  generalize (opening e.defaultDatabase).run (⟨site.directory, []⟩, w) =
    opened at hresult hregistry ⊢
  generalize (Memory.provide site e.defaultDatabase).run m' = provided at hresult hregistry ⊢
  obtain ⟨result, r₁, w₁⟩ := opened
  obtain ⟨result', m₁⟩ := provided
  obtain rfl : result = result' := hresult
  have hopened : At site root e.defaultDatabase e.started
      ({ e with registry := r₁ }, w₁) m₁ :=
    ⟨hregistry, rfl, rfl⟩
  cases result with
  | error f => exact ⟨rfl, _, hopened, nofun⟩
  | ok _ =>
    obtain ⟨hserved, hat⟩ := simulates_serve e.seeds site.directory _ _ hopened
    exact ⟨hserved, true, hat, fun _ => rfl⟩

/-- What the engine does in its first start over an empty directory. -/
theorem At.run_start (h : At site root standard false (e, w) []) :
    ((start).run (e, w)).1 = ((Memory.start site standard e.seeds).run []).1 ∧
      (((start).run (e, w)).1 = .ok () →
        At site root standard true ((start).run (e, w)).2
          ((Memory.start site standard e.seeds).run []).2) := by
  obtain rfl : e.defaultDatabase = standard := h.standard
  obtain ⟨m', hperm, hresult, started, hat, hstarted⟩ :=
    run_start_over h.started h.registry.located h.registry
  obtain rfl : m' = [] := hperm.eq_nil
  rw [Memory.run_reopen_nil] at hresult hat
  exact ⟨hresult, fun hok => hstarted hok ▸ hat⟩

end Engine
end Tabulary
