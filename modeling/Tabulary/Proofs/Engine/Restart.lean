import Tabulary.Proofs.Catalog.Closing
import Tabulary.Proofs.Catalog.Discovery
import Tabulary.Proofs.Engine.Operation
import Tabulary.Proofs.Memory.Names

/-!
Stopping an engine and starting it again.  Main statement: whatever was asked of an engine before,
as long as the database that serves was not dropped, a start after a stop finds the same databases,
with the same tables in the same order, and each table has the schema, the index and the rows that
it had (`restart_contents_perm`).
-/

namespace Tabulary

open Files

/-! ## What there is to see -/

/-- A table with its index, and its rows in the order of their records. -/
def Store.contents (w : World) (st : Store) : Table × Except Fault (List Row) :=
  (st.table, (selectAll.run (st, w)).1)

/-- The tables by name, in the order of their creation. -/
def Database.contents (w : World) (d : Database) :
    List (String × Table × Except Fault (List Row)) :=
  d.tables.map fun t => (t.1, t.2.contents w)

/-- The open databases by name. -/
def Engine.contents (x : Engine × World) :
    List (String × List (String × Table × Except Fault (List Row))) :=
  x.1.registry.databases.map fun d => (d.1, d.2.contents x.2)

/-- What there is to see of a table that has its rows in a file. -/
def Memory.Table.contents (fs : Files) (path : Path) (t : Memory.Table) :
    Tabulary.Table × Except Fault (List Row) :=
  (Table.ofFile t.schema ((fs.read path).toOption.getD []), .ok t.rows)

theorem Store.Shows.contents_eq {directory : Path} {w : World} {name : String} {st : Store}
    {t : Memory.Table} (h : Shows directory w.files name st t) :
    st.contents w = t.contents w.files (directory ++ [Name.tableFile name]) := by
  obtain ⟨handle, records, ho, hrows⟩ := h.opened
  have hread : w.files.read (directory ++ [Name.tableFile name]) =
      .ok (w.files.nodeBytes handle.node) := by
    rw [Files.read, ho.opened]
    rfl
  have hall := ho.selectAll_ends.result_eq
  unfold Store.contents Memory.Table.contents
  rw [ho.table_eq, hread, hall, hrows]
  rfl

namespace Engine

variable {site : Memory.Site} {root : Path} {standard : String} {started : Bool} {e : Engine}
  {w : World} {m : Memory}

/-- What there is to see depends on the files and on what there would be in memory. -/
theorem At.contents_eq (h : At site root standard started (e, w) m) :
    contents (e, w) = m.map fun d => (d.1, d.2.map fun t =>
      (t.1, t.2.contents w.files (site.home d.1 ++ [Name.tableFile t.1]))) := by
  refine h.registry.databases.map_eq fun name d tables hd => ?_
  refine Prod.ext rfl (hd.2.tables.map_eq fun table st t hst => ?_)
  exact Prod.ext rfl hst.contents_eq

/-! ## Stopping -/

theorem At.run_stop (h : At site root standard true (e, w) m) :
    ∃ w', stop.run (e, w) =
        (.ok (), (⟨standard, e.seeds, false, ⟨site.directory, []⟩, []⟩, w')) ∧
      w'.files = w.files := by
  obtain ⟨w₁, hclose, hfiles⟩ := Registry.run_close e.registry w
  have hdir : e.registry.dataDir = site.directory := h.registry.located
  have hstandard : e.defaultDatabase = standard := h.standard
  have hclosed : (whileStarted Registry.close).run (e, w) =
      (.ok (), ({ e with registry := ⟨site.directory, []⟩ }, w₁)) := by
    rw [h.run_whileStarted, run_onRegistry, hclose, hdir]
  unfold stop
  rw [Attempt.run_bind_of_ok hclosed, Attempt.run_bind_of_ok (Work.run_state _),
    Attempt.run_bind_of_ok (Work.run_setState _ _), hstandard]
  exact ⟨_, rfl, hfiles⟩

/-! ## Starting again -/

/-- A start opens the databases that there are, and makes none if the one that serves is among
them. -/
theorem run_opening {r : Registry} (h : Registry.Shows site root w.files r m)
    (hstandard : standard ∈ Keyed.keys m) :
    ∃ r' w' m', (opening standard).run (⟨site.directory, []⟩, w) = (.ok (), (r', w')) ∧
      w'.files = w.files ∧ m'.Perm m ∧ Registry.Shows site root w.files r' m' := by
  obtain ⟨names, r', w', m', hdiscover, hfiles, hperm, hshows⟩ := h.run_discover
  refine ⟨r', w', m', ?_, hfiles, hperm, hshows⟩
  have hopen : standard ∈ Keyed.keys r'.databases := by
    rw [hshows.databases.keys_eq]
    exact (hperm.map Prod.fst).mem_iff.mpr hstandard
  obtain ⟨d, hd⟩ := Keyed.exists_lookup hopen
  unfold opening
  rw [Attempt.run_bind_of_ok hdiscover, Attempt.run_bind_of_ok (Work.run_state _)]
  dsimp only
  rw [hd]
  rfl

/-- An engine that is started over the files of another one has its databases. -/
theorem run_start_again {r : Registry} (hstarted : e.started = false) (hseeds : e.seeds = false)
    (hdir : e.dataDir = site.directory) (h : Registry.Shows site root w.files r m)
    (hstandard : e.defaultDatabase ∈ Keyed.keys m) :
    ∃ e' w' m', start.run (e, w) = (.ok (), (e', w')) ∧ w'.files = w.files ∧ m'.Perm m ∧
      At site root e.defaultDatabase true (e', w') m' := by
  obtain ⟨r', w₁, m', hopening, hfiles, hperm, hshows⟩ := run_opening h hstandard
  have hon : (onRegistry (opening e.defaultDatabase)).run
      ({ e with registry := ⟨e.dataDir, []⟩ }, w) =
      (.ok (), ({ e with registry := r' }, w₁)) := by
    rw [run_onRegistry, hdir, hopening]
  rw [run_start_eq hstarted, Attempt.run_bind_of_ok hon, hseeds]
  refine ⟨_, _, m', rfl, hfiles, hperm, ?_, rfl, rfl⟩
  show Registry.Shows site root w₁.files r' m'
  rw [hfiles]
  exact hshows

/-- Two engines that have the same databases over the same files show the same. -/
theorem At.contents_perm {e' : Engine} {w' : World} {m' : Memory} {started' : Bool}
    (h : At site root standard started (e, w) m) (h' : At site root standard started' (e', w') m')
    (hfiles : w'.files = w.files) (hperm : m'.Perm m) :
    (contents (e', w')).Perm (contents (e, w)) := by
  rw [h.contents_eq, h'.contents_eq, hfiles]
  exact hperm.map _

/-! ## Operations -/

namespace Operation

/-- Only dropping a database takes it away. -/
theorem keys_onMemory {op : Operation} {name : String} (hop : op ≠ dropDatabase name)
    (h : name ∈ Keyed.keys m) : name ∈ Keyed.keys ((op.onMemory site standard).run m).2 := by
  cases op with
  | createDatabase other =>
    unfold onMemory
    rw [Attempt.snd_run_andReturn]
    exact Memory.keys_createDatabase h
  | dropDatabase other =>
    unfold onMemory
    rw [Attempt.snd_run_andReturn]
    exact Memory.keys_dropDatabase h fun heq => hop (heq ▸ rfl)
  | databases => exact h
  | tables database =>
    unfold onMemory
    rw [Attempt.snd_run_andReturn, Memory.state_find]
    exact h
  | execute text database? =>
    unfold onMemory
    rw [Attempt.snd_run_andReturn, Memory.keys_execute]
    exact h

theorem keys_replay {ops : List Operation} {name : String} (hops : dropDatabase name ∉ ops)
    (h : name ∈ Keyed.keys m) : name ∈ Keyed.keys ((replay site standard ops).run m).2 := by
  induction ops generalizing m with
  | nil => exact h
  | cons op ops ih =>
    rw [List.mem_cons, not_or] at hops
    have hfirst : name ∈ Keyed.keys ((op.onMemory site standard).run m).2 :=
      keys_onMemory (Ne.symm hops.1) h
    have hnext := ih hops.2 hfirst
    unfold replay at hnext ⊢
    rw [List.mapM_cons, Attempt.run_bind_of_ok rfl, Attempt.snd_run_andReturn]
    exact hnext

end Operation

/-! ## Seeding -/

section seeds

/-- Whether tables are seeded is decided when an engine is made. -/
abbrev KeepsSeeds {α : Type} (x : Work Engine α) : Prop :=
  Attempt.Keeps (fun y : Engine × World => y.1.seeds) x

theorem keepsSeeds_onRegistry {α : Type} (x : Work Registry α) : KeepsSeeds (onRegistry x) :=
  fun _ => rfl

theorem keepsSeeds_whileStarted {α : Type} (x : Work Registry α) :
    KeepsSeeds (whileStarted x) := by
  have hstate : KeepsSeeds Work.state := fun _ => rfl
  refine hstate.bind fun e => ?_
  split
  · exact keepsSeeds_onRegistry x
  · exact Attempt.keeps_throw _

theorem keepsSeeds_dispatcherFor (d : Database) : KeepsSeeds (dispatcherFor d) := by
  rintro ⟨e, w⟩
  obtain ⟨dispatchers, hrun⟩ := run_dispatcherFor (e := e) (w := w) d
  rw [hrun]

theorem keepsSeeds_execute (text : String) (database? : Option String) :
    KeepsSeeds (execute text database?) := by
  have hstate : KeepsSeeds Work.state := fun _ => rfl
  refine hstate.bind fun e => (keepsSeeds_whileStarted _).bind fun r => ?_
  split
  · exact Attempt.keeps_pure _
  · exact (keepsSeeds_dispatcherFor _).bind fun serial => keepsSeeds_onRegistry _

theorem keepsSeeds_run (op : Operation) : KeepsSeeds op.run := by
  cases op with
  | createDatabase name =>
    refine Attempt.Keeps.bind ?_ fun _ => Attempt.keeps_pure _
    exact (keepsSeeds_whileStarted _).bind fun _ => Attempt.keeps_pure ()
  | dropDatabase name =>
    refine Attempt.Keeps.bind ?_ fun _ => Attempt.keeps_pure _
    have hforget : KeepsSeeds (do
        let e ← Work.state
        Work.setState { e with dispatchers := Keyed.erase name e.dispatchers }) := fun _ => rfl
    exact (keepsSeeds_whileStarted _).bind fun _ => hforget
  | databases => exact (keepsSeeds_whileStarted _).bind fun names => Attempt.keeps_pure _
  | tables database => exact (keepsSeeds_whileStarted _).bind fun names => Attempt.keeps_pure _
  | execute text database? =>
    exact (keepsSeeds_execute text database?).bind fun r => Attempt.keeps_pure _

theorem keepsSeeds_runAll (ops : List Operation) : KeepsSeeds (Operation.runAll ops) :=
  Attempt.keeps_mapM (fun op => (keepsSeeds_run op).outcome) ops

theorem keepsSeeds_seedDemo : KeepsSeeds seedDemo := by
  have hcommand (text : String) : KeepsSeeds (seedCommand text) := by
    refine (keepsSeeds_execute text none).bind fun r => ?_
    split
    · exact Attempt.keeps_throw _
    · exact Attempt.keeps_pure _
  have hstate : KeepsSeeds Work.state := fun _ => rfl
  refine (Attempt.keeps_forM hcommand _).bind fun _ => hstate.bind fun e => ?_
  refine (keepsSeeds_whileStarted _).bind fun users => ?_
  split
  · exact (Attempt.keeps_forM hcommand _).bind fun _ _ => rfl
  · exact Attempt.keeps_pure _

theorem seeds_start (hstarted : e.started = false) : (start.run (e, w)).2.1.seeds = e.seeds := by
  have hserve : KeepsSeeds (serve e.seeds e.dataDir) := by
    intro y
    unfold serve
    rw [Attempt.run_bind_of_ok (Work.run_state _), Attempt.run_bind_of_ok (Work.run_setState _ _)]
    split
    · exact keepsSeeds_seedDemo.bind (fun _ _ => rfl) ({ y.1 with started := true }, y.2)
    · rfl
  rw [run_start_eq hstarted]
  exact (keepsSeeds_onRegistry _).bind (fun _ => hserve) _

end seeds

/-! ## Restarting -/

/-- An engine is made over a directory and started without seeding, and some operations are run on
it. -/
def running {σ : Type} (dataDir : Path) (standard : String) (ops : List Operation) :
    Work σ Engine := do
  let e ← make dataDir standard false
  let (result, e) ← Work.beside e do
    start
    Operation.runAll ops
  let _ ← Attempt.ofExcept result
  return e

theorem run_running {σ : Type} {x : σ} {e₀ : Engine} {w₀ : World} {dataDir : Path}
    (hmake : (make dataDir standard false : Work σ Engine).run (x, w) = (.ok e₀, (x, w₀)))
    (ops : List Operation) {r : Except Fault (List (Except Fault Answer))} {y : Engine × World}
    (hy : (do start; Operation.runAll ops : Work Engine _).run (e₀, w₀) = (r, y)) :
    (running dataDir standard ops).run (x, w) = (r.map fun _ => y.1, (x, y.2)) := by
  have hbeside := Work.run_beside e₀ (do start; Operation.runAll ops) (x, w₀)
  rw [hy] at hbeside
  unfold running
  rw [Attempt.run_bind_of_ok hmake, Attempt.run_bind_of_ok hbeside]
  cases r <;> rfl

/-- A running engine keeps some databases, the one that serves among them. -/
theorem exists_at_of_running {σ : Type} (x : σ) {w₁ : World} {dataDir : Path}
    {ops : List Operation} (hs : w.files.Sane) (hb : w.files.Bare dataDir)
    (hkept : Operation.dropDatabase standard ∉ ops)
    (hrun : (running dataDir standard ops).run (x, w) = (.ok e, (x, w₁))) :
    ∃ root m, At ⟨w.files.anchor, dataDir⟩ root standard true (e, w₁) m ∧
      standard ∈ Keyed.keys m ∧ e.seeds = false := by
  obtain ⟨e₀, w₀, root, hmake, hseeds, hat⟩ := run_make hs hb standard false x
  obtain ⟨hresult, hstarted⟩ := hat.run_start
  let site : Memory.Site := ⟨w.files.anchor, dataDir⟩
  have hkeys : ((Memory.start site standard false).run []).1 = .ok () →
      standard ∈ Keyed.keys ((Memory.start site standard false).run []).2 := Memory.keys_start
  have hfirst : ((start).run (e₀, w₀)).2.1.seeds = false :=
    (seeds_start hat.started).trans hseeds
  rw [hseeds] at hresult hstarted
  rw [← hresult] at hkeys
  rcases hstart : (start).run (e₀, w₀) with ⟨f | _, y⟩
  · rw [run_running hmake ops (Attempt.run_bind_of_error hstart)] at hrun
    cases hrun
  · rcases hops : (Operation.runAll ops).run y with ⟨answers, z⟩
    rw [run_running hmake ops ((Attempt.run_bind_of_ok hstart).trans hops)] at hrun
    rw [hstart] at hstarted hkeys hfirst
    have hend := (Operation.simulates_runAll ops y _ (hstarted rfl)).2
    have hlast := (keepsSeeds_runAll ops y).trans hfirst
    rw [hops] at hend hlast
    cases answers with
    | error f => cases hrun
    | ok answers =>
      cases hrun
      exact ⟨root, _, hend, Operation.keys_replay hkept (hkeys rfl), hlast⟩

/-- Whatever is asked of an engine, it runs if it could be started, and keeps what there is in
memory. -/
theorem exists_running {σ : Type} (x : σ) {dataDir : Path} (hs : w.files.Sane)
    (hb : w.files.Bare dataDir)
    (hstart : ((Memory.start ⟨w.files.anchor, dataDir⟩ standard false).run []).1 = .ok ())
    (ops : List Operation) :
    ∃ e w₁ root, (running dataDir standard ops).run (x, w) = (.ok e, (x, w₁)) ∧
      At ⟨w.files.anchor, dataDir⟩ root standard true (e, w₁)
        ((Operation.replay ⟨w.files.anchor, dataDir⟩ standard ops).run
          ((Memory.start ⟨w.files.anchor, dataDir⟩ standard false).run []).2).2 := by
  obtain ⟨e₀, w₀, root, hmake, hseeds, hat⟩ := run_make hs hb standard false x
  obtain ⟨hresult, hstarted⟩ := hat.run_start
  rw [hseeds] at hresult hstarted
  rw [hstart] at hresult
  rcases hbegun : (start).run (e₀, w₀) with ⟨result, y⟩
  rw [hbegun] at hresult hstarted
  obtain rfl : result = .ok () := hresult
  have hend := (Operation.simulates_runAll ops y _ (hstarted rfl)).2
  obtain ⟨answers, z, hops, -⟩ := Attempt.exists_run_mapM (I := fun _ => True)
    (P := fun _ _ => True) (f := fun op : Operation => op.run.outcome) (l := ops) (s := y)
    (fun op _ s _ => ⟨_, _, rfl, trivial, trivial, fun _ _ => trivial⟩) trivial
  have hz : (Operation.runAll ops).run y = (.ok answers, z) := hops
  rw [hz] at hend
  exact ⟨z.1, z.2, root, run_running hmake ops ((Attempt.run_bind_of_ok hbegun).trans hops),
    hend⟩

/-- A stop and a start after it, of the same engine or of a new one, lose nothing. -/
theorem restart_contents_perm {σ : Type} (x : σ) {w₁ : World} {dataDir : Path}
    {ops : List Operation} (hs : w.files.Sane) (hb : w.files.Bare dataDir)
    (hkept : Operation.dropDatabase standard ∉ ops)
    (hrun : (running dataDir standard ops).run (x, w) = (.ok e, (x, w₁))) :
    ∃ stopped w₂, stop.run (e, w₁) = (.ok (), (stopped, w₂)) ∧
      (∃ y, start.run (stopped, w₂) = (.ok (), y) ∧
        (contents y).Perm (contents (e, w₁))) ∧
      ∀ w₃ : World, w₃.files = w₂.files → ∃ e' w₄,
        (running dataDir standard []).run (x, w₃) = (.ok e', (x, w₄)) ∧
          (contents (e', w₄)).Perm (contents (e, w₁)) := by
  obtain ⟨root, m, hat, hstandard, hseeds⟩ := exists_at_of_running x hs hb hkept hrun
  obtain ⟨w₂, hstop, hfiles⟩ := hat.run_stop
  have hagain (seeds : Bool) (hseeds : seeds = false) (w₃ : World)
      (hw₃ : w₃.files = w₂.files) :
      ∃ y, start.run (⟨standard, seeds, false, ⟨dataDir, []⟩, []⟩, w₃) = (.ok (), y) ∧
        (contents y).Perm (contents (e, w₁)) := by
    have hsame : w₃.files = w₁.files := hw₃.trans hfiles
    have hregistry : Registry.Shows ⟨w.files.anchor, dataDir⟩ root w₃.files e.registry m := by
      rw [hsame]
      exact hat.registry
    obtain ⟨e', w', m', hstart, hfiles', hperm, hat'⟩ :=
      run_start_again (e := ⟨standard, seeds, false, ⟨dataDir, []⟩, []⟩) rfl
        hseeds rfl hregistry hstandard
    exact ⟨(e', w'), hstart, hat.contents_perm hat' (hfiles'.trans hsame) hperm⟩
  refine ⟨_, w₂, hstop, hagain e.seeds hseeds w₂ rfl, fun w₃ hw₃ => ?_⟩
  have hmake : (make dataDir standard false : Work σ Engine).run (x, w₃) =
      (.ok ⟨standard, false, false, ⟨dataDir, []⟩, []⟩, (x, w₃)) := by
    have hensure : (Work.ensureDirectory dataDir : Work σ Unit).run (x, w₃) =
        (.ok (), (x, w₃)) := by
      have hrooted : Rooted w₃.files dataDir root := by
        rw [hw₃, hfiles]
        exact hat.registry.rooted
      rw [Work.run_ensureDirectory, hrooted.ensureDirectory]
    unfold make
    rw [Attempt.run_bind_of_ok hensure]
    rfl
  obtain ⟨y, hstart, hperm⟩ := hagain false rfl w₃ hw₃
  exact ⟨y.1, y.2, run_running hmake [] (Attempt.run_bind_of_ok hstart), hperm⟩

/-- Two databases, one of which is gone before the stop, and a table with a row that is written
twice. -/
def errands : List Operation :=
  [.createDatabase "sales", .createDatabase "old", .dropDatabase "old",
    .execute "CREATE TABLE users (id INT, name STRING UNIQUE)" (some "sales"),
    .execute "INSERT INTO users VALUES (1, 'Ann')" (some "sales"),
    .execute "UPDATE users SET name = 'Anne' WHERE id = 1" (some "sales"),
    .execute "INSERT INTO users VALUES (1, 'Ben')" (some "sales")]

theorem restart_contents_perm_errands : ∃ e w₁,
    (running ["data"] "default" errands).run ((), World.empty "/") = (.ok e, ((), w₁)) ∧
      ∃ stopped w₂, stop.run (e, w₁) = (.ok (), (stopped, w₂)) ∧
        (∃ y, start.run (stopped, w₂) = (.ok (), y) ∧
          (contents y).Perm (contents (e, w₁))) ∧
        ∀ w₃ : World, w₃.files = w₂.files → ∃ e' w₄,
          (running ["data"] "default" []).run ((), w₃) = (.ok e', ((), w₄)) ∧
            (contents (e', w₄)).Perm (contents (e, w₁)) := by
  have hs : (World.empty "/").files.Sane := sane_empty "/"
  have hb : (World.empty "/").files.Bare ["data"] := bare_empty "/" (by decide)
  have hstart : ((Memory.start ⟨"/", ["data"]⟩ "default" false).run []).1 = .ok () := rfl
  obtain ⟨e, w₁, -, hrun, -⟩ := exists_running () hs hb hstart errands
  have hkept : Operation.dropDatabase "default" ∉ errands := by decide
  exact ⟨e, w₁, hrun, restart_contents_perm () hs hb hkept hrun⟩

end Engine
end Tabulary
