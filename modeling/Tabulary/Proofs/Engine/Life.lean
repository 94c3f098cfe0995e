import Tabulary.Proofs.Catalog.Directories
import Tabulary.Proofs.Engine.Restart

/-!
The life of a data directory.  Engines are made over it one after another, and each is started,
stopped and asked for whatever it can be asked for.  At any time the files are those of some
databases, and an engine that is started has these open (`Lived.keeping`).
-/

namespace Tabulary

open Files

/-- The rows of a table are read. -/
theorem Database.simulates_rows {site : Memory.Site} {place : Path} {start : Files} {name : String}
    (table : String) :
    Attempt.Simulates (At site place start name) (onTable table Store.selectAll)
      (do return (← Memory.Tables.find table).rows) := by
  rintro ⟨d, w⟩ m h
  cases ht : m.lookup table with
  | none =>
    have hrun : (Tables.on table Store.selectAll).run (d.tables, w) =
        (.error (.engine (.noTable table)), (d.tables, w)) :=
      Attempt.run_bind_of_error (Tables.run_get_none (h.lookup_none ht))
    obtain ⟨z, hz, hat⟩ := h.run_onTables hrun h.tablesAt
    exact Attempt.agree_of_run hz (Attempt.run_bind_of_error (run_find_none ht)) hat
  | some t =>
    obtain ⟨y, hrun, hy⟩ := h.tablesAt.run_read (g := fun rows => rows) ht fun ho =>
      ho.selectAll_ends
    obtain ⟨z, hz, hat⟩ := h.run_onTables hrun hy
    exact Attempt.agree_of_run hz (Attempt.run_bind_of_ok (run_find ht)) hat

/-- The rows of a table among the databases in memory. -/
def Memory.rows (database table : String) : Attempt Fault Memory Rows :=
  on database do return (← Tables.find table).rows

theorem Memory.state_rows (database table : String) (m : Memory) :
    ((rows database table).run m).2 = m := by
  cases hm : m.lookup database with
  | none =>
    have hrun : (rows database table).run m = (.error (.engine (.noDatabase database)), m) :=
      Attempt.run_bind_of_error (Registry.run_find_none hm)
    rw [hrun]
  | some tables =>
    have hfind : ((Tables.find table).run tables).2 = tables := by
      cases ht : tables.lookup table with
      | none => rw [Database.run_find_none ht]
      | some t => rw [Database.run_find ht]
    unfold rows
    rw [Registry.run_memory_on hm, Attempt.snd_run_andReturn, hfind, Keyed.set_of_lookup hm]

namespace Engine

/-- What an engine over a data directory and its world come to.  The directory was empty when the
first engine was made, and nobody else has changed it since. -/
inductive Lived (dataDir : Path) : Engine × World → Prop
  | made {w w' : World} {e : Engine} {standard : String} {seeds : Bool} (sane : w.files.Sane)
      (bare : w.files.Bare dataDir)
      (run : (make dataDir standard seeds : Work Unit Engine).run ((), w) = (.ok e, ((), w'))) :
      Lived dataDir (e, w')
  | replaced {w w' : World} {e e' : Engine} {standard : String} {seeds : Bool}
      (lived : Lived dataDir (e, w))
      (run : (make dataDir standard seeds : Work Unit Engine).run ((), w) = (.ok e', ((), w'))) :
      Lived dataDir (e', w')
  | started {x : Engine × World} (lived : Lived dataDir x) : Lived dataDir (start.run x).2
  | stopped {x : Engine × World} (lived : Lived dataDir x) : Lived dataDir (stop.run x).2
  | asked {x : Engine × World} (op : Operation) (lived : Lived dataDir x) :
      Lived dataDir (op.run.run x).2
  | read {x : Engine × World} (database table : String) (lived : Lived dataDir x) :
      Lived dataDir ((rows database table).run x).2

/-- The files are those of some databases, which are open if the engine is started. -/
structure Keeping (site : Memory.Site) (root : Path) (x : Engine × World) : Prop where
  located : x.1.dataDir = site.directory
  databases : ∃ r m, Registry.Shows site root x.2.files r m ∧
    (x.1.started = true → r = x.1.registry)

/-- Something that can be said of the databases in memory from the first start on. -/
structure Lasting (P : Memory → Prop) : Prop where
  nil : P []
  perm {m m' : Memory} (hperm : m'.Perm m) (h : P m) : P m'
  reopen {m : Memory} (site : Memory.Site) (standard : String) (seeds : Bool) (h : P m) :
    P ((Memory.reopen site standard seeds).run m).2
  operation {m : Memory} (site : Memory.Site) (standard : String) (op : Operation) (h : P m) :
    P ((op.onMemory site standard).run m).2

/-- The files are those of some databases of which something can be said, and these are open if the
engine is started. -/
structure KeepingOnly (P : Memory → Prop) (site : Memory.Site) (root : Path)
    (x : Engine × World) : Prop where
  located : x.1.dataDir = site.directory
  databases : ∃ r m, Registry.Shows site root x.2.files r m ∧ P m ∧
    (x.1.started = true → r = x.1.registry)

variable {P : Memory → Prop} {site : Memory.Site} {root : Path} {standard : String}
  {started : Bool} {e : Engine} {w : World} {m : Memory} {x : Engine × World}

theorem lasting_true : Lasting fun _ => True where
  nil := trivial
  perm _ _ := trivial
  reopen _ _ _ _ := trivial
  operation _ _ _ _ := trivial

theorem KeepingOnly.keeping (h : KeepingOnly P site root x) : Keeping site root x where
  located := h.located
  databases := by
    obtain ⟨r, m, hshows, -, hopen⟩ := h.databases
    exact ⟨r, m, hshows, hopen⟩

theorem At.keepingOnly (h : At site root standard started x m) (hm : P m) :
    KeepingOnly P site root x where
  located := h.registry.located
  databases := ⟨_, m, h.registry, hm, fun _ => rfl⟩

theorem KeepingOnly.exists_at (h : KeepingOnly P site root x) (hstarted : x.1.started = true) :
    ∃ m, P m ∧ At site root x.1.defaultDatabase true x m := by
  obtain ⟨r, m, hshows, hm, hopen⟩ := h.databases
  obtain rfl := hopen hstarted
  exact ⟨m, hm, hshows, rfl, hstarted⟩

theorem Keeping.exists_at (h : Keeping site root x) (hstarted : x.1.started = true) :
    ∃ m, At site root x.1.defaultDatabase true x m := by
  obtain ⟨r, m, hshows, hopen⟩ := h.databases
  obtain rfl := hopen hstarted
  exact ⟨m, hshows, rfl, hstarted⟩

/-- An engine that is not started refuses, and stays as it is. -/
theorem run_whileStarted_of_stopped {α : Type} (h : x.1.started = false) (y : Work Registry α) :
    (whileStarted y).run x = (.error .engineStopped, x) := by
  unfold whileStarted
  rw [Attempt.run_bind_of_ok (Work.run_state _), h]
  rfl

theorem run_execute_of_stopped (h : x.1.started = false) (text : String)
    (database? : Option String) : (execute text database?).run x = (.error .engineStopped, x) := by
  unfold execute
  rw [Attempt.run_bind_of_ok (Work.run_state _)]
  exact Attempt.run_bind_of_error (run_whileStarted_of_stopped h _)

/-- Nothing can be asked of an engine that is not started. -/
theorem Operation.run_of_stopped (h : x.1.started = false) (op : Operation) :
    op.run.run x = (.error .engineStopped, x) := by
  cases op with
  | createDatabase name =>
    exact Attempt.run_bind_of_error
      (Attempt.run_bind_of_error (run_whileStarted_of_stopped h _))
  | dropDatabase name =>
    exact Attempt.run_bind_of_error
      (Attempt.run_bind_of_error (run_whileStarted_of_stopped h _))
  | databases => exact Attempt.run_bind_of_error (run_whileStarted_of_stopped h _)
  | tables database => exact Attempt.run_bind_of_error (run_whileStarted_of_stopped h _)
  | execute text database? =>
    exact Attempt.run_bind_of_error (run_execute_of_stopped h text database?)

theorem simulates_rows (database table : String) :
    Attempt.Simulates (At site root standard true) (rows database table)
    (Memory.rows database table) :=
  simulates_whileStarted (Registry.simulates_on fun _ => Database.simulates_rows table)

namespace KeepingOnly

theorem run_operation (h : KeepingOnly P site root x) (hP : Lasting P) (op : Operation) :
    KeepingOnly P site root (op.run.run x).2 := by
  cases hstarted : x.1.started with
  | false =>
    rw [op.run_of_stopped hstarted]
    exact h
  | true =>
    obtain ⟨m, hm, hat⟩ := h.exists_at hstarted
    exact (Operation.simulates_run op x m hat).2.keepingOnly (hP.operation _ _ op hm)

theorem stop (h : KeepingOnly P site root x) : KeepingOnly P site root (Engine.stop.run x).2 := by
  cases hstarted : x.1.started with
  | false =>
    have hrun : Engine.stop.run x = (.error .engineStopped, x) :=
      Attempt.run_bind_of_error (run_whileStarted_of_stopped hstarted _)
    rw [hrun]
    exact h
  | true =>
    obtain ⟨e, w⟩ := x
    obtain ⟨m, hm, hat⟩ := h.exists_at hstarted
    obtain ⟨w', hstop, hfiles⟩ := hat.run_stop
    rw [hstop]
    refine ⟨rfl, e.registry, m, ?_, hm, nofun⟩
    show Registry.Shows site root w'.files e.registry m
    rw [hfiles]
    exact hat.registry

theorem start (h : KeepingOnly P site root x) (hP : Lasting P) :
    KeepingOnly P site root (Engine.start.run x).2 := by
  obtain ⟨e, w⟩ := x
  cases hstarted : e.started with
  | true =>
    have hrun : Engine.start.run (e, w) = (.error .engineStarted, (e, w)) := by
      unfold Engine.start
      rw [Attempt.run_bind_of_ok (Work.run_state _)]
      dsimp only
      rw [hstarted]
      rfl
    rw [hrun]
    exact h
  | false =>
    obtain ⟨r, m, hshows, hm, -⟩ := h.databases
    obtain ⟨m', hperm, -, started, hat, -⟩ := run_start_over hstarted h.located hshows
    exact hat.keepingOnly (hP.reopen _ _ _ (hP.perm hperm hm))

/-- A new engine takes over the files. -/
theorem make {w' : World} {e' : Engine} {seeds : Bool} (h : KeepingOnly P site root (e, w))
    (hrun : (Engine.make site.directory standard seeds : Work Unit Engine).run ((), w) =
      (.ok e', ((), w'))) :
    KeepingOnly P site root (e', w') := by
  obtain ⟨r, m, hshows, hm, -⟩ := h.databases
  rw [run_make_again hshows.rooted] at hrun
  cases hrun
  exact ⟨rfl, r, m, hshows, hm, nofun⟩

theorem rows (h : KeepingOnly P site root x) (database table : String) :
    KeepingOnly P site root ((Engine.rows database table).run x).2 := by
  cases hstarted : x.1.started with
  | false =>
    have hrun : (Engine.rows database table).run x = (.error .engineStopped, x) :=
      run_whileStarted_of_stopped hstarted _
    rw [hrun]
    exact h
  | true =>
    obtain ⟨m, hm, hat⟩ := h.exists_at hstarted
    have hend := (simulates_rows database table x m hat).2
    rw [Memory.state_rows] at hend
    exact hend.keepingOnly hm

end KeepingOnly

/-! ## Lives -/

theorem Lived.runAll {dataDir : Path} (h : Lived dataDir x) (ops : List Operation) :
    Lived dataDir ((Operation.runAll ops).run x).2 := by
  induction ops generalizing x with
  | nil => exact h
  | cons op ops ih =>
    have hrest : ((Operation.runAll (op :: ops)).run x).2 =
        ((Operation.runAll ops).run (op.run.run x).2).2 := by
      unfold Operation.runAll
      rw [List.mapM_cons]
      exact Attempt.snd_run_andReturn _ _ _
    rw [hrest]
    exact ih (Lived.asked op h)

/-- An engine that is running has lived. -/
theorem lived_of_running {w₁ : World} {dataDir : Path} {ops : List Operation} (hs : w.files.Sane)
    (hb : w.files.Bare dataDir)
    (hrun : (running dataDir standard ops).run ((), w) = (.ok e, ((), w₁))) :
    Lived dataDir (e, w₁) := by
  obtain ⟨e₀, w₀, root, hmake, -, -⟩ := run_make hs hb standard false ()
  have hstart : Lived dataDir (start.run (e₀, w₀)).2 := .started (.made hs hb hmake)
  rcases hbegun : (start).run (e₀, w₀) with ⟨f | _, y⟩
  · rw [run_running hmake ops (Attempt.run_bind_of_error hbegun)] at hrun
    cases hrun
  · rw [hbegun] at hstart
    have hend := hstart.runAll ops
    rcases hops : (Operation.runAll ops).run y with ⟨answers, z⟩
    rw [hops] at hend
    rw [run_running hmake ops ((Attempt.run_bind_of_ok hbegun).trans hops)] at hrun
    cases answers with
    | error f => cases hrun
    | ok answers =>
      cases hrun
      exact hend

/-- The databases are in order at all times, and all is so that can be said of them in memory. -/
theorem Lived.keepingOnly {dataDir : Path} (hP : Lasting P) (h : Lived dataDir x) :
    ∃ anchor root, KeepingOnly P ⟨anchor, dataDir⟩ root x := by
  induction h with
  | @made w w' e standard seeds sane bare run =>
    obtain ⟨e', w'', root, hmake, -, hat⟩ := run_make sane bare standard seeds ()
    rw [hmake] at run
    cases run
    exact ⟨w.files.anchor, root, hat.keepingOnly hP.nil⟩
  | replaced lived run ih =>
    obtain ⟨anchor, root, hkeeping⟩ := ih
    exact ⟨anchor, root, hkeeping.make run⟩
  | started lived ih =>
    obtain ⟨anchor, root, hkeeping⟩ := ih
    exact ⟨anchor, root, hkeeping.start hP⟩
  | stopped lived ih =>
    obtain ⟨anchor, root, hkeeping⟩ := ih
    exact ⟨anchor, root, hkeeping.stop⟩
  | asked op lived ih =>
    obtain ⟨anchor, root, hkeeping⟩ := ih
    exact ⟨anchor, root, hkeeping.run_operation hP op⟩
  | read database table lived ih =>
    obtain ⟨anchor, root, hkeeping⟩ := ih
    exact ⟨anchor, root, hkeeping.rows database table⟩

/-- The databases are in order at all times. -/
theorem Lived.keeping {dataDir : Path} (h : Lived dataDir x) :
    ∃ anchor root, Keeping ⟨anchor, dataDir⟩ root x := by
  obtain ⟨anchor, root, hkeeping⟩ := h.keepingOnly lasting_true
  exact ⟨anchor, root, hkeeping.keeping⟩

/-- An engine looks for databases only when it is started, so no two of its stores have the same
file. -/
theorem Lived.paths_nodup {dataDir : Path} (h : Lived dataDir x) (hstarted : x.1.started = true) :
    (x.1.registry.databases.flatMap fun d => d.2.tables.map fun t => t.2.path).Nodup := by
  obtain ⟨anchor, root, hkeeping⟩ := h.keeping
  obtain ⟨m, hat⟩ := hkeeping.exists_at hstarted
  exact hat.registry.paths_nodup

end Engine
end Tabulary
