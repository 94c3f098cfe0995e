import Tabulary.Proofs.Engine.Basic

/-!
Sessions of an engine.  Main statement: from the making of an engine over an empty directory on, its
start and all operations after it, whatever they are and whichever of them fail, come to what they
come to on databases that are kept in memory (`session_eq_memory`).
-/

namespace Tabulary
namespace Engine

open Files

/-- What can be asked of a started engine. -/
inductive Operation where
  | createDatabase (name : String)
  | dropDatabase (name : String)
  | databases
  | tables (database : String)
  | execute (text : String) (database? : Option String)
deriving DecidableEq, Repr

inductive Answer where
  | done
  | names (names : List String)
  | result (r : Result)
deriving DecidableEq, Repr

namespace Operation

def run : Operation → Work Engine Answer
  | createDatabase name => do Engine.createDatabase name; return .done
  | dropDatabase name => do Engine.dropDatabase name; return .done
  | databases => do return .names (← Engine.databases)
  | tables database => do return .names (← Engine.tables database)
  | execute text database? => do return .result (← Engine.execute text database?)

/-- The same operation on the databases in memory. -/
def onMemory (site : Memory.Site) (standard : String) : Operation → Attempt Fault Memory Answer
  | createDatabase name => do let _ ← Memory.createDatabase site name; return .done
  | dropDatabase name => do Memory.dropDatabase name; return .done
  | databases => do return .names (Keyed.keys (← get : Memory))
  | tables database => do return .names (Keyed.keys (← Memory.find database))
  | execute text database? => do return .result (← Memory.execute site standard text database?)

/-- Operations one after another, each with its answer or its failure. -/
def runAll (ops : List Operation) : Work Engine (List (Except Fault Answer)) :=
  ops.mapM fun op => op.run.outcome

def replay (site : Memory.Site) (standard : String) (ops : List Operation) :
    Attempt Fault Memory (List (Except Fault Answer)) :=
  ops.mapM fun op => (op.onMemory site standard).outcome

/-- What is asked of databases in memory from their first start on. -/
def memorySession (site : Memory.Site) (standard : String) (seeds : Bool) (ops : List Operation) :
    Attempt Fault Memory (List (Except Fault Answer)) := do
  Memory.start site standard seeds
  replay site standard ops

/-- An engine is made and started, and operations are run on it. -/
def session {σ : Type} (dataDir : Path) (standard : String) (seeds : Bool) (ops : List Operation) :
    Work σ (List (Except Fault Answer)) := do
  let e ← Engine.make dataDir standard seeds
  let (result, _) ← Work.beside e do
    Engine.start
    runAll ops
  Attempt.ofExcept result

variable {site : Memory.Site} {root : Path} {standard : String}

theorem simulates_run (op : Operation) :
    Attempt.Simulates (At site root standard true) op.run (op.onMemory site standard) := by
  cases op with
  | createDatabase name =>
    have h : Attempt.Simulates (At site root standard true) _ _ :=
      (simulates_createDatabase name).bind fun _ => Attempt.simulates_pure Answer.done
    simp only [bind_assoc, pure_bind] at h
    exact h
  | dropDatabase name =>
    exact (simulates_dropDatabase name).bind fun _ => Attempt.simulates_pure Answer.done
  | databases =>
    have h : Attempt.Simulates (At site root standard true) _ _ :=
      simulates_databases.bind fun names => Attempt.simulates_pure (Answer.names names)
    simp only [bind_assoc, pure_bind] at h
    exact h
  | tables database =>
    have h : Attempt.Simulates (At site root standard true) _ _ :=
      (simulates_tables database).bind fun names => Attempt.simulates_pure (Answer.names names)
    simp only [bind_assoc, pure_bind] at h
    exact h
  | execute text database? =>
    exact (simulates_execute text database?).bind fun r => Attempt.simulates_pure (Answer.result r)

theorem simulates_runAll (ops : List Operation) :
    Attempt.Simulates (At site root standard true) (runAll ops) (replay site standard ops) :=
  Attempt.simulates_mapM fun op _ => (simulates_run op).outcome

/-- Whatever is asked of an engine over an empty directory, the start and every answer after it are
what they are on databases in memory. -/
theorem session_eq_memory {σ : Type} (x : σ) (w : World) {dataDir : Path} (hs : w.files.Sane)
    (hb : w.files.Bare dataDir) (standard : String) (seeds : Bool) (ops : List Operation) :
    ((session dataDir standard seeds ops).run (x, w)).1 =
      ((memorySession ⟨w.files.anchor, dataDir⟩ standard seeds ops).run []).1 := by
  obtain ⟨e, w', root, hmake, rfl, hat⟩ := run_make hs hb standard seeds x
  obtain ⟨hresult, hstarted⟩ := hat.run_start
  have hbeside : ((session dataDir standard e.seeds ops).run (x, w)).1 =
      ((do start; runAll ops).run (e, w')).1 := by
    unfold session
    rw [Attempt.run_bind_of_ok hmake, Attempt.run_bind_of_ok (Work.run_beside _ _ _)]
    rfl
  rw [hbeside]
  unfold memorySession
  rw [Attempt.run_bind, Attempt.run_bind]
  generalize (start).run (e, w') = started at hresult hstarted
  generalize (Memory.start ⟨w.files.anchor, dataDir⟩ standard e.seeds).run [] =
    kept at hresult hstarted
  obtain ⟨result, y⟩ := started
  obtain ⟨result', m⟩ := kept
  obtain rfl : result = result' := hresult
  cases result with
  | error f => rfl
  | ok _ => exact (simulates_runAll ops y m (hstarted rfl)).1

/-- Two names of one directory, the second of which is free once the first one's database is gone,
and with it the table that was made there. -/
theorem session_eq_memory_errands :
    (World.empty "/").files.Sane ∧ (World.empty "/").files.Bare ["data"] ∧
      ((session ["data"] "default" false
        [.createDatabase "sales", .createDatabase "sa/les", .createDatabase "..",
          .execute "CREATE TABLE pets (id INT, name STRING)" (some "sales"),
          .execute "INSERT INTO pets VALUES (1, 'Rex')" (some "sales"),
          .execute "INSERT INTO pets VALUES (1, 'Tom')" (some "sales"),
          .execute "SELECT * FROM pets WHERE id = 1" (some "sales"),
          .execute "" (some "sales"), .databases, .dropDatabase "sales", .createDatabase "sa/les",
          .tables "sales", .execute "SELECT * FROM pets" (some "sa/les"), .databases]).run
            ((), World.empty "/")).1 =
        .ok [.ok .done, .error (.engine (.databaseExists "sa/les")),
          .error (.engine (.schema (.databaseName ".."))),
          .ok (.result (.done "OK: Table 'pets' created" 0)),
          .ok (.result (.done "OK: 1 row inserted" 1)),
          .ok (.result (.ofError (.duplicateKey (.int 1)))),
          .ok (.result (.query ["id", "name"] [⟨["id", "name"], [.int 1, .text "Rex"]⟩])),
          .ok (.result (.ofError (.command .empty))), .ok (.names ["default", "sales"]), .ok .done,
          .ok .done, .error (.engine (.noDatabase "sales")),
          .ok (.result (.ofError (.noTable "pets"))), .ok (.names ["default", "sa/les"])] := by
  have hs : (World.empty "/").files.Sane := sane_empty "/"
  have hb : (World.empty "/").files.Bare ["data"] := bare_empty "/" (by decide)
  refine ⟨hs, hb, ?_⟩
  rw [session_eq_memory () (World.empty "/") hs hb]
  decide +kernel

end Operation
end Engine
end Tabulary
