import Tabulary.Proofs.Catalog.Unchanged
import Tabulary.Proofs.Engine.Life

/-!
Commands that change nothing.  Main statement: whatever has been asked of the engines over a data
directory, a command that fails and a command that asks for rows leave all files, all databases with
their tables, and all indexes as they were (`unchanged_of_execute`).
-/

namespace Tabulary

/-! ## The registry -/

namespace Registry

def detached (r : Registry) : Registry :=
  { r with databases := r.databases.map fun d => (d.1, d.2.detached) }

/-- All databases with their tables and the indexes of these, and all files. -/
def held (y : Registry × World) : Registry × Files := (y.1.detached, y.2.files)

variable {r : Registry} {w : World} {name : String}

/-- What work on a database leaves of the database, it leaves of the registry. -/
theorem held_on {α : Type} {d : Database} {x : Work Database α}
    (hd : r.databases.lookup name = some d)
    (h : Database.held (x.run (d, w)).2 = Database.held (d, w)) :
    held ((on name x).run (r, w)).2 = held (r, w) := by
  obtain ⟨hdetached, hfiles⟩ := Prod.mk.inj h
  rw [run_on hd]
  refine Prod.ext (congrArg (fun ds => { r with databases := ds }) ?_) hfiles
  refine Keyed.map_set _ (fun old hold => ?_) (Keyed.mem_keys_of_lookup hd)
  obtain rfl : d = old := Option.some.inj (hd.symm.trans hold)
  exact Prod.ext rfl hdetached.symm

end Registry

namespace Engine

variable {site : Memory.Site} {root : Path} {standard text : String} {e : Engine} {w : World}
  {m : Memory} {database? : Option String}

/-- All databases with their tables and the indexes of these, and all files. -/
def held (x : Engine × World) : Registry × Files := Registry.held (x.1.registry, x.2)

/-- Where the databases are in order, a command that fails and a command that asks for rows leave
everything as it was. -/
theorem At.held_execute (h : At site root standard true (e, w) m)
    (hr : Database.Fails ((execute text database?).run (e, w)).1 ∨
      ∃ c, Command.ofText text = .ok c ∧ c.isQuery = true) :
    held ((execute text database?).run (e, w)).2 = held (e, w) := by
  rcases h.run_execute text database? with ⟨-, hrun⟩ | ⟨d, dispatchers, hd, hrun⟩
  · rw [hrun]
  · rw [hrun, run_onRegistry] at hr ⊢
    dsimp only at hr ⊢
    rw [Registry.run_on hd] at hr
    dsimp only at hr
    obtain ⟨d', tables, hd', -, hn, hshows⟩ :=
      (h.registry.databases.lookup (serving standard database?)).resolve_left fun hnone => by
        cases hd.symm.trans hnone.1
    obtain rfl : d' = d := Option.some.inj (hd'.symm.trans hd)
    have hat : Database.At site (root ++ [Name.sanitize (serving standard database?)]) w.files
        (serving standard database?) (d', w) tables :=
      ⟨hn, h.registry.anchor, hshows, Files.Edit.refl h.registry.sane⟩
    exact Registry.held_on hd (hat.held_execute hr)

/-- Whatever came before, a command that fails or asks for rows leaves the files, the databases with
their tables, and the indexes as they were. -/
theorem unchanged_of_execute {dataDir : Path} {x y : Engine × World} {r : Except Fault Result}
    (h : Lived dataDir x) (hrun : (execute text database?).run x = (r, y))
    (hr : Database.Fails r ∨ ∃ c, Command.ofText text = .ok c ∧ c.isQuery = true) :
    y.2.files = x.2.files ∧ y.1.registry.detached = x.1.registry.detached := by
  obtain ⟨anchor, root, hkeeping⟩ := h.keeping
  cases hstarted : x.1.started with
  | false =>
    rw [run_execute_of_stopped hstarted] at hrun
    cases hrun
    exact ⟨rfl, rfl⟩
  | true =>
    obtain ⟨m, hat⟩ := hkeeping.exists_at hstarted
    have hresult : ((execute text database?).run x).1 = r := congrArg Prod.fst hrun
    rw [← hresult] at hr
    have hheld := hat.held_execute hr
    rw [hrun] at hheld
    exact ⟨congrArg Prod.snd hheld, congrArg Prod.fst hheld⟩

/-- A table with one row. -/
def oneUser : List Operation :=
  [.execute "CREATE TABLE users (id INT, name STRING UNIQUE)" none,
    .execute "INSERT INTO users VALUES (1, 'Ann')" none]

/-- A row of a key that is taken is refused, and nothing has changed then. -/
theorem unchanged_of_execute_taken : ∃ e w r y,
    (running ["data"] "default" oneUser).run ((), World.empty "/") = (.ok e, ((), w)) ∧
    (execute "INSERT INTO users VALUES (1, 'Ben')" none).run (e, w) = (r, y) ∧
    r.map (·.errorKind) = .ok (some "DuplicateKey") ∧
    y.2.files = w.files ∧ y.1.registry.detached = e.registry.detached := by
  have hs : (World.empty "/").files.Sane := Files.sane_empty "/"
  have hb : (World.empty "/").files.Bare ["data"] := Files.bare_empty "/" (by decide)
  have hstart : ((Memory.start ⟨"/", ["data"]⟩ "default" false).run []).1 = .ok () := rfl
  obtain ⟨e, w, root, hrun, hat⟩ := exists_running () hs hb hstart oneUser
  have hresult := (simulates_execute "INSERT INTO users VALUES (1, 'Ben')" none _ _ hat).1
  rcases hexecute : (execute "INSERT INTO users VALUES (1, 'Ben')" none).run (e, w) with ⟨r, y⟩
  rw [hexecute] at hresult
  dsimp only at hresult
  have htaken : r.map (·.errorKind) = .ok (some "DuplicateKey") := by
    rw [hresult]
    decide +kernel
  have hfails : Database.Fails r := by
    rintro result rfl
    exact fun hnone => nomatch hnone.symm.trans (Except.ok.inj htaken)
  exact ⟨e, w, r, y, hrun, hexecute, htaken,
    unchanged_of_execute (lived_of_running hs hb hrun) hexecute (Or.inl hfails)⟩

end Engine
end Tabulary
