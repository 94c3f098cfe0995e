import Tabulary.Proofs.Execution
import Tabulary.Proofs.Store.Failure

/-!
What commands leave alone.  A command is resolved and checked before anything is written, so one
that fails leaves the tables with their indexes, and all files, as they were, and so does a query.
-/

namespace Tabulary

open Attempt

/-! ## Tables -/

namespace Store

/-- A store without its open file and what was read ahead through it. -/
def detached (st : Store) : Store := { st with handle := none }

theorem detached_of_held {y z : Store × World} (h : held y = held z) :
    y.1.detached = z.1.detached ∧ y.2.files = z.2.files := by
  obtain ⟨⟨table, path, handle, dropped⟩, w⟩ := y
  obtain ⟨⟨table', path', handle', dropped'⟩, w'⟩ := z
  simp only [held, Prod.mk.injEq] at h
  obtain ⟨rfl, rfl, rfl, hfiles⟩ := h
  exact ⟨rfl, hfiles⟩

end Store

namespace Tables

def detached (ts : Tables) : Tables := ts.map fun t => (t.1, t.2.detached)

/-- The tables with their indexes, and all files. -/
def held (y : Tables × World) : Tables × Files := (y.1.detached, y.2.files)

variable {α : Type} {ts : Tables} {w : World} {table : String}

/-- What an operation leaves of the store of a table, it leaves of the tables. -/
theorem held_on {st : Store} {x : Work Store α} (hst : ts.lookup table = some st)
    (h : Store.held (x.run (st, w)).2 = Store.held (st, w)) :
    held ((on table x).run (ts, w)).2 = held (ts, w) := by
  obtain ⟨hdetached, hfiles⟩ := Store.detached_of_held h
  rw [run_on hst]
  refine Prod.ext (Keyed.map_set _ (fun old hold => ?_) (Keyed.mem_keys_of_lookup hst)) hfiles
  obtain rfl : st = old := Option.some.inj (hst.symm.trans hold)
  exact Prod.ext rfl hdetached.symm

theorem run_on_none (hst : ts.lookup table = none) (x : Work Store α) :
    (on table x).run (ts, w) = (.error (.engine (.noTable table)), (ts, w)) :=
  run_bind_of_error (run_get_none hst)

theorem keeps_on (table : String) {x : Work Store α} (hx : Keeps Store.held x) :
    Keeps held (on table x) := by
  rintro ⟨ts, w⟩
  cases hst : ts.lookup table with
  | none => rw [run_on_none hst]
  | some st => exact held_on hst (hx (st, w))

theorem spares_on (table : String) {x : Work Store α} (hx : Spares Store.held x) :
    Spares held (on table x) := by
  rintro ⟨ts, w⟩ e y hrun
  cases hst : ts.lookup table with
  | none =>
    rw [run_on_none hst] at hrun
    cases hrun
    rfl
  | some st =>
    have hfail : x.run (st, w) = (.error e, (x.run (st, w)).2) := by
      rw [run_on hst] at hrun
      exact run_of_fst (congrArg Prod.fst hrun)
    have hsame := held_on hst (hx _ _ _ hfail)
    rw [hrun] at hsame
    exact hsame

theorem keeps_get (table : String) : Keeps held (get table) := by
  rintro ⟨ts, w⟩
  cases hst : ts.lookup table with
  | none => rw [run_get_none hst]
  | some st => rw [run_get hst]

end Tables

/-! ## Queries -/

namespace Cursor

theorem keeps_openAll (c : Cursor) : Keeps Tables.held (openAll c) := by
  induction c with
  | scan table qualify pending =>
    refine (Tables.keeps_get table).bind fun st => ?_
    exact (Tables.keeps_on table Store.keeps_selectAll).bind fun rows => keeps_pure _
  | lookup table id pending =>
    refine (Tables.keeps_get table).bind fun st => ?_
    exact (Tables.keeps_on table (Store.keeps_select id)).bind fun row => keeps_pure _
  | filter child column value ih => exact ih.bind fun c => keeps_pure _
  | join left right leftColumn rightColumn inner outer waiting ihl ihr =>
    refine ihr.bind fun c => (keeps_ofExcept _).bind fun rows => ?_
    exact ihl.bind fun c' => keeps_pure _

end Cursor

theorem Plan.keeps_rows (p : Plan) : Keeps Tables.held p.rows :=
  (Cursor.keeps_openAll _).bind fun _ => keeps_ofExcept _

/-- A command that asks for rows. -/
def Command.isQuery : Command → Bool
  | .select _ _ | .join _ _ _ => true
  | _ => false

namespace Database

/-! ## Databases -/

def detached (d : Database) : Database := { d with tables := d.tables.detached }

/-- The database with its tables and their indexes, and all files. -/
def held (y : Database × World) : Database × Files := (y.1.detached, y.2.files)

variable {α : Type} {d : Database} {w : World}

theorem held_congr {ts : Tables} {w' : World}
    (h : Tables.held (ts, w') = Tables.held (d.tables, w)) :
    held ({ d with tables := ts }, w') = held (d, w) := by
  obtain ⟨htables, hfiles⟩ := Prod.mk.inj h
  exact Prod.ext (congrArg (fun ts => { d with tables := ts }) htables) hfiles

/-- What is recorded of the work beside the files is not looked at. -/
theorem held_of_files {y : Database × World} {w' : World} (h : w'.files = y.2.files) :
    held (y.1, w') = held y := Prod.ext rfl h

theorem keeps_onTables {x : Work Tables α} (hx : Keeps Tables.held x) : Keeps held (onTables x) :=
  fun y => held_congr (hx (y.1.tables, y.2))

theorem spares_onTables {x : Work Tables α} (hx : Spares Tables.held x) :
    Spares held (onTables x) := by
  rintro ⟨d, w⟩ e y hrun
  have hfail : x.run (d.tables, w) = (.error e, (x.run (d.tables, w)).2) :=
    run_of_fst (congrArg Prod.fst hrun)
  have hy : y = ({ d with tables := (x.run (d.tables, w)).2.1 }, (x.run (d.tables, w)).2.2) :=
    (congrArg Prod.snd hrun).symm
  rw [hy]
  exact held_congr (hx _ _ _ hfail)

theorem keeps_schemaOf (table : String) : Keeps held (schemaOf table) :=
  (keeps_onTables (Tables.keeps_get table)).bind fun _ => keeps_pure _

theorem spares_onTable (table : String) {x : Work Store α} (hx : Spares Store.held x) :
    Spares held (onTable table x) := spares_onTables (Tables.spares_on table hx)

theorem keeps_refuse (e : CommandError) : Keeps held (refuse e : Work Database α) := keeps_throw _

theorem keeps_select (table : String) (where? : Option Comparison) :
    Keeps held (select table where?) := by
  refine (keeps_schemaOf table).bind fun schema => (keeps_ofExcept _).bind fun plan => ?_
  exact (keeps_onTables plan.keeps_rows).bind fun rows => keeps_pure _

theorem keeps_join (left right : String) (on : Pairing) : Keeps held (join left right on) := by
  unfold join
  split
  · exact keeps_refuse _
  · refine (keeps_schemaOf left).bind fun l => (keeps_schemaOf right).bind fun r => ?_
    refine (keeps_ofExcept _).bind fun plan => ?_
    exact (keeps_onTables plan.keeps_rows).bind fun rows => keeps_pure _

theorem spares_insert (table : String) (literals : List Literal) :
    Spares held (insert table literals) := by
  refine (keeps_schemaOf table).bind_spares fun schema => ?_
  split
  · exact (keeps_refuse _).spares
  · refine (keeps_ofExcept _).bind_spares fun values =>
      (keeps_ofExcept _).bind_spares fun row => ?_
    exact (spares_onTable table (Store.spares_insert row)).bind fun _ => succeeds_pure _

theorem spares_update (table : String) (assignments : List (String × Literal)) (key : Comparison) :
    Spares held (update table assignments key) := by
  refine (keeps_schemaOf table).bind_spares fun schema =>
    (keeps_ofExcept _).bind_spares fun found => ?_
  refine (keeps_ofExcept _).bind_spares fun changes => ?_
  exact (spares_onTable table (Store.spares_updateValues _ _)).bind fun _ => succeeds_pure _

theorem spares_delete (table : String) (key : Comparison) : Spares held (delete table key) := by
  refine (keeps_schemaOf table).bind_spares fun schema =>
    (keeps_ofExcept _).bind_spares fun found => ?_
  exact (spares_onTable table (Store.spares_delete _)).bind fun _ => succeeds_pure _

/-! ## Commands -/

variable {site : Memory.Site} {place : Path} {start : Files} {name text : String}
  {m : Memory.Tables} {c : Command}

theorem keeps_run (h : c.isQuery = true) : Keeps held (run c) := by
  cases c with
  | select table where? => exact keeps_select table where?
  | join left right on => exact keeps_join left right on
  | createTable table columns ifNotExists => cases h
  | dropTable table ifExists => cases h
  | insert table values => cases h
  | update table assignments key => cases h
  | delete table key => cases h

/-- A command that fails leaves everything as it was.  One that adds or removes a table does so
because the files of the database are in order, and any other one on whatever there is. -/
theorem At.held_of_error (h : At site place start name (d, w) m) {f : Fault} {y : Database × World}
    (hrun : (run c).run (d, w) = (.error f, y)) : held y = held (d, w) := by
  cases c with
  | createTable table columns ifNotExists =>
    exact congrArg held ((h.create table columns ifNotExists).eq_of_error hrun)
  | dropTable table ifExists => exact congrArg held ((h.remove table ifExists).eq_of_error hrun)
  | insert table values => exact spares_insert table values _ _ _ hrun
  | select table where? => exact (keeps_select table where?).spares _ _ _ hrun
  | join left right on => exact (keeps_join left right on).spares _ _ _ hrun
  | update table assignments key => exact spares_update table assignments key _ _ _ hrun
  | delete table key => exact spares_delete table key _ _ _ hrun

/-- A command that comes to a result of its own has not failed. -/
theorem returns_run (c : Command) : Returns (fun r => r.errorKind = none) (run c) := by
  cases c with
  | createTable table columns ifNotExists =>
    refine Returns.bind fun d => ?_
    split
    · exact returns_pure rfl
    · exact Returns.bind fun _ => Returns.bind fun _ => returns_pure rfl
  | dropTable table ifExists =>
    refine Returns.bind fun d => ?_
    split
    · exact returns_pure rfl
    · exact Returns.bind fun _ => returns_pure rfl
  | insert table values =>
    refine Returns.bind fun schema => ?_
    split
    · exact returns_throw _
    · exact Returns.bind fun _ => Returns.bind fun _ => Returns.bind fun _ => returns_pure rfl
  | select table where? =>
    exact Returns.bind fun _ => Returns.bind fun _ => Returns.bind fun _ => returns_pure rfl
  | join left right on =>
    show Returns _ (join left right on)
    unfold join
    split
    · exact returns_throw _
    · exact Returns.bind fun _ => Returns.bind fun _ => Returns.bind fun _ => Returns.bind fun _ =>
        returns_pure rfl
  | update table assignments key =>
    exact Returns.bind fun _ => Returns.bind fun _ => Returns.bind fun _ => Returns.bind fun _ =>
      returns_pure rfl
  | delete table key =>
    exact Returns.bind fun _ => Returns.bind fun _ => Returns.bind fun _ => returns_pure rfl

/-- A run of a text that comes to no result, or to one with the kind of an error. -/
def Fails (r : Except Fault Result) : Prop :=
  ∀ result, r = .ok result → result.errorKind ≠ none

theorem run_runText_of_ok (hc : Command.ofText text = .ok c) (y : Database × World) :
    (runText text).run y = (.ok (c.kind, ((run c).run y).1), ((run c).run y).2) := by
  unfold runText
  rw [hc]
  rfl

theorem run_runText_of_error {e : EngineError} (hc : Command.ofText text = .error e)
    (y : Database × World) : (runText text).run y = (.ok ("unknown", .error (.engine e)), y) := by
  unfold runText
  rw [hc]
  rfl

/-- The text of a query leaves everything as it was. -/
theorem keeps_execute (hc : Command.ofText text = .ok c) (hq : c.isQuery = true) :
    Keeps held (execute text) := by
  rintro ⟨d, w⟩
  obtain ⟨w', hrun, hfiles⟩ :=
    run_execute (run_runText_of_ok hc (d, { w with database := some d.name }))
  rw [hrun, held_of_files hfiles]
  exact keeps_run hq (d, { w with database := some d.name })

/-- The text of a command that fails leaves everything as it was, and so does a text that is no
command. -/
theorem At.held_of_fails (h : At site place start name (d, w) m)
    (hfails : Fails ((execute text).run (d, w)).1) :
    held ((execute text).run (d, w)).2 = held (d, w) := by
  have h' : At site place start name (d, { w with database := some d.name }) m := h.congr rfl
  cases hc : Command.ofText text with
  | error e =>
    obtain ⟨w', hrun, hfiles⟩ :=
      run_execute (run_runText_of_error hc (d, { w with database := some d.name }))
    rw [hrun]
    exact Prod.ext rfl hfiles
  | ok c =>
    obtain ⟨w', hrun, hfiles⟩ :=
      run_execute (run_runText_of_ok hc (d, { w with database := some d.name }))
    rw [hrun] at hfails ⊢
    have hend : held ((run c).run (d, { w with database := some d.name })).2 = held (d, w) := by
      generalize hcommand : (run c).run (d, { w with database := some d.name }) =
        ending at hfails ⊢
      obtain ⟨r, y⟩ := ending
      cases r with
      | error f => exact h'.held_of_error hcommand
      | ok result => exact absurd (returns_run c _ _ _ hcommand) (hfails result rfl)
    exact (held_of_files hfiles).trans hend

theorem At.held_execute (h : At site place start name (d, w) m)
    (hr : Fails ((execute text).run (d, w)).1 ∨
      ∃ c, Command.ofText text = .ok c ∧ c.isQuery = true) :
    held ((execute text).run (d, w)).2 = held (d, w) := by
  rcases hr with hfails | ⟨c, hc, hq⟩
  · exact h.held_of_fails hfails
  · exact keeps_execute hc hq (d, w)

end Database
end Tabulary
