import Tabulary.Proofs.Catalog.Definition

/-!
Commands against a database that shows some tables.  Every command comes to what it comes to on the
tables, and the database shows the tables after it, whether it succeeds or fails.
-/

namespace Tabulary
namespace Database

open Files

variable {place : Path} {start : Files} {name table : String} {d : Database} {m : Memory.Tables}
  {w : World} {site : Memory.Site} {t : Memory.Table}

/-! ## One table -/

theorem run_get {st : Store} (h : d.tables.lookup table = some st) :
    (onTables (Tables.get table)).run (d, w) = (.ok st, (d, w)) :=
  run_onTables (Tables.run_get h)

theorem run_get_none (h : d.tables.lookup table = none) :
    (onTables (Tables.get table)).run (d, w) = (.error (.engine (.noTable table)), (d, w)) :=
  run_onTables (Tables.run_get_none h)

theorem At.lookup_none (h : At site place start name (d, w) m) (ht : m.lookup table = none) :
    d.tables.lookup table = none := by
  have hsome := h.shows.tables.isSome_lookup table
  rw [ht] at hsome
  exact Option.isNone_iff_eq_none.mp (Option.isSome_eq_false_iff.mp hsome)

theorem At.run_schemaOf (h : At site place start name (d, w) m) (ht : m.lookup table = some t) :
    (schemaOf table).run (d, w) = (.ok t.schema, (d, w)) := by
  obtain ⟨st, hst, hshows⟩ := h.tablesAt.exists_shows ht
  unfold schemaOf
  rw [Attempt.run_bind_of_ok (run_get hst), hshows.schema_eq]
  rfl

theorem At.run_schemaOf_none (h : At site place start name (d, w) m) (ht : m.lookup table = none) :
    (schemaOf table).run (d, w) = (.error (.engine (.noTable table)), (d, w)) :=
  Attempt.run_bind_of_error (run_get_none (h.lookup_none ht))

/-- A store counts the rows of its table. -/
theorem At.run_count (h : At site place start name (d, w) m) :
    ((onTables (Tables.get table)).run (d, w)).1.map Store.rowCount =
        ((Memory.Tables.find table).run m).1.map (·.rows.length) ∧
      At site place start name ((onTables (Tables.get table)).run (d, w)).2
        ((Memory.Tables.find table).run m).2 := by
  cases ht : m.lookup table with
  | none =>
    rw [run_get_none (h.lookup_none ht), run_find_none ht]
    exact ⟨rfl, h⟩
  | some t =>
    obtain ⟨st, hst, hshows⟩ := h.tablesAt.exists_shows ht
    obtain ⟨handle, records, ho, hrows⟩ := hshows.opened
    rw [run_get hst, run_find ht]
    refine ⟨congrArg Except.ok ?_, h⟩
    rw [ho.rowCount_eq, hrows]

/-- What is done once the table of a name has been found. -/
theorem At.agree_schemaOf (h : At site place start name (d, w) m) {α : Type}
    {f : Schema → Work Database α} {g : Memory.Table → Attempt Fault Memory.Tables α}
    (hfg : ∀ t, m.lookup table = some t →
      Attempt.Agree (At site place start name) (d, w) m (f t.schema) (g t)) :
    Attempt.Agree (At site place start name) (d, w) m (schemaOf table >>= f)
      (Memory.Tables.find table >>= g) := by
  cases ht : m.lookup table with
  | none => exact Attempt.agree_bind_of_error (h.run_schemaOf_none ht) (run_find_none ht) h
  | some t => exact Attempt.agree_bind (h.run_schemaOf ht) (run_find ht) (hfg t ht)

/-- An operation that changes a table. -/
theorem At.agree_onTable (h : At site place start name (d, w) m) (ht : m.lookup table = some t)
    {α : Type} {x : Work Store α} {f : Rows → Except Fault (α × Rows)}
    (hx : ∀ {st h w records},
      Store.Opened t.schema (site.home name ++ [Name.tableFile table]) st h w.files records →
      Store.Ends t.schema (site.home name ++ [Name.tableFile table]) w.files records (x.run (st, w))
        (f (Record.liveRows records)))
    {rows : Except Fault Rows} (hrows : rows = (f t.rows).map Prod.snd) (result : Result) :
    Attempt.Agree (At site place start name) (d, w) m
      (do let _ ← onTable table x; return result)
      (do let rows ← Attempt.ofExcept rows; Memory.Tables.put table t rows; return result) := by
  obtain ⟨y, hrun, hat⟩ := h.tablesAt.run_on ht hx
  subst hrows
  cases hf : f t.rows with
  | error e =>
    rw [hf] at hrun hat
    obtain ⟨z, hz, hatz⟩ := h.run_onTables hrun hat
    exact Attempt.agree_bind_of_error hz rfl hatz
  | ok found =>
    rw [hf] at hrun hat
    obtain ⟨z, hz, hatz⟩ := h.run_onTables hrun hat
    refine Attempt.agree_bind hz rfl ?_
    exact ⟨rfl, hatz⟩

theorem map_snd (rows : Except Fault Rows) :
    rows = (rows.map fun rows => ((), rows)).map Prod.snd := by
  cases rows <;> rfl

theorem At.insert (h : At site place start name (d, w) m) (table : String)
    (literals : List Literal) :
    Attempt.Agree (At site place start name) (d, w) m (Database.insert table literals)
      (Memory.Tables.insert table literals) := by
  unfold Database.insert Memory.Tables.insert
  refine h.agree_schemaOf fun t ht => ?_
  split
  · exact ⟨rfl, h⟩
  · refine Attempt.agree_ofExcept _ h fun values _ => ?_
    refine Attempt.agree_ofExcept _ h fun row _ => ?_
    exact h.agree_onTable ht
      (f := fun rows => (rows.insert t.schema row >>= row.recorded t.schema).map
        fun rows => ((), rows))
      (fun ho => ho.insert_ends row) (map_snd _) _

theorem At.update (h : At site place start name (d, w) m) (table : String)
    (assignments : List (String × Literal)) (key : Comparison) :
    Attempt.Agree (At site place start name) (d, w) m (Database.update table assignments key)
      (Memory.Tables.update table assignments key) := by
  unfold Database.update Memory.Tables.update
  refine h.agree_schemaOf fun t ht => ?_
  refine Attempt.agree_ofExcept _ h fun found _ => ?_
  refine Attempt.agree_ofExcept _ h fun changes _ => ?_
  exact h.agree_onTable ht
    (f := fun rows => rows.updateValues t.schema found.2 changes >>=
      fun x => x.1.recorded t.schema x)
    (fun ho => ho.updateValues_ends found.2 changes) rfl _

theorem At.delete (h : At site place start name (d, w) m) (table : String) (key : Comparison) :
    Attempt.Agree (At site place start name) (d, w) m (Database.delete table key)
      (Memory.Tables.delete table key) := by
  unfold Database.delete Memory.Tables.delete
  refine h.agree_schemaOf fun t ht => ?_
  refine Attempt.agree_ofExcept _ h fun found _ => ?_
  exact h.agree_onTable ht (f := fun rows => (rows.delete found.2).map fun rows => ((), rows))
    (fun ho => ho.delete_ends found.2) (map_snd _) _

/-! ## Queries -/

theorem pick_of_planOf {where? : Option Comparison} {e : Fault}
    (h : planOf t.schema table where? = .error e) : Memory.Tables.pick t where? = .error e := by
  cases where? with
  | none => cases h
  | some c =>
    rw [planOf_some] at h
    rw [pick_some]
    cases hresolve : resolve t.schema c with
    | error e' =>
      rw [hresolve] at h
      cases h
      rfl
    | ok found =>
      rw [hresolve] at h
      cases h

theorem At.select (h : At site place start name (d, w) m) (table : String)
    (where? : Option Comparison) :
    Attempt.Agree (At site place start name) (d, w) m (Database.select table where?)
      (Memory.Tables.select table where?) := by
  unfold Database.select Memory.Tables.select
  refine h.agree_schemaOf fun t ht => ?_
  cases hplan : planOf t.schema table where? with
  | error e =>
    rw [pick_of_planOf hplan]
    exact ⟨rfl, h⟩
  | ok plan =>
    obtain ⟨rows, y, hpick, hrun, hat⟩ := h.tablesAt.run_rows ht hplan
    obtain ⟨z, hz, hatz⟩ := h.run_onTables hrun hat
    rw [hpick]
    refine Attempt.agree_bind_left rfl (Attempt.agree_bind hz rfl ?_)
    exact ⟨rfl, hatz⟩

theorem At.join (h : At site place start name (d, w) m) (left right : String) (on : Pairing) :
    Attempt.Agree (At site place start name) (d, w) m (Database.join left right on)
      (Memory.Tables.join left right on) := by
  unfold Database.join Memory.Tables.join
  split
  · exact ⟨rfl, h⟩
  · rename_i hne
    refine h.agree_schemaOf fun l hl => h.agree_schemaOf fun r hr => ?_
    rw [joinPlan_eq]
    cases hcolumns : Memory.Tables.joinColumns l.schema r.schema on with
    | error e => exact ⟨rfl, h⟩
    | ok found =>
      obtain ⟨c, d⟩ := found
      obtain ⟨y, hrun, hat⟩ := h.tablesAt.run_join hne hl hr hcolumns
      obtain ⟨z, hz, hatz⟩ := h.run_onTables hrun hat
      refine Attempt.agree_bind_left rfl (Attempt.agree_bind hz rfl ?_)
      exact ⟨rfl, hatz⟩

/-! ## Definitions -/

theorem At.create (h : At site place start name (d, w) m) (table : String) (columns : List Column)
    (ifNotExists : Bool) :
    Attempt.AgreeOrStay (At site place start name)
      (d, w) m (Database.create table columns ifNotExists)
      (Memory.Tables.create site name table columns ifNotExists) := by
  unfold Database.create Memory.Tables.create
  refine .bind (Work.run_state _) (Attempt.run_get _) ?_
  dsimp only
  rw [h.shows.tables.isSome_lookup]
  split
  · exact .agree rfl ⟨rfl, h⟩
  · refine .ofExcept_bind _ fun schema hbuild => ?_
    have hnormal : (Manifest.Table.ofSchema schema).toSchema = .ok schema := by
      cases hschema : Schema.build table columns with
      | error e =>
        rw [hschema] at hbuild
        cases hbuild
      | ok s =>
        rw [hschema] at hbuild
        cases hbuild
        exact Manifest.Table.toSchema_ofSchema hschema
    exact (h.createTable hnormal).andReturn _

theorem At.remove (h : At site place start name (d, w) m) (table : String) (ifExists : Bool) :
    Attempt.AgreeOrStay (At site place start name) (d, w) m (Database.remove table ifExists)
      (Memory.Tables.drop table ifExists) := by
  unfold Database.remove Memory.Tables.drop
  refine .bind (Work.run_state _) (Attempt.run_get _) ?_
  have hthere : (d.tables.lookup table).isNone = (m.lookup table).isNone := by
    rw [← Option.not_isSome, ← Option.not_isSome, h.shows.tables.isSome_lookup]
  dsimp only
  rw [hthere]
  split
  · exact .agree rfl ⟨rfl, h⟩
  · exact h.dropTable.andReturn _

/-! ## Commands -/

theorem simulates_run (c : Command) :
    Attempt.Simulates (At site place start name) (Database.run c)
    (Memory.Tables.run site name c) := by
  rintro ⟨d, w⟩ m h
  cases c with
  | createTable table columns ifNotExists => exact (h.create table columns ifNotExists).agrees h
  | dropTable table ifExists => exact (h.remove table ifExists).agrees h
  | insert table values => exact h.insert table values
  | select table where? => exact h.select table where?
  | join left right on => exact h.join left right on
  | update table assignments key => exact h.update table assignments key
  | delete table key => exact h.delete table key

theorem report_of_ne {f : Fault} (h : ∀ e, f ≠ .engine e) :
    Memory.Tables.report (.error f) =
      if f.isStorageFailure then .ok (.failed "IOError" ("I/O failure: " ++ f.message?.getD ""))
      else .error f := by
  unfold Memory.Tables.report
  split
  · rename_i heq
    cases heq
  · rename_i e heq
    exact absurd (Except.error.inj heq) (h e)
  · rename_i heq
    rw [Except.error.inj heq]

/-- What comes of a command is reported as a result, or passed on. -/
theorem run_report (kind : String) (r : Except Fault Result) :
    ∃ w', (report kind r).run (d, w) = (Memory.Tables.report r, (d, w')) ∧
    w'.files = w.files := by
  unfold report
  split
  · exact ⟨w, rfl, rfl⟩
  · exact ⟨_, rfl, rfl⟩
  · rename_i f hne
    rw [report_of_ne hne]
    split
    · exact ⟨_, rfl, rfl⟩
    · exact ⟨w, rfl, rfl⟩

theorem run_inContext {α : Type} (x : Work Database α) : (inContext x).run (d, w) =
    (.ok (x.run (d, { w with database := some d.name })).1,
      ((x.run (d, { w with database := some d.name })).2.1,
        { (x.run (d, { w with database := some d.name })).2.2 with database := w.database })) := rfl

/-- A text that is no command comes to an error, and a command to what it comes to. -/
theorem At.run_runText (h : At site place start name (d, w) m) (text : String) :
    ∃ kind r z m', (runText text).run (d, w) = (.ok (kind, r), z) ∧
      (Memory.Tables.execute site name text).run m = (Memory.Tables.report r, m') ∧
      At site place start name z m' := by
  unfold runText Memory.Tables.execute
  cases Command.ofText text with
  | error e => exact ⟨"unknown", .error (.engine e), _, m, rfl, rfl, h⟩
  | ok c =>
    obtain ⟨hresult, hat⟩ := simulates_run c (d, w) m h
    refine ⟨c.kind, ((Database.run c).run (d, w)).1, _, _, rfl, ?_, hat⟩
    rw [hresult]
    rfl

/-- A text is run in the name of the database, and what comes of it is reported and recorded. -/
theorem run_execute {text kind : String} {r : Except Fault Result} {z : Database × World}
    (h : (runText text).run (d, { w with database := some d.name }) = (.ok (kind, r), z)) :
    ∃ w', (execute text).run (d, w) = (Memory.Tables.report r, (z.1, w')) ∧
      w'.files = z.2.files := by
  obtain ⟨d₁, w₁⟩ := z
  obtain ⟨w₂, hreport, hfiles⟩ := run_report (d := d₁) (w := w₁) kind r
  have hinner : (runReported text).run (d, { w with database := some d.name }) =
      ((Memory.Tables.report r).map fun r => (kind, r), (d₁, w₂)) := by
    unfold runReported
    rw [Attempt.run_bind_of_ok h]
    dsimp only
    rw [Attempt.run_bind, hreport]
    cases Memory.Tables.report r <;> rfl
  have hcontext := run_inContext (d := d) (w := w) (runReported text)
  rw [hinner] at hcontext
  unfold execute
  rw [Attempt.run_bind_of_ok (Work.run_state _), Attempt.run_bind_of_ok hcontext]
  cases Memory.Tables.report r with
  | error f => exact ⟨_, rfl, hfiles⟩
  | ok result => exact ⟨_, rfl, hfiles⟩

/-- The text of a command comes to what the command comes to on the tables. -/
theorem simulates_execute (text : String) :
    Attempt.Simulates (At site place start name) (Database.execute text)
      (Memory.Tables.execute site name text) := by
  rintro ⟨d, w⟩ m h
  have h' : At site place start name (d, { w with database := some d.name }) m := h.congr rfl
  obtain ⟨kind, r, ⟨d₁, w₁⟩, m', hrun, hmemory, hat⟩ := h'.run_runText text
  obtain ⟨w₂, hexecute, hfiles⟩ := run_execute hrun
  unfold Attempt.Agree
  rw [hexecute, hmemory]
  exact ⟨rfl, hat.congr hfiles⟩

end Database
end Tabulary
