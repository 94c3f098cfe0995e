import Tabulary.Proofs.Engine.Join
import Tabulary.Proofs.Engine.Unchanged
import Tabulary.Proofs.Result.Text

/-!
Answers of an engine.  A command that succeeds came to its result on the tables of a database, and a
query then shows rows of one table or pairs of rows of two.  Main statement: the text of the rows of
any query is read back line by line (`toText_readsBack`).
-/

namespace Tabulary

open Attempt

/-! ## Values of stored rows -/

/-- What a stored row holds in a column can be read. -/
theorem Row.Fits.readable {s : Schema} {row : Row} (h : row.Fits s) {name : String}
    (hname : name ∈ s.columnNames) : (row.held name).Readable := by
  obtain ⟨c, hc, rfl⟩ := List.mem_map.mp hname
  have haccepted := h.accepted c hc
  cases htype : c.type with
  | integer =>
    obtain ⟨n, hn, hrange⟩ := (Column.accepts_integer_iff htype _).mp haccepted
    rw [hn]
    exact Value.readable_of_inRange hrange
  | text =>
    obtain ⟨t, ht⟩ := (Column.accepts_text_iff htype _).mp haccepted
    rw [ht]
    exact trivial

theorem ResultRow.readable_ofRow {s : Schema} {row : Row} (h : row.Fits s) (qualify : Bool) :
    ∀ v ∈ (ofRow s qualify row).values, v.Readable := by
  intro v hv
  obtain ⟨name, hname, rfl⟩ := List.mem_map.mp hv
  exact h.readable hname

/-! ## Commands that succeed -/

namespace Memory.Tables

/-- The tables of a database: each has the name under which it is found, and its rows fit its
schema. -/
structure Sound (m : Memory.Tables) : Prop where
  named : ∀ table t, m.lookup table = some t → t.schema.name = table
  fits : ∀ table t, m.lookup table = some t → ∀ row ∈ t.rows, row.Fits t.schema

variable {site : Site} {database table text : String} {m m' : Memory.Tables} {r : Result}
  {c : Command}

/-- A command that comes to a result of its own comes to rows exactly if it is a query. -/
theorem returns_isQuery (c : Command) :
    Returns (fun r => r.isQuery = c.isQuery) (run site database c) := by
  cases c with
  | createTable table columns ifNotExists =>
    refine Returns.bind fun tables => ?_
    split
    · exact returns_pure rfl
    · exact Returns.bind fun _ => Returns.bind fun _ => returns_pure rfl
  | dropTable table ifExists =>
    refine Returns.bind fun tables => ?_
    split
    · exact returns_pure rfl
    · exact Returns.bind fun _ => returns_pure rfl
  | insert table literals =>
    refine Returns.bind fun t => ?_
    split
    · exact returns_throw _
    · exact Returns.bind fun _ => Returns.bind fun _ => Returns.bind fun _ => Returns.bind fun _ =>
        returns_pure rfl
  | select table where? => exact Returns.bind fun _ => Returns.bind fun _ => returns_pure rfl
  | join left right on =>
    show Returns _ (join left right on)
    unfold join
    split
    · exact returns_throw _
    · exact Returns.bind fun _ => Returns.bind fun _ => Returns.bind fun _ => returns_pure rfl
  | update table assignments key =>
    exact Returns.bind fun _ => Returns.bind fun _ => Returns.bind fun _ => Returns.bind fun _ =>
      Returns.bind fun _ => returns_pure rfl
  | delete table key =>
    exact Returns.bind fun _ => Returns.bind fun _ => Returns.bind fun _ => Returns.bind fun _ =>
      returns_pure rfl

theorem pick_subset {t : Table} {where? : Option Comparison} {rows : Rows}
    (h : pick t where? = .ok rows) : rows ⊆ t.rows := by
  cases where? with
  | none =>
    cases h
    exact List.Subset.refl _
  | some x =>
    obtain ⟨found, -, hrows⟩ := of_bind_ok h
    cases hrows
    exact List.filter_subset_self _

theorem of_run_find {t : Table} (h : (find table).run m = (.ok t, m')) :
    m.lookup table = some t := by
  cases ht : m.lookup table with
  | none =>
    rw [Database.run_find_none ht] at h
    cases h
  | some t' =>
    rw [Database.run_find ht] at h
    cases h
    rfl

/-- A query of one table shows some of its rows. -/
theorem of_run_select {where? : Option Comparison} (h : (select table where?).run m = (.ok r, m')) :
    ∃ t rows, m.lookup table = some t ∧ rows ⊆ t.rows ∧
      r = .query t.schema.columnNames (rows.map (ResultRow.ofRow t.schema false)) := by
  obtain ⟨t, m₁, hfind, hrest⟩ := of_run_bind_ok h
  obtain ⟨rows, hpick, hresult⟩ := of_run_ofExcept_bind_ok hrest
  cases hresult
  exact ⟨t, rows, of_run_find hfind, pick_subset hpick, rfl⟩

/-- A text that succeeds is a command that comes to the result. -/
theorem of_execute (h : ((execute site database text).run m).1 = .ok r) (hok : r.errorKind = none) :
    ∃ c m', Command.ofText text = .ok c ∧ (run site database c).run m = (.ok r, m') := by
  -- What a failure is reported as has the kind of an error.
  have hreport : ∀ outcome, report outcome = .ok r → outcome = .ok r := by
    intro outcome hreport
    unfold report at hreport
    split at hreport
    · exact hreport
    · cases hreport
      cases hok
    · split at hreport
      · cases hreport
        cases hok
      · cases hreport
  unfold execute at h
  cases hc : Command.ofText text with
  | error e =>
    rw [hc] at h
    have hfailed : report (.error (.engine e)) = .ok r := h
    cases hreport _ hfailed
  | ok c =>
    rw [hc] at h
    exact ⟨c, _, rfl, Prod.ext (hreport _ h) rfl⟩

/-- What a query shows of stored rows can be read. -/
theorem readable_of_run (hsound : m.Sound) (hrun : (run site database c).run m = (.ok r, m'))
    (hquery : c.isQuery = true) : ∀ row ∈ r.rows, ∀ v ∈ row.values, v.Readable := by
  intro shown hshown v hv
  cases c with
  | select table where? =>
    obtain ⟨t, rows, ht, hsub, rfl⟩ := of_run_select hrun
    obtain ⟨row, hrow, rfl⟩ := List.mem_map.mp hshown
    exact ResultRow.readable_ofRow (hsound.fits table t ht row (hsub hrow)) false v hv
  | join left right on =>
    have hjoined := of_mapError_ok (congrArg Prod.fst ((run_join m left right on).symm.trans hrun))
    obtain ⟨-, l, r', c, c', hl, hr, -, rfl⟩ := (joined_eq_ok_iff hsound.named).mp hjoined
    obtain ⟨x, hx, hpairs⟩ := List.mem_flatMap.mp hshown
    obtain ⟨z, hz, rfl⟩ := List.mem_map.mp hpairs
    rcases List.mem_append.mp hv with hleft | hright
    · exact ResultRow.readable_ofRow (hsound.fits left l hl x hx) true v hleft
    · exact ResultRow.readable_ofRow (hsound.fits right r' hr z (List.mem_of_mem_filter hz)) true v
        hright
  | _ => cases hquery

end Memory.Tables

theorem Database.At.sound {site : Memory.Site} {place : Path} {start : Files} {name : String}
    {x : Database × World}
    {m : Memory.Tables} (h : Database.At site place start name x m) : m.Sound where
  named _ _ ht := h.named_of_lookup ht
  fits _ _ ht row hrow := by
    obtain ⟨st, -, hshows⟩ := h.tablesAt.exists_shows ht
    exact hshows.holds.fits hrow

namespace Engine

open Database

variable {dataDir : Path} {x y : Engine × World} {text : String} {database? : Option String}
  {r : Result}

/-- What any text comes to that is sent to a database which is not there, or to one that shows some
tables. -/
theorem Lived.run_execute (h : Lived dataDir x) (hstarted : x.1.started = true)
    (database? : Option String) : (∀ text, (execute text database?).run x =
      (.ok (.ofError (.noDatabase (serving x.1.defaultDatabase database?))), x)) ∨
    ∃ d site place tables, x.1.registry.databases.lookup (serving x.1.defaultDatabase database?) =
      some d ∧
      Database.At site place x.2.files (serving x.1.defaultDatabase database?) (d, x.2) tables ∧
      ∀ text, ∃ dispatchers, (execute text database?).run x =
        (((Database.execute text).run (d, x.2)).1,
        ({ x.1 with
            dispatchers := dispatchers
            registry.databases := Keyed.set (serving x.1.defaultDatabase database?)
              ((Database.execute text).run (d, x.2)).2.1 x.1.registry.databases },
          ((Database.execute text).run (d, x.2)).2.2)) := by
  obtain ⟨e, w⟩ := x
  obtain ⟨anchor, root, hkeeping⟩ := h.keeping
  obtain ⟨m, hat⟩ := hkeeping.exists_at hstarted
  cases hd : e.registry.databases.lookup (serving e.defaultDatabase database?) with
  | none =>
    refine .inl fun text => ?_
    rcases hat.run_execute text database? with ⟨-, hnone⟩ | ⟨d, -, hsome, -⟩
    · exact hnone
    · cases hd.symm.trans hsome
  | some d =>
    obtain ⟨site, place, tables, hdat⟩ := h.exists_database hstarted hd
    refine .inr ⟨d, site, place, tables, rfl, hdat, fun text => ?_⟩
    rcases hat.run_execute text database? with ⟨hnone, -⟩ | ⟨d', dispatchers, hd', hrun⟩
    · cases hd.symm.trans hnone
    · refine ⟨dispatchers, ?_⟩
      rw [hrun, run_onRegistry]
      dsimp only
      rw [Registry.run_on hd]

/-- A text that succeeds is a command that came to the result on the tables of the database that
served. -/
theorem Lived.of_execute (h : Lived dataDir x) (hrun : (execute text database?).run x = (.ok r, y))
    (hok : r.errorKind = none) :
    ∃ d site place tables c tables',
      x.1.registry.databases.lookup (serving x.1.defaultDatabase database?) = some d ∧
      Database.At site place x.2.files (serving x.1.defaultDatabase database?) (d, x.2) tables ∧
      Command.ofText text = .ok c ∧
      (Memory.Tables.run site (serving x.1.defaultDatabase database?) c).run tables =
      (.ok r, tables') := by
  have hresult : ((execute text database?).run x).1 = .ok r := congrArg Prod.fst hrun
  cases hstarted : x.1.started with
  | false =>
    rw [run_execute_of_stopped hstarted] at hresult
    cases hresult
  | true =>
    rcases h.run_execute hstarted database? with hnone |
      ⟨d, site, place, tables, hd, hat, hexecute⟩
    · rw [hnone text] at hresult
      rw [← Except.ok.inj hresult] at hok
      cases hok
    · obtain ⟨dispatchers, hexecute⟩ := hexecute text
      rw [hexecute] at hresult
      dsimp only at hresult
      rw [(Database.simulates_execute text (d, x.2) tables hat).1] at hresult
      obtain ⟨c, tables', hc, hcommand⟩ := Memory.Tables.of_execute hresult hok
      exact ⟨d, site, place, tables, c, tables', hd, hat, hc, hcommand⟩

/-- The text of the rows of a query has a line for each row, and each line is read as the fields of
its row.  That is so of any rows of values that can be read, and so it is of all rows that an engine
shows. -/
theorem toText_readsBack :
    (∀ r : Result, r.errorKind = none → r.isQuery = true → r.rows ≠ [] →
      (∀ row ∈ r.rows, ∀ v ∈ row.values, v.Readable) → r.ReadsBack) ∧
    ∀ (dataDir : Path) (x y : Engine × World) (text : String) (database? : Option String)
      (r : Result), Lived dataDir x → (execute text database?).run x = (.ok r, y) →
      r.errorKind = none → r.isQuery = true → r.rows ≠ [] → r.ReadsBack := by
  refine ⟨fun r => Result.readsBack, fun dataDir x y text database? r h hrun hok
    hquery hrows => ?_⟩
  obtain ⟨d, site, place, tables, c, tables', -, hat, -, hcommand⟩ := h.of_execute hrun hok
  have hisquery : c.isQuery = true :=
    (Memory.Tables.returns_isQuery c _ _ _ hcommand).symm.trans hquery
  exact Result.readsBack hok hquery hrows
    (Memory.Tables.readable_of_run hat.sound hcommand hisquery)

/-- What there is in memory after an engine was started over an empty directory and asked for some
things. -/
def replayed (ops : List Operation) : Memory :=
  ((Operation.replay ⟨"/", ["data"]⟩ "default" ops).run
    ((Memory.start ⟨"/", ["data"]⟩ "default" false).run []).2).2

/-- What is answered then. -/
def answered (ops : List Operation) (text : String) : Except Fault Result :=
  ((Memory.execute ⟨"/", ["data"]⟩ "default" text none).run (replayed ops)).1

/-- An engine that was asked for some things answers a text as it is answered in memory. -/
theorem exists_answer {α : Type} {ops : List Operation} {text : String}
    {view : Result → α} {a : α} (h : (answered ops text).map view = .ok a) :
    ∃ x r y, Lived ["data"] x ∧ x.1.started = true ∧
    (execute text none).run x = (.ok r, y) ∧ view r = a := by
  have hs : (World.empty "/").files.Sane := Files.sane_empty "/"
  have hb : (World.empty "/").files.Bare ["data"] := Files.bare_empty "/" (by decide)
  have hstart : ((Memory.start ⟨"/", ["data"]⟩ "default" false).run []).1 = .ok () := rfl
  obtain ⟨e, w, root, hrunning, hat⟩ := exists_running () hs hb hstart ops
  have hresult := (simulates_execute text none _ _ hat).1
  rcases hexecute : (execute text none).run (e, w) with ⟨outcome, y⟩
  rw [hexecute] at hresult
  have hview : outcome.map view = .ok a := (congrArg (Except.map view) hresult).trans h
  cases outcome with
  | error f => cases hview
  | ok r =>
    exact ⟨(e, w), r, y, lived_of_running hs hb hrunning, hat.started, hexecute,
      Except.ok.inj hview⟩

/-- Two notes: a text of two lines with a quotation in it, and the digits of a number. -/
def notes : List Operation :=
  [.execute "CREATE TABLE notes (id INT, body STRING)" none,
    .execute "INSERT INTO notes VALUES (1, 'He said:\n\x22Hi!\x22')" none,
    .execute "INSERT INTO notes VALUES (2, '2')" none]

theorem toText_readsBack_notes :
    (Result.query ["a", "\x22\n"]
      [⟨["a", "\x22\n"], [.text "\\\x0b\u2028", .int (-7)]⟩]).ReadsBack
    ∧ ∃ x r y, Lived ["data"] x ∧ (execute "SELECT * FROM notes" none).run x = (.ok r, y) ∧
      r.rows.map ResultRow.fields = [[("id", .int 1), ("body", .text "He said:\n\x22Hi!\x22")],
        [("id", .int 2), ("body", .text "2")]] ∧
      r.ReadsBack := by
  refine ⟨toText_readsBack.1 _ rfl rfl nofun (by decide), ?_⟩
  have hanswered : (answered notes "SELECT * FROM notes").map
      (fun r => (r.errorKind, r.isQuery, r.rows.map ResultRow.fields)) =
        .ok (none, true, [[("id", .int 1), ("body", .text "He said:\n\x22Hi!\x22")],
          [("id", .int 2), ("body", .text "2")]]) := by
    decide +kernel
  obtain ⟨x, r, y, hlived, -, hrun, hview⟩ := exists_answer hanswered
  obtain ⟨hok, hshown⟩ := Prod.mk.inj hview
  obtain ⟨hquery, hfields⟩ := Prod.mk.inj hshown
  have hrows : r.rows ≠ [] := fun hnone => by simp [hnone] at hfields
  exact ⟨x, r, y, hlived, hrun, hfields, toText_readsBack.2 _ _ _ _ _ _ hlived hrun hok hquery
    hrows⟩

end Engine
end Tabulary
