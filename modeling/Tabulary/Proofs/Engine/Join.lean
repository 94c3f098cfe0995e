import Tabulary.Proofs.Engine.Life
import Tabulary.Proofs.Memory.Join

/-!
Joins in the databases of an engine.  Main statement: a join succeeds exactly where its condition
links two tables of the database, and then gives the pairs of rows that agree; and it does not
matter how it is written (`join_spec`).
-/

namespace Tabulary

/-- What is shown of an outcome. -/
def Result.ofOutcome : Except EngineError Result → Result
  | .ok r => r
  | .error e => .ofError e

theorem Result.ofOutcome_congr {x y : Except EngineError Result}
    (h : x.mapError EngineError.kind = y.mapError EngineError.kind) :
    (ofOutcome x).rows = (ofOutcome y).rows ∧ (ofOutcome x).columns = (ofOutcome y).columns ∧
      (ofOutcome x).errorKind = (ofOutcome y).errorKind := by
  cases x with
  | error e =>
    cases y with
    | error e' => exact ⟨rfl, rfl, congrArg some (Except.error.inj h)⟩
    | ok r => cases h
  | ok r =>
    cases y with
    | error e => cases h
    | ok r' =>
      cases h
      exact ⟨rfl, rfl, rfl⟩

namespace Database

open Files

variable {site : Memory.Site} {place : Path} {start : Files} {name table : String} {d : Database}
  {w : World} {m : Memory.Tables} {t : Memory.Table}

/-- A command is run, and what comes of it is reported. -/
def respond (c : Command) : Work Database Result := do report c.kind (← (run c).outcome)

theorem fst_run_respond (c : Command) :
    ((respond c).run (d, w)).1 = Memory.Tables.report ((run c).run (d, w)).1 := by
  obtain ⟨w', hreport, -⟩ := run_report (d := ((run c).run (d, w)).2.1)
    (w := ((run c).run (d, w)).2.2) c.kind ((run c).run (d, w)).1
  show ((report c.kind ((run c).run (d, w)).1).run ((run c).run (d, w)).2).1 = _
  rw [hreport]

/-- The text of a command comes to what the command comes to. -/
theorem fst_run_execute {text : String} {c : Command} (h : Command.ofText text = .ok c) :
    ((execute text).run (d, w)).1 =
    ((respond c).run (d, { w with database := some d.name })).1 := by
  have hrun : (runText text).run (d, { w with database := some d.name }) =
      (.ok (c.kind, ((run c).run (d, { w with database := some d.name })).1),
        ((run c).run (d, { w with database := some d.name })).2) := by
    unfold runText
    rw [h]
    rfl
  obtain ⟨w₁, hexecute, -⟩ := run_execute hrun
  rw [hexecute, fst_run_respond]

/-- The rows of a table of the database, as a scan gives them. -/
def Scans (x : Database × World) (table : String) (t : Memory.Table) : Prop :=
  ∃ st, x.1.tables.lookup table = some st ∧ st.schema = t.schema ∧
    (Store.selectAll.run (st, x.2)).1 = .ok t.rows

theorem At.scans_iff (h : At site place start name (d, w) m) :
    Scans (d, w) table t ↔ m.lookup table = some t := by
  rcases h.shows.tables.lookup table with ⟨hst, ht⟩ | ⟨st, t', hst, ht, hshows⟩
  · rw [ht]
    constructor
    · rintro ⟨st, hst', -⟩
      rw [hst] at hst'
      cases hst'
    · exact nofun
  · obtain ⟨handle, records, ho, hrows⟩ := hshows.opened
    have hscan : (Store.selectAll.run (st, w)).1 = .ok t'.rows :=
      hrows ▸ ho.selectAll_ends.result_eq
    rw [ht]
    constructor
    · rintro ⟨st', hst', hschema, hrows'⟩
      obtain rfl : st = st' := Option.some.inj (hst.symm.trans hst')
      have hsame : t'.rows = t.rows := Except.ok.inj (hscan.symm.trans hrows')
      obtain ⟨schema, rows⟩ := t
      obtain rfl : t'.schema = schema := hshows.schema_eq.symm.trans hschema
      obtain rfl : t'.rows = rows := hsame
      rfl
    · rintro ⟨⟩
      exact ⟨st, hst, hshows.schema_eq, hscan⟩

theorem At.named_of_lookup (h : At site place start name (d, w) m) {table : String}
    {t : Memory.Table} (ht : m.lookup table = some t) : t.schema.name = table := by
  obtain ⟨st, -, hshows⟩ := h.tablesAt.exists_shows ht
  exact hshows.named

/-- What is shown of a join is what it comes to on the tables. -/
theorem At.respond_join (h : At site place start name (d, w) m) (left right : String)
    (on : Pairing) : ∃ y, (respond (.join left right on)).run (d, w) =
      (.ok (Result.ofOutcome (m.joined left right on)), y) := by
  have hresult : ((run (.join left right on)).run (d, w)).1 =
      (m.joined left right on).mapError Fault.engine := by
    rw [(simulates_run (.join left right on) (d, w) m h).1]
    exact congrArg Prod.fst (Memory.Tables.run_join m left right on)
  have hreport : Memory.Tables.report ((m.joined left right on).mapError Fault.engine) =
      .ok (Result.ofOutcome (m.joined left right on)) := by
    cases m.joined left right on <;> rfl
  have hrespond := fst_run_respond (d := d) (w := w) (.join left right on)
  rw [hresult, hreport] at hrespond
  exact ⟨_, Prod.ext hrespond rfl⟩

end Database

namespace Engine

variable {dataDir : Path} {x : Engine × World} {name : String} {d : Database}

/-- The open databases of an engine show some tables. -/
theorem Lived.exists_database (h : Lived dataDir x) (hstarted : x.1.started = true)
    (hd : x.1.registry.databases.lookup name = some d) :
    ∃ site place tables, Database.At site place x.2.files name (d, x.2) tables := by
  obtain ⟨anchor, root, hkeeping⟩ := h.keeping
  obtain ⟨m, hat⟩ := hkeeping.exists_at hstarted
  rcases hat.registry.lookup name with ⟨hnone, -⟩ | ⟨d', tables, hd', -, hshows⟩
  · rw [hd] at hnone
    cases hnone
  · obtain rfl : d = d' := Option.some.inj (hd.symm.trans hd')
    exact ⟨_, _, tables, hshows⟩

/-- In any database of an engine, a join always has a result.  It succeeds exactly if the tables are
two and are there, and the condition links a column of one with a column of the other; and then it
pairs each row of the left table, in order, with each row of the right one, in order, that holds the
same value.  With the sides of the condition exchanged it gives the same.  With the tables exchanged
it is refused in the same way, or gives the same pairs in some order with the columns of the right
table first. -/
theorem join_spec (h : Lived dataDir x) (hstarted : x.1.started = true)
    (hd : x.1.registry.databases.lookup name = some d) (left right : String) (on : Pairing) :
    ∃ res y, (Database.respond (.join left right on)).run (d, x.2) = (.ok res, y) ∧
      (res.errorKind = none ↔ left ≠ right ∧ ∃ l r c c', Database.Scans (d, x.2) left l ∧
        Database.Scans (d, x.2) right r ∧ on.Links l.schema r.schema c c') ∧
      (∀ l r c c', left ≠ right → Database.Scans (d, x.2) left l →
        Database.Scans (d, x.2) right r →
        on.Links l.schema r.schema c c' → res = Memory.Tables.paired l r c c') ∧
      (∃ res' y', (Database.respond (.join left right on.swap)).run (d, x.2) = (.ok res', y') ∧
        res'.rows = res.rows ∧ res'.columns = res.columns ∧ res'.errorKind = res.errorKind) ∧
      ∃ res' y', (Database.respond (.join right left on)).run (d, x.2) = (.ok res', y') ∧
        res'.errorKind = res.errorKind ∧
        ∀ l, Database.Scans (d, x.2) left l →
          res'.columns = res.columns.rotate l.schema.columnNames.length ∧
          res'.rows.Perm (res.rows.map (ResultRow.rotate l.schema.columnNames.length)) := by
  obtain ⟨site, place, m, hat⟩ := h.exists_database hstarted hd
  have hnamed : ∀ table t, m.lookup table = some t → t.schema.name = table :=
    fun _ _ => hat.named_of_lookup
  have hiff {res : Result} : m.joined left right on = .ok res ↔ _ :=
    Memory.Tables.joined_eq_ok_iff hnamed
  simp only [hat.scans_iff]
  obtain ⟨y, hrun⟩ := hat.respond_join left right on
  refine ⟨_, y, hrun, ?_, ?_, ?_, ?_⟩
  · cases hjoined : m.joined left right on with
    | error e =>
      refine ⟨nofun, ?_⟩
      rintro ⟨hne, l, r, c, c', hl, hr, hlinks⟩
      rw [hiff.mpr ⟨hne, l, r, c, c', hl, hr, hlinks, rfl⟩] at hjoined
      cases hjoined
    | ok res =>
      obtain ⟨hne, l, r, c, c', hl, hr, hlinks, rfl⟩ := hiff.mp hjoined
      exact iff_of_true rfl ⟨hne, l, r, c, c', hl, hr, hlinks⟩
  · intro l r c c' hne hl hr hlinks
    rw [hiff.mpr ⟨hne, l, r, c, c', hl, hr, hlinks, rfl⟩]
    rfl
  · obtain ⟨y', hrun'⟩ := hat.respond_join left right on.swap
    exact ⟨_, y', hrun', Result.ofOutcome_congr
      (Memory.Tables.joined_swap hnamed left right on)⟩
  · obtain ⟨y', hrun'⟩ := hat.respond_join right left on
    refine ⟨_, y', hrun', ?_⟩
    rcases Memory.Tables.joined_comm hnamed left right on with
      ⟨e, e', hjoined, hjoined', hkind⟩ | ⟨l, r, c, c', hl, hjoined, hjoined'⟩
    · rw [hjoined, hjoined']
      exact ⟨congrArg some hkind.symm,
        fun l _ => ⟨by simp [Result.ofOutcome, Result.ofError, Result.failed], .refl _⟩⟩
    · rw [hjoined, hjoined']
      refine ⟨rfl, fun l' hl' => ?_⟩
      obtain rfl : l = l' := Option.some.inj (hl.symm.trans hl')
      refine ⟨?_, Memory.Tables.pairs_perm l r c c'⟩
      have hlength : l.schema.columnNames.length =
        (l.schema.columnNames.map (ResultRow.label l.schema true)).length :=
        (List.length_map _).symm
      rw [hlength]
      exact (List.rotate_append_length_eq _ _).symm

/-- Two people with a pet each. -/
def household : List Operation :=
  [.execute "CREATE TABLE users (id INT, name STRING)" none,
    .execute "INSERT INTO users VALUES (1, 'Ann')" none,
    .execute "INSERT INTO users VALUES (2, 'Bo')" none,
    .execute "CREATE TABLE pets (id INT, owner INT, name STRING)" none,
    .execute "INSERT INTO pets VALUES (1, 2, 'Rex')" none,
    .execute "INSERT INTO pets VALUES (2, 1, 'Tom')" none]

/-- The owner of a pet, one reference with the name of its table and one without. -/
def owner : Pairing := ⟨⟨none, "owner"⟩, ⟨some "users", "id"⟩⟩

theorem join_spec_household : ∃ x d res y, Lived ["data"] x ∧ x.1.started = true ∧
    x.1.registry.databases.lookup "default" = some d ∧
    (Database.respond (.join "users" "pets" owner)).run (d, x.2) = (.ok res, y) ∧
    res.columns = ["users.id", "users.name", "pets.id", "pets.owner", "pets.name"] ∧
    res.rows.map (·.values) = [[.int 1, .text "Ann", .int 2, .int 1, .text "Tom"],
      [.int 2, .text "Bo", .int 1, .int 2, .text "Rex"]] ∧
    (∃ res' y', (Database.respond (.join "users" "pets" owner.swap)).run (d, x.2) =
      (.ok res', y') ∧ res'.rows = res.rows) ∧
    ∃ res' y', (Database.respond (.join "pets" "users" owner)).run (d, x.2) = (.ok res', y') ∧
      res'.rows.Perm (res.rows.map (ResultRow.rotate 2)) := by
  have hs : (World.empty "/").files.Sane := Files.sane_empty "/"
  have hb : (World.empty "/").files.Bare ["data"] := Files.bare_empty "/" (by decide)
  have hstart : ((Memory.start ⟨"/", ["data"]⟩ "default" false).run []).1 = .ok () := rfl
  obtain ⟨e, w, root, hrunning, hat⟩ := exists_running () hs hb hstart household
  have hlived : Lived ["data"] (e, w) := lived_of_running hs hb hrunning
  generalize hm :
    ((Operation.replay ⟨(World.empty "/").files.anchor, ["data"]⟩ "default" household).run
    ((Memory.start ⟨(World.empty "/").files.anchor, ["data"]⟩ "default" false).run []).2).2 =
    m at hat
  have hfound : ((m.lookup "default").bind fun tables => (tables.lookup "users").map fun users =>
      (users.schema.columnNames.length,
        (Result.ofOutcome (tables.joined "users" "pets" owner)).columns,
        (Result.ofOutcome (tables.joined "users" "pets" owner)).rows.map (·.values))) =
      some (2, ["users.id", "users.name", "pets.id", "pets.owner", "pets.name"],
        [[.int 1, .text "Ann", .int 2, .int 1, .text "Tom"],
          [.int 2, .text "Bo", .int 1, .int 2, .text "Rex"]]) := by
    rw [← hm]
    decide +kernel
  obtain ⟨tables, htables, hfound⟩ := Option.bind_eq_some_iff.mp hfound
  obtain ⟨users, hlookup, hfound⟩ := Option.map_eq_some_iff.mp hfound
  obtain ⟨hlength, hresult⟩ := Prod.mk.inj hfound
  obtain ⟨hcolumns, hvalues⟩ := Prod.mk.inj hresult
  obtain ⟨d, tables', hd, htables', hdat⟩ :=
      (hat.registry.lookup "default").resolve_left fun hnone => by
    rw [htables] at hnone
    cases hnone.2
  obtain rfl : tables = tables' := Option.some.inj (htables.symm.trans htables')
  obtain ⟨res, y, hjoin, -, -, ⟨res₁, y₁, hjoin₁, hrows₁, -⟩, res₂, y₂,
      hjoin₂, -, hperm⟩ :=
    join_spec hlived hat.started hd "users" "pets" owner
  obtain ⟨y', hjoin'⟩ := hdat.respond_join "users" "pets" owner
  obtain rfl : res = Result.ofOutcome (tables.joined "users" "pets" owner) := by
    rw [hjoin] at hjoin'
    exact Except.ok.inj (congrArg Prod.fst hjoin')
  refine ⟨(e, w), d, _, y, hlived, hat.started, hd, hjoin, hcolumns, hvalues,
    ⟨res₁, y₁, hjoin₁, hrows₁⟩, res₂, y₂, hjoin₂, ?_⟩
  exact hlength ▸ (hperm users (hdat.scans_iff.mpr hlookup)).2

end Engine
end Tabulary
