import Tabulary.Proofs.Engine.Join

/-!
Views of a table.  Its rows are fetched as they were decoded, a query without a condition builds
them anew from the columns of the schema, and the statistics count the entries of the index.  Main
statement: whatever has been asked of the engines over a data directory, all three agree on every
open table (`views_agree`).
-/

namespace Tabulary

/-! ## Fields -/

namespace ResultRow

variable {s : Schema} {r : Row}

/-- What a result shows of a row in stored form are the fields of the row. -/
theorem fields_ofRow (h : r.stored s r.deleted = r) : (ofRow s false r).fields = r.values := by
  have hvalues : (ofRow s false r).columns.zip (ofRow s false r).values = r.values := by
    rw [ofRow_eq, List.zip_map']
    exact congrArg Row.values h
  have hnames : (Keyed.keys r.values).Nodup := by
    rw [← h, Row.keys_stored]
    exact s.nodup_columnNames
  unfold fields
  rw [hvalues]
  exact @Keyed.foldl_set_of_nodup _ _ _ _ [] _ hnames

end ResultRow

namespace Store

open Record

variable {s : Schema} {path : Path} {st : Store} {h : Handle} {fs : Files} {records : List Stored}
  {r : Row}

/-- The rows of a table have the columns of its schema in their order. -/
theorem Opened.stored_of_mem (ho : Opened s path st h fs records) (hr : r ∈ liveRows records) :
    r.stored s r.deleted = r := by
  obtain ⟨x, hx, rfl⟩ := List.mem_map.mp hr
  obtain ⟨own, image⟩ := ho.holds.laid.image_of_mem (List.mem_of_mem_filter hx)
  have hschema : st.table.schema = s := ho.schema
  exact hschema ▸ image.arranged

end Store

/-- The rows of a table in memory. -/
theorem Memory.fst_run_rows {m : Memory} {database table : String} {tables : Memory.Tables}
    {t : Memory.Table} (hm : m.lookup database = some tables) (ht : tables.lookup table = some t) :
    ((rows database table).run m).1 = .ok t.rows := by
  unfold rows
  rw [Registry.run_memory_on hm, Attempt.run_bind_of_ok (Database.run_find ht)]
  rfl

/-- A query without a condition shows all rows of a table. -/
theorem Database.At.respond_all {site : Memory.Site} {place : Path} {start : Files}
    {name table : String} {d : Database} {w : World} {m : Memory.Tables} {t : Memory.Table}
    (h : At site place start name (d, w) m) (ht : m.lookup table = some t) :
    ∃ y, (respond (.select table none)).run (d, w) =
      (.ok (.query t.schema.columnNames (t.rows.map (ResultRow.ofRow t.schema false))), y) := by
  have hselect : ((Memory.Tables.select table none).run m).1 =
      .ok (.query t.schema.columnNames (t.rows.map (ResultRow.ofRow t.schema false))) := by
    unfold Memory.Tables.select
    rw [Attempt.run_bind_of_ok (run_find ht)]
    rfl
  have hrespond := fst_run_respond (d := d) (w := w) (.select table none)
  rw [show run (.select table none) = Database.select table none from rfl, (h.select table none).1,
    hselect] at hrespond
  exact ⟨_, Prod.ext hrespond rfl⟩

/-- The number of rows that the statistics give for a table. -/
def Stats.rowCount? (s : Stats) (database table : String) : Option Nat :=
  s.databases.bind fun databases => (databases.lookup database).bind fun tables =>
    tables.lookup table

namespace Engine

variable {dataDir : Path} {x : Engine × World} {database table : String}
  {d : Database} {st : Store}

/-- The statistics of a started engine give for each open table what its index has. -/
theorem run_stats (hstarted : x.1.started = true)
    (hd : x.1.registry.databases.lookup database = some d) (ht : d.tables.lookup table = some st) :
    ∃ s, stats.run x = (.ok s, x) ∧ s.rowCount? database table = some st.rowCount := by
  have hdatabase := Keyed.lookup_map_snd (fun d => d.tables.map fun t => (t.1, t.2.rowCount))
    database x.1.registry.databases
  have htable := Keyed.lookup_map_snd Store.rowCount table d.tables
  rw [hd] at hdatabase
  rw [ht] at htable
  refine ⟨_, rfl, ?_⟩
  dsimp only [Stats.rowCount?]
  rw [if_pos hstarted, Option.bind_some, hdatabase, Option.map_some, Option.bind_some, htable,
    Option.map_some]

/-- Whatever has come before, the rows that are fetched from a table are those that a query for all
rows shows, with the same fields in the order of the schema, and as many as the statistics count. -/
theorem views_agree (h : Lived dataDir x) (hstarted : x.1.started = true)
    (hd : x.1.registry.databases.lookup database = some d) (ht : d.tables.lookup table = some st) :
    ∃ fetched res s y z, (rows database table).run x = (.ok fetched, y) ∧
      (Database.respond (.select table none)).run (d, x.2) = (.ok res, z) ∧
      stats.run x = (.ok s, x) ∧
      res.errorKind = none ∧ res.rows.map ResultRow.fields = fetched.map (·.values) ∧
      (∀ r ∈ fetched, Keyed.keys r.values = st.schema.columnNames) ∧
      s.rowCount? database table = some fetched.length := by
  obtain ⟨anchor, root, hkeeping⟩ := h.keeping
  obtain ⟨m, hat⟩ := hkeeping.exists_at hstarted
  obtain ⟨d', tables, hd', hm, hdat⟩ := (hat.registry.lookup database).resolve_left
      fun hnone => by
    cases hd.symm.trans hnone.1
  obtain rfl : d = d' := Option.some.inj (hd.symm.trans hd')
  obtain ⟨st', t, hst', htable, hshows⟩ :=
      (hdat.shows.tables.lookup table).resolve_left fun hnone => by
    cases ht.symm.trans hnone.1
  obtain rfl : st = st' := Option.some.inj (ht.symm.trans hst')
  obtain ⟨handle, records, ho, hrows⟩ := hshows.opened
  have hstored : ∀ r ∈ t.rows, r.stored t.schema r.deleted = r := fun r hr =>
    ho.stored_of_mem (hrows.symm ▸ hr)
  have hfetch : ((rows database table).run x).1 = .ok t.rows :=
    (simulates_rows database table x m hat).1.trans (Memory.fst_run_rows hm htable)
  obtain ⟨z, hrespond⟩ := hdat.respond_all htable
  obtain ⟨s, hstats, hcount⟩ := run_stats hstarted hd ht
  refine ⟨t.rows, _, s, _, z, Attempt.run_of_fst hfetch, hrespond, hstats, rfl, ?_,
    fun r hr => ?_, ?_⟩
  · show (t.rows.map (ResultRow.ofRow t.schema false)).map ResultRow.fields = _
    rw [List.map_map]
    exact List.map_congr_left fun r hr => ResultRow.fields_ofRow (hstored r hr)
  · rw [← hstored r hr, Row.keys_stored, hshows.schema_eq]
  · rw [hcount, ho.rowCount_eq, hrows]

/-- Two pets, of which the first has got another name. -/
def renamed : List Operation :=
  [.execute "CREATE TABLE pets (id INT, name STRING UNIQUE)" none,
    .execute "INSERT INTO pets VALUES (1, 'Rex')" none,
    .execute "INSERT INTO pets VALUES (2, 'Tom')" none,
    .execute "UPDATE pets SET name = 'Max' WHERE id = 1" none]

/-- The row that was changed comes last in all views. -/
theorem views_agree_renamed : ∃ x d st fetched res s y z, Lived ["data"] x ∧
    x.1.started = true ∧
    x.1.registry.databases.lookup "default" = some d ∧ d.tables.lookup "pets" = some st ∧
    (rows "default" "pets").run x = (.ok fetched, y) ∧
    (Database.respond (.select "pets" none)).run (d, x.2) = (.ok res, z) ∧
    stats.run x = (.ok s, x) ∧
    fetched.map (·.values) = [[("id", .int 2), ("name", .text "Tom")],
      [("id", .int 1), ("name", .text "Max")]] ∧
    res.rows.map ResultRow.fields = fetched.map (·.values) ∧
    s.rowCount? "default" "pets" = some fetched.length := by
  have hs : (World.empty "/").files.Sane := Files.sane_empty "/"
  have hb : (World.empty "/").files.Bare ["data"] := Files.bare_empty "/" (by decide)
  have hstart : ((Memory.start ⟨"/", ["data"]⟩ "default" false).run []).1 = .ok () := rfl
  obtain ⟨e, w, root, hrunning, hat⟩ := exists_running () hs hb hstart renamed
  have hlived : Lived ["data"] (e, w) := lived_of_running hs hb hrunning
  have hfetch := (simulates_rows "default" "pets" _ _ hat).1
  generalize hm :
    ((Operation.replay ⟨(World.empty "/").files.anchor, ["data"]⟩ "default" renamed).run
    ((Memory.start ⟨(World.empty "/").files.anchor, ["data"]⟩ "default" false).run []).2).2 =
    m at hat hfetch
  have hfound : ((m.lookup "default").bind fun tables => (tables.lookup "pets").map fun pets =>
      pets.rows.map (·.values)) =
      some [[("id", .int 2), ("name", .text "Tom")], [("id", .int 1), ("name", .text "Max")]] := by
    rw [← hm]
    decide +kernel
  obtain ⟨tables, htables, hfound⟩ := Option.bind_eq_some_iff.mp hfound
  obtain ⟨pets, hpets, hvalues⟩ := Option.map_eq_some_iff.mp hfound
  obtain ⟨d, tables', hd, htables', hdat⟩ :=
      (hat.registry.lookup "default").resolve_left fun hnone => by
    cases htables.symm.trans hnone.2
  obtain rfl : tables = tables' := Option.some.inj (htables.symm.trans htables')
  obtain ⟨st, -, hst, -, -⟩ := (hdat.shows.tables.lookup "pets").resolve_left fun hnone => by
    cases hpets.symm.trans hnone.2
  obtain ⟨fetched, res, s, y, z, hrows, hselect, hstats, -, hsame, -, hcount⟩ :=
    views_agree hlived hat.started hd hst
  rw [hrows, Memory.fst_run_rows htables hpets] at hfetch
  obtain rfl : fetched = pets.rows := Except.ok.inj hfetch
  exact ⟨(e, w), d, st, _, res, s, y, z, hlived, hat.started, hd, hst, hrows, hselect, hstats,
    hvalues, hsame, hcount⟩

end Engine
end Tabulary
