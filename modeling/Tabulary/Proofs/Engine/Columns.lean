import Tabulary.Proofs.Engine.Answers
import Tabulary.Proofs.Result.Columns

/-!
The columns that an engine shows.  Main statement: what a query of one table shows is complete, and
what a join shows is complete unless the name of one of its tables begins with that of the other and
a dot, and columns clash by that; then every row has lost a value (`columns_of_execute`).
-/

namespace Tabulary
namespace Memory.Tables

variable {t l r : Table} {rows : Rows} {c d : Column}

theorem aligned_rows :
    (Result.query t.schema.columnNames (rows.map (ResultRow.ofRow t.schema false))).Aligned := by
  intro shown hshown
  obtain ⟨row, -, rfl⟩ := List.mem_map.mp hshown
  exact ⟨rfl, List.length_map _⟩

theorem aligned_paired : (paired l r c d).Aligned := by
  intro shown hshown
  obtain ⟨x, -, hpairs⟩ := List.mem_flatMap.mp hshown
  obtain ⟨z, -, rfl⟩ := List.mem_map.mp hpairs
  refine ⟨rfl, ?_⟩
  simp [ResultRow.append, ResultRow.ofRow, paired, Result.query]

theorem complete_paired : (paired l r c d).Complete ↔ ¬l.schema.Clash r.schema :=
  (Result.complete_iff aligned_paired).trans Schema.nodup_labels_append

/-- Where columns clash, each pair has fewer fields than columns. -/
theorem length_fields_lt_of_clash (h : l.schema.Clash r.schema) {row : ResultRow}
    (hrow : row ∈ (paired l r c d).rows) :
    row.fields.length < (paired l r c d).columns.length := by
  obtain ⟨hcolumns, hvalues⟩ := aligned_paired row hrow
  rw [← hcolumns]
  refine ResultRow.length_fields_lt (hvalues.trans (congrArg _ hcolumns.symm)) ?_
  rw [hcolumns]
  exact mt Schema.nodup_labels_append.mp (not_not_intro h)

end Memory.Tables

namespace Engine

variable {dataDir : Path} {x y : Engine × World} {text : String} {database? : Option String}
  {r : Result}

/-- Whatever came before, a query of one table that succeeds shows all values of each row.  A join
that succeeds does so unless a column of one of its tables and a column of the other come to have
the same name, and otherwise it shows fewer values of each row than there are columns.  They come to
have the same name exactly if the name of one table is that of the other with a dot and more behind
it, and the columns are named accordingly. -/
theorem columns_of_execute (h : Lived dataDir x)
    (hrun : (execute text database?).run x = (.ok r, y)) (hok : r.errorKind = none) :
    (∀ table where?, Command.ofText text = .ok (.select table where?) → r.Complete) ∧
      ∀ left right on, Command.ofText text = .ok (.join left right on) → ∃ d s t,
        x.1.registry.databases.lookup (serving x.1.defaultDatabase database?) = some d ∧
        Database.Scans (d, x.2) left s ∧ Database.Scans (d, x.2) right t ∧
        (r.Complete ↔ ¬s.schema.Clash t.schema) ∧
        (s.schema.Clash t.schema → ∀ row ∈ r.rows, row.fields.length < r.columns.length) ∧
        (s.schema.Clash t.schema ↔ ∃ more, s.schema.Hides t.schema more ∨
          t.schema.Hides s.schema more) := by
  obtain ⟨d, site, place, tables, c, tables', hd, hat, hc, hcommand⟩ := h.of_execute hrun hok
  rw [hc]
  constructor
  · rintro table where? ⟨⟩
    obtain ⟨t, rows, -, -, rfl⟩ := Memory.Tables.of_run_select hcommand
    exact Result.complete_of_nodup Memory.Tables.aligned_rows t.schema.nodup_columnNames
  · rintro left right on ⟨⟩
    have hjoined := Attempt.of_mapError_ok
      (congrArg Prod.fst ((Memory.Tables.run_join tables left right on).symm.trans hcommand))
    obtain ⟨hne, s, t, c, c', hs, ht, -, rfl⟩ :=
      (Memory.Tables.joined_eq_ok_iff hat.sound.named).mp hjoined
    exact ⟨d, s, t, hd, hat.scans_iff.mpr hs, hat.scans_iff.mpr ht, Memory.Tables.complete_paired,
      fun hclash row hrow => Memory.Tables.length_fields_lt_of_clash hclash hrow,
      Schema.clash_iff_hides (Memory.Tables.names_ne hat.sound.named hne hs ht)⟩

/-- Two tables of which one has a column by the name under which a column of the other is shown. -/
def dotted : List Operation :=
  [.execute "CREATE TABLE a (id INT, `b.c` INT)" none,
    .execute "CREATE TABLE `a.b` (id INT, c INT)" none,
    .execute "INSERT INTO a VALUES (1, 5)" none,
    .execute "INSERT INTO `a.b` VALUES (1, 6)" none]

/-- One row of the first table; a pair of rows, under four names of which two are the same. -/
theorem answered_dotted :
    Command.ofText "SELECT * FROM a" = .ok (.select "a" none) ∧
    (answered dotted "SELECT * FROM a").map (fun r => (r.errorKind, r.rows.map ResultRow.fields)) =
      .ok (none, [[("id", .int 1), ("b.c", .int 5)]]) ∧
    Command.ofText "SELECT * FROM a JOIN `a.b` ON a.id = `a.b`.id" =
      .ok (.join "a" "a.b" ⟨⟨some "a", "id"⟩, ⟨some "a.b", "id"⟩⟩) ∧
    (answered dotted "SELECT * FROM a JOIN `a.b` ON a.id = `a.b`.id").map
      (fun r => ((r.errorKind, r.isQuery, r.columns), r.rows.map (·.values), r.toText)) =
        .ok ((none, true, ["a.id", "a.b.c", "a.b.id", "a.b.c"]), [[.int 1, .int 5, .int 1, .int 6]],
          "\x7b\x22a.id\x22: 1, \x22a.b.c\x22: 6, \x22a.b.id\x22: 1\x7d") := by
  decide +kernel

theorem columns_of_execute_dotted :
    (∃ x r y, Lived ["data"] x ∧ (execute "SELECT * FROM a" none).run x = (.ok r, y) ∧
      r.rows.map ResultRow.fields = [[("id", .int 1), ("b.c", .int 5)]] ∧ r.Complete) ∧
    ∃ x r y d s t, Lived ["data"] x ∧
      (execute "SELECT * FROM a JOIN `a.b` ON a.id = `a.b`.id" none).run x = (.ok r, y) ∧
      r.columns = ["a.id", "a.b.c", "a.b.id", "a.b.c"] ∧ Database.Scans (d, x.2) "a" s ∧
      Database.Scans (d, x.2) "a.b" t ∧ s.schema.Clash t.schema ∧ ¬r.Complete := by
  obtain ⟨hselect, hselected, hjoin, hjoined⟩ := answered_dotted
  constructor
  · obtain ⟨x, r, y, hlived, -, hrun, hview⟩ := exists_answer hselected
    obtain ⟨hok, hfields⟩ := Prod.mk.inj hview
    exact ⟨x, r, y, hlived, hrun, hfields,
      (columns_of_execute hlived hrun hok).1 "a" none hselect⟩
  · obtain ⟨x, r, y, hlived, -, hrun, hview⟩ := exists_answer hjoined
    obtain ⟨hkind, -⟩ := Prod.mk.inj hview
    obtain ⟨hok, hshown⟩ := Prod.mk.inj hkind
    obtain ⟨-, hcolumns⟩ := Prod.mk.inj hshown
    obtain ⟨d, s, t, -, hs, ht, hcomplete, -, -⟩ :=
      (columns_of_execute hlived hrun hok).2 _ _ _ hjoin
    have hloses : ¬r.Complete := fun h => absurd h.distinct (by rw [hcolumns]; decide)
    exact ⟨x, r, y, d, s, t, hlived, hrun, hcolumns, hs, ht, not_not.mp (mt hcomplete.mpr hloses),
      hloses⟩

/-- Of the four values of the pair, the 5 is not shown. -/
theorem join_loses_value :
    (∃ x r y, Lived ["data"] x ∧
      (execute "SELECT * FROM a JOIN `a.b` ON a.id = `a.b`.id" none).run
      x = (.ok r, y) ∧ r.rows.map (·.values) = [[.int 1, .int 5, .int 1, .int 6]] ∧
      r.toText = "\x7b\x22a.id\x22: 1, \x22a.b.c\x22: 6, \x22a.b.id\x22: 1\x7d") ∧
    ¬∀ (dataDir : Path) (x y : Engine × World) (text : String) (database? : Option String)
    (r : Result),
      Lived dataDir x → (execute text database?).run x = (.ok r, y) → r.errorKind = none →
        r.isQuery = true →
        r.columns.Nodup := by
  obtain ⟨-, -, -, hjoined⟩ := answered_dotted
  obtain ⟨x, r, y, hlived, -, hrun, hview⟩ := exists_answer hjoined
  obtain ⟨hkind, hshown⟩ := Prod.mk.inj hview
  obtain ⟨hok, hcolumns⟩ := Prod.mk.inj hkind
  obtain ⟨hquery, hcolumns⟩ := Prod.mk.inj hcolumns
  obtain ⟨hvalues, htext⟩ := Prod.mk.inj hshown
  refine ⟨⟨x, r, y, hlived, hrun, hvalues, htext⟩, fun hall => ?_⟩
  exact absurd (hall _ x y _ none r hlived hrun hok hquery) (by rw [hcolumns]; decide)

end Engine
end Tabulary
