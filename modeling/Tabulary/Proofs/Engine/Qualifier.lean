import Tabulary.Proofs.Command.Qualifier
import Tabulary.Proofs.Engine.Answers

/-!
Tables before columns in what an engine is asked.  Main statement: a condition that names another
table than that of its command is refused; the name of the command's own table before the column of
a condition does not matter, and what stands before a column that is assigned never does
(`execute_unqualified`).
-/

namespace Tabulary
namespace Database

variable {s : Schema} {k : Comparison} {u table : String}

/-! ## Conditions -/

theorem resolve_foreign (hu : k.column.table? = some u) (hne : u ≠ s.name) :
    resolve s k = .error (.engine (.command (.unknownTable u))) := by
  unfold resolve
  rw [hu]
  dsimp only
  rw [if_pos hne]
  rfl

theorem resolve_unqualified (s : Schema) (k : Comparison) :
    resolve s (k.unqualified s.name) = resolve s k := by
  unfold Comparison.unqualified ColumnRef.unqualified
  split
  · rename_i hown
    unfold resolve
    rw [hown]
    dsimp only
    rw [if_neg (not_not_intro rfl)]
  · rfl

theorem planOf_unqualified (s : Schema) (table : String) (where? : Option Comparison) :
    planOf s table (where?.map (Comparison.unqualified s.name)) = planOf s table where? := by
  cases where? with
  | none => rfl
  | some k => rw [Option.map_some, planOf_some, planOf_some, resolve_unqualified]

/-! ## Commands -/

variable {site : Memory.Site} {place : Path} {start : Files} {name : String} {d : Database}
  {w : World} {m : Memory.Tables} {c c' : Command}

/-- What is done with the schema of a table depends on what is done with schemas of its name. -/
theorem At.run_schemaOf_congr (h : At site place start name (d, w) m) {α : Type}
    {f g : Schema → Work Database α} (hfg : ∀ s, s.name = table → f s = g s) :
    (schemaOf table >>= f).run (d, w) = (schemaOf table >>= g).run (d, w) := by
  cases ht : m.lookup table with
  | none =>
    rw [Attempt.run_bind_of_error (h.run_schemaOf_none ht),
      Attempt.run_bind_of_error (h.run_schemaOf_none ht)]
  | some t =>
    rw [Attempt.run_bind_of_ok (h.run_schemaOf ht), Attempt.run_bind_of_ok (h.run_schemaOf ht),
      hfg _ (h.named_of_lookup ht)]

/-- A command does the same without its table's name before the column of its condition. -/
theorem At.run_unqualified (h : At site place start name (d, w) m) (c : Command) :
    (run c.unqualified).run (d, w) = (run c).run (d, w) := by
  cases c with
  | select table where? =>
    refine h.run_schemaOf_congr fun s hs => ?_
    rw [← hs, planOf_unqualified]
  | update table assignments key =>
    refine h.run_schemaOf_congr fun s hs => ?_
    rw [← hs, resolve_unqualified]
  | delete table key =>
    refine h.run_schemaOf_congr fun s hs => ?_
    rw [← hs, resolve_unqualified]
  | _ => rfl

/-- Texts that are narrowed to the same command but for its table's name do the same. -/
theorem At.execute_congr (h : At site place start name (d, w) m) {text text' : String}
    (hsame : (Command.ofText text').map Command.unqualified =
      (Command.ofText text).map Command.unqualified) :
    ((execute text').run (d, w)).1 = ((execute text).run (d, w)).1 ∧
      ((execute text').run (d, w)).2.1 = ((execute text).run (d, w)).2.1 ∧
      ((execute text').run (d, w)).2.2.files = ((execute text).run (d, w)).2.2.files := by
  have h' : At site place start name (d, { w with database := some d.name }) m := h.congr rfl
  have hreported : ∃ kind kind' r z,
      (runText text').run (d, { w with database := some d.name }) = (.ok (kind', r), z) ∧
        (runText text).run (d, { w with database := some d.name }) = (.ok (kind, r), z) := by
    cases hc : Command.ofText text with
    | error e =>
      cases hc' : Command.ofText text' with
      | error e' =>
        rw [hc, hc'] at hsame
        cases hsame
        exact ⟨_, _, _, _, run_runText_of_error hc' _, run_runText_of_error hc _⟩
      | ok c' =>
        rw [hc, hc'] at hsame
        cases hsame
    | ok c =>
      cases hc' : Command.ofText text' with
      | error e' =>
        rw [hc, hc'] at hsame
        cases hsame
      | ok c' =>
        rw [hc, hc'] at hsame
        have hcommands : c'.unqualified = c.unqualified := Except.ok.inj hsame
        have hruns : (run c').run (d, { w with database := some d.name }) =
            (run c).run (d, { w with database := some d.name }) := by
          rw [← h'.run_unqualified c', hcommands, h'.run_unqualified c]
        exact ⟨_, _, _, _, (run_runText_of_ok hc' _).trans (by rw [hruns]),
          run_runText_of_ok hc _⟩
  obtain ⟨kind, kind', r, z, hrun', hrun⟩ := hreported
  obtain ⟨w₁, hexecute, hfiles⟩ := run_execute hrun
  obtain ⟨w₂, hexecute', hfiles'⟩ := run_execute hrun'
  rw [hexecute, hexecute']
  exact ⟨rfl, rfl, hfiles'.trans hfiles.symm⟩

end Database

/-! ## Refusals -/

namespace Memory.Tables

variable {site : Site} {database table u : String} {m : Memory.Tables} {c : Command}
  {k : Comparison}

/-- A condition on a column of another table is refused. -/
theorem run_foreign (site : Site) (database : String) (hsound : m.Sound)
    (hc : c.single? = some (table, some k)) (hu : k.column.table? = some u) (hne : u ≠ table) :
    ∃ e, (run site database c).run m = (.error (.engine e), m) := by
  have hrefused {t : Table} (ht : m.lookup table = some t) :
      Database.resolve t.schema k = .error (.engine (.command (.unknownTable u))) :=
    Database.resolve_foreign hu (hsound.named table t ht ▸ hne)
  have hrun {f : Table → Attempt Fault Memory.Tables Result}
      (hf : ∀ t, m.lookup table = some t → (f t).run m =
        (.error (.engine (.command (.unknownTable u))), m)) :
      ∃ e, (find table >>= f).run m = (.error (.engine e), m) := by
    cases ht : m.lookup table with
    | none => exact ⟨_, Attempt.run_bind_of_error (Database.run_find_none ht)⟩
    | some t => exact ⟨_, (Attempt.run_bind_of_ok (Database.run_find ht)).trans (hf t ht)⟩
  cases c with
  | select table where? =>
    cases hc
    refine hrun fun t ht => ?_
    rw [Database.pick_some, hrefused ht]
    rfl
  | update table assignments key =>
    cases hc
    refine hrun fun t ht => ?_
    rw [hrefused ht]
    rfl
  | delete table key =>
    cases hc
    refine hrun fun t ht => ?_
    rw [hrefused ht]
    rfl
  | _ => cases hc

theorem execute_of_error {text : String} {e : EngineError} (hc : Command.ofText text = .error e) :
    ((execute site database text).run m).1 = .ok (.ofError e) := by
  unfold execute
  rw [hc]
  rfl

/-- A text whose condition names a table other than that of its statement is refused. -/
theorem execute_foreign (site : Site) (database : String) (hsound : m.Sound) {text : String}
    {s : Sql.Statement} {e : Sql.Expr} (hread : Sql.Statement.read? (Text.trim text) = some [s])
    (hs : s.single? = some (table, some e)) (hu : u ∈ e.qualifiers) (hne : u ≠ table) :
    ∃ f, ((execute site database text).run m).1 = .ok (.ofError f) := by
  rcases Command.error_or_asks hread with ⟨f, hf⟩ | hasks
  · exact ⟨f, execute_of_error hf⟩
  · cases hc : Command.ofText text with
    | error f => exact ⟨f, execute_of_error hc⟩
    | ok c =>
      obtain ⟨k, hk, hsingle⟩ := Command.single?_of_ofStatement hs
        (hasks.ofText_eq.symm.trans hc)
      rw [Command.qualifiers_of_comparison hk, Option.mem_toList] at hu
      obtain ⟨f, hrun⟩ := run_foreign site database hsound hsingle hu hne
      have houtcome : (run site database c).outcome.run m = (.ok (.error (.engine f)), m) := by
        show (Except.ok ((run site database c).run m).1, ((run site database c).run m).2) = _
        rw [hrun]
      refine ⟨f, ?_⟩
      unfold execute
      rw [hc]
      dsimp only
      rw [Attempt.run_bind_of_ok houtcome]
      rfl

end Memory.Tables

namespace Engine

open Sql

variable {dataDir : Path} {x : Engine × World} {s : Statement} {table : String}
  {where? : Option Expr}

/-- Whatever came before, a statement about one table whose condition names another table before a
column fails and changes nothing.  With the name of its own table before the column of its
condition, it does what it does without; and whatever stands before the columns that it assigns, it
does what it does without. -/
theorem execute_unqualified (h : Lived dataDir x) (hstarted : x.1.started = true)
    (hs : s.single? = some (table, where?)) (database? : Option String) :
    (∀ text, Statement.read? (Text.trim text) = some [s] →
      ∀ e ∈ where?, ∀ u ∈ e.qualifiers, u ≠ table →
      ∃ r y, (execute text database?).run x = (.ok r, y) ∧ r.errorKind ≠ none ∧
        y.2.files = x.2.files ∧ y.1.registry.detached = x.1.registry.detached) ∧
    ∀ text text', Command.Asks text s → Command.Asks text' (s.unqualified table) →
      ((execute text' database?).run x).1 = ((execute text database?).run x).1 ∧
      ((execute text' database?).run x).2.1.registry =
        ((execute text database?).run x).2.1.registry ∧
      ((execute text' database?).run x).2.2.files = ((execute text database?).run x).2.2.files := by
  rcases h.run_execute hstarted database? with hnone |
    ⟨d, site, place, tables, -, hat, hexecute⟩
  · refine ⟨fun text _ e _ u _ _ => ⟨_, _, hnone text, nofun, rfl, rfl⟩,
      fun text text' _ _ => ?_⟩
    rw [hnone text, hnone text']
    exact ⟨rfl, rfl, rfl⟩
  · constructor
    · intro text hread e he u hu hne
      obtain rfl := Option.mem_def.mp he
      obtain ⟨f, hf⟩ := Memory.Tables.execute_foreign site
        (serving x.1.defaultDatabase database?) hat.sound hread hs hu hne
      obtain ⟨dispatchers, hrun⟩ := hexecute text
      rw [(Database.simulates_execute text (d, x.2) tables hat).1, hf] at hrun
      have hunchanged := unchanged_of_execute h hrun (.inl fun r hr => by cases hr; exact nofun)
      exact ⟨_, _, hrun, nofun, hunchanged⟩
    · intro text text' hasks hasks'
      have hsame : (Command.ofText text').map Command.unqualified =
          (Command.ofText text).map Command.unqualified := by
        rw [hasks.ofText_eq, hasks'.ofText_eq]
        exact Command.ofStatement_unqualified hs
      obtain ⟨hresult, hdatabase, hfiles⟩ := hat.execute_congr hsame
      obtain ⟨dispatchers, hrun⟩ := hexecute text
      obtain ⟨dispatchers', hrun'⟩ := hexecute text'
      rw [hrun, hrun']
      dsimp only
      rw [hresult, hdatabase, hfiles]
      exact ⟨rfl, rfl, rfl⟩

/-- A user gets another name, with these names before the column that is assigned and before the one
compared. -/
def newName (assigned compared : List Name) : Statement :=
  .update (.table ⟨[], ⟨"users", false⟩⟩ none [])
    [.binary .eq (.column ⟨assigned, ⟨"name", false⟩⟩) (.text "x")]
    (some (.binary .eq (.column ⟨compared, ⟨"id", false⟩⟩) (.number "1")))

def newName? : Option (List Statement) → Option (List Name × List Name)
  | some [.update (.table ⟨[], ⟨"users", false⟩⟩ none [])
      [.binary .eq (.column ⟨assigned, ⟨"name", false⟩⟩) (.text "x")]
      (some (.binary .eq (.column ⟨compared, ⟨"id", false⟩⟩) (.number "1")))] =>
      some (assigned, compared)
  | _ => none

theorem of_newName? {found? : Option (List Statement)} {assigned compared : List Name}
    (h : newName? found? = some (assigned, compared)) :
    found? = some [newName assigned compared] := by
  unfold newName? at h
  split at h
  · cases h
    rfl
  · cases h

/-- The names in the texts, and the answers to those that are carried out. -/
theorem answered_newName :
    newName? (Statement.read? (Text.trim "UPDATE users SET name = 'x' WHERE orders.id = 1")) =
      some ([], [⟨"orders", false⟩]) ∧
    newName? (Statement.read? (Text.trim "UPDATE users SET users.name = 'x' WHERE users.id = 1")) =
      some ([⟨"users", false⟩], [⟨"users", false⟩]) ∧
    newName? (Statement.read? (Text.trim "UPDATE users SET name = 'x' WHERE id = 1")) =
    some ([], []) ∧
    newName? (Statement.read? (Text.trim "UPDATE users SET orders.name = 'x' WHERE id = 1")) =
      some ([⟨"orders", false⟩], []) ∧
    (answered oneUser "UPDATE users SET name = 'x' WHERE id = 1").map (·.affected) = .ok 1 ∧
    (answered oneUser "UPDATE users SET orders.name = 'x' WHERE id = 1").map
      (fun r => (r.errorKind, r.affected)) = .ok (none, 1) := by
  decide +kernel

theorem execute_unqualified_newName : ∃ x, Lived ["data"] x ∧ x.1.started = true ∧
    (∃ r y, (execute "UPDATE users SET name = 'x' WHERE orders.id = 1" none).run
      x = (.ok r, y) ∧ r.errorKind ≠ none ∧ y.2.files = x.2.files) ∧
    ∃ r, ((execute "UPDATE users SET name = 'x' WHERE id = 1" none).run x).1 = .ok r ∧
      ((execute "UPDATE users SET users.name = 'x' WHERE users.id = 1" none).run x).1 = .ok r ∧
      r.affected = 1 := by
  obtain ⟨hforeign, hqualified, hplain, -, hanswered, -⟩ := answered_newName
  obtain ⟨x, r', y', hlived, hstarted, hplainly, haffected⟩ := exists_answer hanswered
  have hqualified : Command.Asks "UPDATE users SET users.name = 'x' WHERE users.id = 1"
      (newName [⟨"users", false⟩] [⟨"users", false⟩]) :=
      ⟨by decide, of_newName? hqualified⟩
  have hplain : Command.Asks "UPDATE users SET name = 'x' WHERE id = 1" (newName [] []) :=
    ⟨by decide, of_newName? hplain⟩
  obtain ⟨r, y, hrun, hfailed, hfiles, -⟩ := (execute_unqualified hlived hstarted
    (s := newName [] [⟨"orders", false⟩]) rfl none).1 _ (of_newName? hforeign) _
    rfl "orders" (by decide) (by decide)
  have hsame := (execute_unqualified hlived hstarted
    (s := newName [⟨"users", false⟩] [⟨"users", false⟩]) rfl none).2 _ _ hqualified hplain
  have hresult : ((execute "UPDATE users SET name = 'x' WHERE id = 1" none).run x).1 = .ok r' :=
    congrArg Prod.fst hplainly
  exact ⟨x, hlived, hstarted, ⟨r, y, hrun, hfailed, hfiles⟩, r', hresult,
    hsame.1.symm.trans hresult, haffected⟩

/-- The name of another table before a column that is assigned does not keep the row from being
changed. -/
theorem assigns_foreign_column :
    (∃ x r y, Lived ["data"] x ∧
      (execute "UPDATE users SET orders.name = 'x' WHERE id = 1" none).run x = (.ok r, y) ∧
      r.errorKind = none ∧ r.affected = 1) ∧
    ¬∀ (dataDir : Path) (x y : Engine × World) (text table : String) (database? : Option String)
    (source : Source)
      (found : List Expr) (where? : Option Expr) (r : Result), Lived dataDir x →
      x.1.started = true →
        Statement.read? (Text.trim text) = some [.update source found where?] →
        source.table? = some table →
        (∃ left right, .binary .eq left right ∈ found ∧
          ∃ u ∈ left.qualifiers, u ≠ table) →
        (execute text database?).run x = (.ok r, y) → r.errorKind ≠ none := by
  obtain ⟨-, -, -, hread, -, hanswered⟩ := answered_newName
  obtain ⟨x, r, y, hlived, hstarted, hrun, hview⟩ := exists_answer hanswered
  obtain ⟨hok, haffected⟩ := Prod.mk.inj hview
  refine ⟨⟨x, r, y, hlived, hrun, hok, haffected⟩, fun hall => ?_⟩
  exact hall _ x y _ "users" none _ _ _ r hlived hstarted (of_newName? hread) rfl
    ⟨_, _, List.mem_singleton_self _, "orders", by decide, by decide⟩ hrun hok

end Engine
end Tabulary
