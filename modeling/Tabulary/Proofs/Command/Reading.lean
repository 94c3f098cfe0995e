import Tabulary.Proofs.Command.Parts
import Tabulary.Sql.Grammar.Statement

/-!
What is read of the statements that are written for commands.
-/

namespace Tabulary

open Sql Sql.Parser Sql.Grammar

variable {g : Grammar} {ps : List Piece} {ts rest next : List Token}

/-! ## Tables -/

theorem tableName_name {name : String} (stop : symbol "." ts = some (false, ts)) :
    tableName (.name name :: ts) = some (some ⟨[], ⟨name, true⟩⟩, ts) := by
  have hpart : tableName.part (.name name :: ts) = some (some ⟨name, true⟩, ts) := by
    simp [tableName.part, Parser.name, nameExcept, acceptMap_cons]
  have hpoint : pointPart ts = some (none, ts) := by simp [pointPart, stop]
  rw [tableName_eq, step hpart]
  dsimp only
  rw [step (many_eq_nil hpoint)]
  rfl

/-- No alias stands behind a table. -/
theorem tableAlias_of_before {excluded : List String} (stop : Before next ts)
    (reserved : ∀ t ∈ next, noName (keywords ++ afterTable ++ excluded) t = true)
    (apart : ∀ t ∈ [Token.word "LIMIT", .word "OFFSET", .word "AS", .symbol "("], t ∉ next) :
    tableAlias g excluded ts = some (none, ts) := by
  have hlimit : limitFollows g ts = some (false, ts) :=
    limitFollows_of_before stop ⟨apart _ (by simp), apart _ (by simp)⟩
  have has : word "AS" ts = some (false, ts) := word_of_before stop (apart _ (by simp))
  have hname : nameExcept (keywords ++ afterTable ++ excluded) ts = some (none, ts) :=
    nameExcept_of_before stop reserved
  have htext : textName ts = some (none, ts) := textName_of_before stop reserved
  have hparen : symbol "(" ts = some (false, ts) := symbol_of_before stop (apart _ (by simp))
  have hcolumns : attempt (do
      let columns ← wrapped (csv name)
      return if columns.isEmpty then none else some columns) ts = some (none, ts) :=
    attempt_eq_none (by simp [wrapped, expectSymbol_apply, hparen])
  rw [tableAlias, skip hlimit, skip has, step hname]
  dsimp only
  rw [step htext, step hcolumns]
  rfl

/-- What can follow a table in a query or a change. -/
def afterSource : List Token := [.word "WHERE", .word "JOIN", .word "INNER", .word "ON"]

theorem query_name (name : String) :
    (nesting g).query (.name name :: ts) = some (none, .name name :: ts) := by
  have hselect : select g (.name name :: ts) = some (none, .name name :: ts) := by
    simp [select, word]
  change combinedQuery g (.name name :: ts) = _
  rw [combinedQuery, step hselect]
  rfl

/-- A name that is told apart from the words that can stand in the place of a table. -/
def IsTable (s : String) : Prop := IsName s ∧ Text.capitals s ∉ ["IF", "CONCURRENTLY", "VALUES"]

/-- All tables of a command are told apart from such words. -/
def Command.Apart : Command → Prop
  | createTable table _ _ | dropTable table _ | insert table _ | select table _ | update table _ _
  | delete table _ => IsTable table
  | join left right _ => IsTable left ∧ IsTable right

theorem IsTable.spelled {name w : String} (h : IsTable name)
    (hw : w ∈ ["IF", "CONCURRENTLY", "VALUES"]) :
    spelled w (.name name :: ts) = some (false, .name name :: ts) :=
  spelled_name fun heq => h.2 (heq ▸ hw)

theorem IsTable.rows {name : String} (h : IsTable name) :
    rows g (.name name :: ts) = some (none, .name name :: ts) := by
  rw [Grammar.rows, leave (h.spelled (by simp))]
  rfl

theorem many_indexHint_of_before (stop : Before next ts)
    (apart : ∀ t ∈ [Token.word "USE", .word "FORCE", .word "IGNORE"], t ∉ next) :
    many indexHint ts = some ([], ts) := by
  refine many_eq_nil ?_
  have hnone : oneOfWords [("USE", ()), ("FORCE", ()), ("IGNORE", ())] ts = some (none, ts) :=
    oneOfWords_of_before stop fun e he => by
      simp only [List.mem_cons, List.not_mem_nil, or_false] at he
      rcases he with rfl | rfl | rfl <;> exact apart _ (by simp)
  rw [indexHint, step hnone]
  rfl

/-- What would belong to a table if it stood behind it. -/
def besideTable : List Token :=
  [.word "LIMIT", .word "OFFSET", .word "AS", .word "USE", .word "FORCE", .word "IGNORE",
    .symbol "(", .symbol ".", .symbol "*"]

theorem sourceExcept_name {excluded : List String} {name : String} (hname : IsTable name)
    (stop : Before next ts) (reserved : ∀ t ∈ next,
      noName (keywords ++ afterTable ++ excluded) t = true)
    (apart : ∀ t ∈ besideTable, t ∉ next) :
    sourceExcept (nesting g) excluded (.name name :: ts) =
      some (.table ⟨[], ⟨name, true⟩⟩ none [], ts) := by
  have hsymbol : ∀ {s : String}, Token.symbol s ∈ besideTable →
      symbol s ts = some (false, ts) :=
    fun hs => symbol_of_before stop (apart _ hs)
  have hparen : symbol "(" (.name name :: ts) = some (false, .name name :: ts) := by simp [symbol]
  have hcall : call (nesting g) (.name name :: ts) = some (none, .name name :: ts) :=
    attempt_eq_none (by simp [nameExcept, acceptMap_cons, hsymbol (s := "(") (by decide)])
  have halias : tableAlias (nesting g) excluded ts = some (none, ts) :=
    tableAlias_of_before stop reserved fun t ht => apart t (by revert t; decide)
  have hhints : many indexHint ts = some ([], ts) :=
    many_indexHint_of_before stop fun t ht => apart t (by revert t; decide)
  rw [sourceExcept, step hname.rows]
  dsimp only
  rw [step (query_name name)]
  dsimp only
  rw [skip hparen, step hcall]
  dsimp only
  rw [step (need_eq_some (tableName_name (hsymbol (by decide)))), step (hsymbol (by decide)),
    step halias, step hhints]
  rfl

/-! ## Dropping and creating tables -/

theorem ifExists_none {negated : Bool} {name : String} (h : IsTable name) :
    ifExists negated (.name name :: ts) = some (false, .name name :: ts) := by
  rw [ifExists, step (h.spelled (by simp)), leave (h.spelled (by simp))]
  rfl

theorem ifExists_of_words {s t : String} (hs : Text.capitals s = "IF")
    (ht : Text.capitals t = "EXISTS") :
    ifExists false (.word s :: .word t :: ts) = some (true, ts) := by
  rw [ifExists, step (spelled_of_ne (by simp [hs])), pass (spelled_of_eq hs), if_neg (by decide)]
  exact word_of_eq ht

theorem ifNotExists_of_words {s n t : String} (hs : Text.capitals s = "IF")
    (hn : Text.capitals n = "NOT")
    (ht : Text.capitals t = "EXISTS") : ifExists true (.word s :: .word n :: .word t :: ts) =
    some (true, ts) := by
  rw [ifExists, step (spelled_of_ne (by simp [hs])), pass (spelled_of_eq hs), if_pos rfl,
    pass (word_of_eq hn)]
  exact word_of_eq ht

theorem oneOfWords_of_word {α : Type} {table : List (String × α)} {w s : String}
    {e : String × α}
    (hs : Text.capitals s = w) (found : (table.find? fun e => w == e.1) = some e) :
    oneOfWords table (.word s :: ts) = some (some e.2, ts) := by
  simp [oneOfWords, acceptMap_cons, hs, found]

theorem temporary_of_word {s : String} (hs : Text.capitals s = "TABLE") :
    temporary (.word s :: ts) = some (none, .word s :: ts) :=
  oneOfWords_of_before (show Before [.word "TABLE"] _ by simp [Token.capital, hs]) (by decide)

theorem drop_written {table : String} {exists? : Bool} (ht : IsTable table) (hts : Tokens
    (.word "TABLE" :: (if exists? then [.word "IF", .word "EXISTS"] else []) ++ [.name table]) ts) :
    Grammar.drop ts = some (.drop "TABLE" exists? ⟨[], ⟨table, true⟩⟩, []) := by
  obtain ⟨s, us, hs, hus, rfl⟩ := Tokens.word_iff.mp hts
  have hkind : oneOfWords (["TABLE", "VIEW", "INDEX", "DATABASE"].map fun w => (w, w))
      (.word s :: us) =
      some (some "TABLE", us) := oneOfWords_of_word (e := ("TABLE", "TABLE")) hs rfl
  have hexists : ifExists false us = some (exists?, [.name table]) := by
    cases exists? with
    | false =>
      obtain ⟨vs, hvs, rfl⟩ := Tokens.name_iff.mp hus
      obtain rfl := Tokens.nil_iff.mp hvs
      exact ifExists_none ht
    | true =>
      obtain ⟨s₁, vs, hs₁, hvs, rfl⟩ := Tokens.word_iff.mp hus
      obtain ⟨s₂, ws, hs₂, hws, rfl⟩ := Tokens.word_iff.mp hvs
      obtain ⟨us, hus', rfl⟩ := Tokens.name_iff.mp hws
      obtain rfl := Tokens.nil_iff.mp hus'
      exact ifExists_of_words hs₁ hs₂
  have htable : tableName [.name table] = some (some ⟨[], ⟨table, true⟩⟩, []) :=
    tableName_name rfl
  rw [Grammar.drop, step (temporary_of_word hs), step hkind]
  dsimp only
  rw [step hexists, step (need_eq_some htable)]
  rfl

theorem Listed.nonempty {α : Type} {written : α → List Piece → Prop} {as : List α}
    (h : Listed written as ps) : as ≠ [] := by
  cases h <;> simp

/-- What stands between parentheses. -/
theorem Tokens.enclosed (h : Tokens (.symbol '(' :: (ps ++ [.symbol ')'])) ts) :
    ∃ xs, Tokens ps xs ∧ ts = .symbol "(" :: (xs ++ [.symbol ")"]) := by
  obtain ⟨vs, hvs, rfl⟩ := Tokens.symbol_iff.mp h
  obtain ⟨xs, ys, hxs, hys, rfl⟩ := Tokens.append_iff.mp hvs
  obtain ⟨zs, hzs, rfl⟩ := Tokens.symbol_iff.mp hys
  obtain rfl := Tokens.nil_iff.mp hzs
  exact ⟨xs, hxs, rfl⟩

theorem elements_of_listed {columns : List Column} (h : Listed Column.Written columns ps)
    (hts : Tokens ps ts) : ∃ es, elements g (.symbol "(" :: (ts ++ [.symbol ")"])) =
      some (some es, []) ∧
      List.Forall₂ (fun c e => Command.column e = .ok c) columns es := by
  have hstop : Before loose [.symbol ")"] := by simp [loose, Token.capital]
  obtain ⟨es, hes, hcolumns⟩ := h.csv (p := element g) (by decide)
    (fun _ _ _ _ h hts stop => h.element hts stop) hts hstop rfl
  -- The first of the elements begins with the name of a column.
  obtain ⟨name, more, rfl⟩ : ∃ name more, ts = .name name :: more := by
    cases h with
    | one h =>
      obtain ⟨⟩ := h
      obtain ⟨more, -, rfl⟩ := Tokens.name_iff.mp hts
      exact ⟨_, more, rfl⟩
    | more h rest =>
      obtain ⟨⟩ := h
      obtain ⟨more, -, rfl⟩ := Tokens.name_iff.mp hts
      exact ⟨_, more, rfl⟩
  refine ⟨es, ?_, hcolumns⟩
  rw [List.cons_append] at hes
  have hopen : expectSymbol "(" (.symbol "(" :: .name name :: (more ++ [.symbol ")"])) =
      some ((), .name name :: (more ++ [.symbol ")"])) := by simp [expectSymbol_apply, symbol]
  have hwrapped : wrapped (csv (element g)) (.symbol "(" :: .name name :: (more ++ [.symbol ")"])) =
      some (es, []) := by
    rw [wrapped, step hopen, step hes]
    simp [expectSymbol_apply, symbol]
  simp [elements, hwrapped]

theorem property_nil : property g [] = some (none, []) :=
  attempt_eq_none (by simp [word, oneOfWords, need_apply, Grammar.column, name, nameExcept])

/-- What is behind the elements of a table at the end of the text. -/
theorem create_end {elements? : Option (List Element)} {t : QualifiedName} {exists? : Bool} :
    (do
      let _ ← many (property (nesting g))
      let _ ← word "AS"
      let _ ← many (property (nesting g))
      let _ ← innerQuery (nesting g)
      wholeOr (if "TABLE" = "TABLE" then .createTable t exists? elements? else .create "TABLE"))
      [] = some (.createTable t exists? elements?, []) := by
  have hquery : (nesting g).query [] = some (none, []) := rfl
  have hinner : innerQuery (nesting g) [] = some (none, []) := by
    rw [innerQuery, step hquery]
    exact attempt_eq_none (by simp [wrapped, expectSymbol_apply, symbol])
  rw [step (many_eq_nil property_nil), step rfl, step (many_eq_nil property_nil), step hinner]
  rfl

theorem ifExists_written {exists? : Bool} {name : String} (hname : IsTable name)
    (hts : Tokens ((if exists? then [.word "IF", .word "NOT", .word "EXISTS"] else []) ++
      .name name :: ps) ts) :
    ∃ us, Tokens ps us ∧ ifExists true ts = some (exists?, .name name :: us) := by
  cases exists? with
  | false =>
    obtain ⟨us, hus, rfl⟩ := Tokens.name_iff.mp hts
    exact ⟨us, hus, ifExists_none hname⟩
  | true =>
    obtain ⟨s₁, us, hs₁, hus, rfl⟩ := Tokens.word_iff.mp hts
    obtain ⟨s₂, vs, hs₂, hvs, rfl⟩ := Tokens.word_iff.mp hus
    obtain ⟨s₃, ws, hs₃, hws, rfl⟩ := Tokens.word_iff.mp hvs
    obtain ⟨us, hus', rfl⟩ := Tokens.name_iff.mp hws
    exact ⟨us, hus', ifNotExists_of_words hs₁ hs₂ hs₃⟩

theorem create_written {table : String} {columns : List Column} {exists? : Bool}
    (ht : IsTable table) (hc : Listed Column.Written columns ps) (hts : Tokens (.word "TABLE" ::
      (if exists? then [.word "IF", .word "NOT", .word "EXISTS"] else []) ++
      .name table :: .symbol '(' :: ps ++ [.symbol ')']) ts) :
    ∃ es, create (nesting g) ts =
      some (.createTable ⟨[], ⟨table, true⟩⟩ exists? (some es), []) ∧
      List.Forall₂ (fun c e => Command.column e = .ok c) columns es := by
  obtain ⟨s, us, hs, hus, rfl⟩ := Tokens.word_iff.mp hts
  obtain ⟨vs, hvs, hexists⟩ := ifExists_written ht (by simpa using hus)
  obtain ⟨xs, hxs, rfl⟩ := Tokens.enclosed hvs
  obtain ⟨es, hes, hcolumns⟩ := elements_of_listed (g := nesting g) hc hxs
  refine ⟨es, ?_, hcolumns⟩
  have hreplace : words ["OR", "REPLACE"] (.word s :: us) = some (false, .word s :: us) :=
    words_of_before (show Before [.word "TABLE"] _ by simp [Token.capital, hs]) (by decide)
  have hunique : word "UNIQUE" (.word s :: us) = some (false, .word s :: us) :=
    word_of_ne (by simp [hs])
  have hkind : oneOfWords (["TABLE", "VIEW", "INDEX", "DATABASE", "SCHEMA"].map fun w => (w, w))
      (.word s :: us) = some (some "TABLE", us) :=
      oneOfWords_of_word (e := ("TABLE", "TABLE")) hs rfl
  have htable : tableName (.name table :: .symbol "(" :: (xs ++ [.symbol ")"])) =
      some (some ⟨[], ⟨table, true⟩⟩, .symbol "(" :: (xs ++ [.symbol ")"])) :=
    tableName_name (by simp [symbol])
  have hcomma : symbol "," (.symbol "(" :: (xs ++ [.symbol ")"])) =
      some (false, .symbol "(" :: (xs ++ [.symbol ")"])) := by simp [symbol]
  rw [Grammar.create, step hreplace, step hunique, step (temporary_of_word hs), step hkind]
  dsimp only
  rw [step hexists, if_neg (by decide), step (need_eq_some htable), step hcomma, step hes]
  exact create_end

/-! ## Rows -/

/-- A value of a row that is inserted. -/
def rowValue (g : Grammar) : Parser (Option Expr) := do
  if ← word "DEFAULT" then return some (.verbatim "DEFAULT") else item g

theorem row_eq : row g = (do
    if ← symbol "(" then
      let values ← csv (rowValue g)
      expectSymbol ")"
      return some values
    else return (← item g).map ([·])) := rfl

/-- A value with nothing behind it but the end of its part. -/
theorem item_of_equalities {e? : Option Expr} (h : equalities g ts = some (e?, rest))
    (stop : Before loose rest) : item g ts = some (e?, rest) :=
  aliased_of_before (condition_of_equalities h stop (by decide)) stop (by decide)

theorem item_of_signed {e? : Option Expr} (h : signed g ts = some (e?, rest))
    (stop : Before loose rest) : item g ts = some (e?, rest) :=
  item_of_equalities (equalities_of_comparison (comparison_of_signed h stop (by decide)) stop
    (by decide)) stop

theorem Literal.Written.item {l : Literal} (h : l.Written ps) (hts : Tokens ps ts)
    (stop : Before loose rest) : ∃ e, rowValue (nesting g) (ts ++ rest) = some (some e, rest) ∧
      Command.literal e = .ok l := by
  obtain ⟨e, he, hliteral, -⟩ := h.signed (g := g) hts (tight_of_loose stop)
  refine ⟨e, ?_, hliteral⟩
  have hdefault : word "DEFAULT" (ts ++ rest) = some (false, ts ++ rest) := by
    cases h <;> obtain ⟨t, us, ht, -, rfl⟩ := List.forall₂_cons_left_iff.mp hts <;>
      obtain rfl := ht <;> simp [word]
  rw [rowValue, skip hdefault]
  exact item_of_signed he stop

theorem rows_of_listed {values : List Literal} (h : Listed Literal.Written values ps)
    (hts : Tokens (.word "VALUES" :: .symbol '(' :: ps ++ [.symbol ')']) ts) :
    ∃ es, rows (nesting g) ts = some (some [es], []) ∧
      List.Forall₂ (fun l e => Command.literal e = .ok l) values es := by
  obtain ⟨s, us, hs, hus, rfl⟩ := Tokens.word_iff.mp hts
  obtain ⟨xs, hxs, rfl⟩ := Tokens.enclosed hus
  have hstop : Before loose [.symbol ")"] := by simp [loose, Token.capital]
  obtain ⟨es, hes, hvalues⟩ := h.csv (p := rowValue (nesting g)) (by decide)
    (fun _ _ _ _ h hts stop => h.item hts stop) hxs hstop rfl
  refine ⟨es, ?_, hvalues⟩
  have hrow : row (nesting g) (.symbol "(" :: (xs ++ [.symbol ")"])) = some (some es, []) := by
    have hopen : symbol "(" (.symbol "(" :: (xs ++ [.symbol ")"])) =
        some (true, xs ++ [.symbol ")"]) := by
      simp [symbol]
    rw [row_eq, take hopen, step hes]
    simp [expectSymbol_apply, symbol]
  have hrows : csv (row (nesting g)) (.symbol "(" :: (xs ++ [.symbol ")"])) = some ([es], []) :=
    csv_of_steps hrow .done rfl
  have halias : tableAlias (nesting g) [] [] = some (none, []) :=
    tableAlias_of_before (before_nil []) (by simp) (by simp)
  have hguard : (guard ((! List.isEmpty [es]) = true) : Parser Unit) [] = some ((), []) := rfl
  have hword : spelled "VALUES" (.word s :: .symbol "(" :: (xs ++ [.symbol ")"])) =
      some (true, .symbol "(" :: (xs ++ [.symbol ")"])) := spelled_of_eq hs
  rw [rows, pass hword, step hrows, step hguard, step halias]
  simp [halias]

theorem target_name {s name : String} (hname : IsTable name) (hs : Text.capitals s = "VALUES") :
    target (nesting g) (.name name :: .word s :: ts) =
    some (.table ⟨[], ⟨name, true⟩⟩, .word s :: ts) := by
  have htable : tableName (.name name :: .word s :: ts) =
      some (some ⟨[], ⟨name, true⟩⟩, .word s :: ts) :=
    tableName_name (by simp [symbol])
  have helements : elements (nesting g) (.word s :: ts) = some (none, .word s :: ts) := rfl
  have has : sees (·.isWord "AS") (.word s :: ts) = some (false, .word s :: ts) := by simp [hs]
  rw [target, step hname.rows]
  dsimp only
  rw [step (query_name name)]
  dsimp only
  rw [step (need_eq_some htable), step helements]
  dsimp only
  rw [skip has]
  rfl

theorem returning_of_before (stop : Before next ts) (apart : Token.word "RETURNING" ∉ next) :
    returning g ts = some (false, ts) := by
  rw [returning, leave (word_of_before stop apart)]
  rfl

theorem insert_written {table : String} {values : List Literal} (ht : IsTable table)
    (hv : Listed Literal.Written values ps)
    (hts : Tokens (.word "INTO" :: .name table :: .word "VALUES" ::
      .symbol '(' :: ps ++ [.symbol ')']) ts) :
    ∃ es, insert (nesting g) ts =
      some (.insert (.table ⟨[], ⟨table, true⟩⟩) (some [es]), []) ∧
      List.Forall₂ (fun l e => Command.literal e = .ok l) values es := by
  obtain ⟨s, us, hs, hus, rfl⟩ := Tokens.word_iff.mp hts
  obtain ⟨vs, hvs, rfl⟩ := Tokens.name_iff.mp hus
  obtain ⟨es, hes, hvalues⟩ := rows_of_listed (g := g) hv hvs
  obtain ⟨s', ws, hs', hws, rfl⟩ := Tokens.word_iff.mp hvs
  refine ⟨es, ?_, hvalues⟩
  have hignore : word "IGNORE" (.word s :: .name table :: .word s' :: ws) =
      some (false, .word s :: .name table :: .word s' :: ws) := word_of_ne (by simp [hs])
  have htable : word "TABLE" (.name table :: .word s' :: ws) =
      some (false, .name table :: .word s' :: ws) := by
    simp [word]
  have hdefault : words ["DEFAULT", "VALUES"] (.word s' :: ws) = some (false, .word s' :: ws) := by
    simp [words, hs']
  have hshown : returning (nesting g) (.word s' :: ws) = some (false, .word s' :: ws) :=
    returning_of_before (show Before [.word "VALUES"] _ by simp [Token.capital, hs']) (by decide)
  rw [Grammar.insert, step hignore, step (word_of_eq hs), step htable, step (target_name ht hs'),
    step hshown, step hdefault, step hes]
  rfl

/-! ## Queries -/

/-- A table behind which a query or a change goes on. -/
theorem source_name {name : String} (hname : IsTable name) (stop : Before afterSource ts) :
    sourceExcept (nesting g) [] (.name name :: ts) =
      some (.table ⟨[], ⟨name, true⟩⟩ none [], ts) :=
  sourceExcept_name hname stop (by decide) (by decide)

theorem joinWords_of_before (stop : Before [.word "WHERE", .word "SET"] ts) :
    joinWords ts = some (none, ts) := by
  refine attempt_eq_none ?_
  have hmethod : oneOfWords [("NATURAL", ()), ("ASOF", ())] ts = some (none, ts) :=
    oneOfWords_of_before stop (by decide)
  have hside : oneOfWords [("LEFT", "LEFT"), ("RIGHT", "RIGHT"), ("FULL", "FULL")] ts =
      some (none, ts) :=
    oneOfWords_of_before stop (by decide)
  have hkind : oneOfWords (joinKinds.map fun w => (w, w)) ts = some (none, ts) :=
    oneOfWords_of_before stop (by decide)
  have hjoin : word "JOIN" ts = some (false, ts) := word_of_before stop (by decide)
  rw [step hmethod, step hside, step hkind, step hjoin]
  simp

theorem join_of_before (stop : Before [.word "WHERE", .word "SET"] ts) :
    join g ts = some (none, ts) := by
  rw [join, skip (symbol_of_before stop (by decide)), step (joinWords_of_before stop)]
  rfl

theorem many_join_of_before (stop : Before [.word "WHERE", .word "SET"] ts) :
    many (join g) ts = some ([], ts) := many_eq_nil (join_of_before stop)

theorem where?_written {s : String} {e : Expr} (hs : Text.capitals s = "WHERE")
    (h : condition g ts = some (some e, rest)) : where? g (.word s :: ts) =
    some (some e, rest) := by
  rw [where?, take (word_of_eq hs), step (need_eq_some h)]
  rfl

theorem modifier_nil : modifier g [] = some (none, []) := by
  have hwhere : where? g [] = some (none, []) := rfl
  have horder : order g [] = some (none, []) := rfl
  have hlimit : limit g [] = some (none, []) := rfl
  have hoffset : offset g [] = some (none, []) := rfl
  have hlocking : locking [] = some (false, []) := by simp [locking, words]
  have hword : ∀ w, word w [] = some (false, []) := fun _ => rfl
  rw [modifier, step hwhere]
  dsimp only
  rw [skip (hword _), skip (hword _), skip (hword _), step horder]
  dsimp only
  rw [step hlimit]
  dsimp only
  rw [step hoffset]
  dsimp only
  rw [skip hlocking]
  rfl

theorem modifier_where {s : String} {e : Expr} (hs : Text.capitals s = "WHERE")
    (h : condition g ts = some (some e, rest)) :
    modifier g (.word s :: ts) = some (some (.condition e), rest) := by
  rw [modifier, step (where?_written hs h)]
  rfl

/-- A query for all columns, up to the word `FROM`. -/
theorem select_star {s s' : String} {found : List Modifier} {source : Source} {joins : List Join}
    {where? : Option Expr} {us : List Token} (hs : Text.capitals s = "SELECT")
    (hs' : Text.capitals s' = "FROM") (hsource : sourceExcept (nesting g) [] us = some (source, ts))
    (hjoins : many (join (nesting g)) ts = some (joins, rest))
    (hfound : many (modifier (nesting g)) rest = some (found, []))
    (hcollect : collect found = some (where?, [])) :
    combinedQuery (nesting g) (.word s :: .symbol "*" :: .word s' :: us) =
      some (some (.mk [.star] (some source) joins where? []), []) := by
  have hstop : Before loose (.word s' :: us) := by simp [Token.capital, hs', loose]
  have hdistinct : distinct (.symbol "*" :: .word s' :: us) =
      some (false, .symbol "*" :: .word s' :: us) := by simp [distinct]
  have hstar : signed (nesting g) (.symbol "*" :: .word s' :: us) =
      some (some .star, .word s' :: us) := by
    rw [signed_of_operand (by simp [isSign]), operand_of_head head_star (tight_of_loose hstop)]
  have hitems : csv (item (nesting g)) (.symbol "*" :: .word s' :: us) =
      some ([.star], .word s' :: us) :=
    csv_of_steps (item_of_signed hstar hstop) .done rfl
  have hinto : word "INTO" (.word s' :: us) = some (false, .word s' :: us) :=
    word_of_ne (by simp [hs'])
  have hfrom : from? (nesting g) (.word s' :: us) = some (some source, ts) := by
    rw [from?, take (word_of_eq hs'), step hsource]
    rfl
  have hselect : select (nesting g) (.word s :: .symbol "*" :: .word s' :: us) =
      some (some (.mk [.star] (some source) joins where? []), []) := by
    rw [select, pass (word_of_eq hs), step hdistinct, step hitems, skip hinto]
    dsimp only
    rw [step hfrom, step hjoins, step hfound, hcollect]
    rfl
  rw [combinedQuery, step hselect]
  dsimp only
  rw [step (many_eq_nil rfl)]
  rfl

/-- The statement that a query is. -/
theorem select_all_written {table : String} (ht : IsTable table)
    (hts : Tokens [.word "SELECT", .symbol '*', .word "FROM", .name table] ts) :
    combinedQuery (nesting g) ts =
      some (some (.mk [.star] (some (.table ⟨[], ⟨table, true⟩⟩ none [])) [] none []),
        []) := by
  obtain ⟨s, us, hs, hus, rfl⟩ := Tokens.word_iff.mp hts
  obtain ⟨vs, hvs, rfl⟩ := Tokens.symbol_iff.mp hus
  obtain ⟨s', ws, hs', hws, rfl⟩ := Tokens.word_iff.mp hvs
  obtain ⟨xs, hxs, rfl⟩ := Tokens.name_iff.mp hws
  obtain rfl := Tokens.nil_iff.mp hxs
  exact select_star hs hs' (source_name ht (by simp)) (many_join_of_before (by simp))
    (many_eq_nil modifier_nil) rfl

theorem select_written {table : String} {c : Comparison} (ht : IsTable table) (hc : c.Written ps)
    (hts : Tokens (.word "SELECT" :: .symbol '*' :: .word "FROM" :: .name table :: .word "WHERE" ::
      ps) ts) :
    ∃ e, combinedQuery (nesting g) ts =
      some (some (.mk [.star] (some (.table ⟨[], ⟨table, true⟩⟩ none [])) [] (some e) []),
        []) ∧
      Command.comparison e = .ok c := by
  obtain ⟨s, us, hs, hus, rfl⟩ := Tokens.word_iff.mp hts
  obtain ⟨vs, hvs, rfl⟩ := Tokens.symbol_iff.mp hus
  obtain ⟨s', ws, hs', hws, rfl⟩ := Tokens.word_iff.mp hvs
  obtain ⟨xs, hxs, rfl⟩ := Tokens.name_iff.mp hws
  obtain ⟨w, ys, hw, hys, rfl⟩ := Tokens.word_iff.mp hxs
  obtain ⟨e, he, hcomparison⟩ := hc.equalities (g := g) hys (before_nil loose)
  rw [List.append_nil] at he
  refine ⟨e, ?_, hcomparison⟩
  have hcondition := modifier_where hw (condition_of_equalities he (before_nil []) (by simp))
  have hsteps : Steps (modifier (nesting g)) [.condition e] (.word w :: ys) [] :=
    .more hcondition (by simp) .done
  refine select_star hs hs' (source_name ht ?_) (many_join_of_before ?_) (hsteps.many modifier_nil)
    (by simp [collect])
  · simp [Token.capital, hw, afterSource]
  · simp [Token.capital, hw]

theorem joinWords_written {inner : Bool}
    (hts : Tokens ((if inner then [.word "INNER"] else []) ++ .word "JOIN" :: ps) ts) :
    ∃ us kind, Tokens ps us ∧ joinWords ts = some (some (false, kind), us) ∧
      (kind = "" ∨ kind = "INNER") ∧ us.length < ts.length ∧
      Before [.word "JOIN", .word "INNER"] ts := by
  have hnone : ∀ {α : Type} {table : List (String × α)} {w s : String} {us : List Token},
      Text.capitals s = w → (∀ e ∈ table, w ≠ e.1) →
      oneOfWords table (.word s :: us) = some (none, .word s :: us) :=
    fun {_ _ w s us} hs hw => by
      have hstop : Before [.word w] (.word s :: us) := by simp [Token.capital, hs]
      exact oneOfWords_of_before hstop fun e he => by simpa using (hw e he).symm
  cases inner with
  | false =>
    obtain ⟨s, us, hs, hus, rfl⟩ := Tokens.word_iff.mp hts
    refine ⟨us, "", hus, attempt_eq_some ?_, .inl rfl, by simp, by simp [Token.capital, hs]⟩
    rw [step (hnone hs (by decide)), step (hnone hs (by decide)), step (hnone hs (by decide)),
      step (word_of_eq hs)]
    rfl
  | true =>
    obtain ⟨s', vs, hs', hvs, rfl⟩ := Tokens.word_iff.mp hts
    obtain ⟨s, us, hs, hus, rfl⟩ := Tokens.word_iff.mp hvs
    have hkind : oneOfWords (joinKinds.map fun w => (w, w)) (.word s' :: .word s :: us) =
        some (some "INNER", .word s :: us) := oneOfWords_of_word (e := ("INNER", "INNER")) hs' rfl
    refine ⟨us, "INNER", hus, attempt_eq_some ?_, .inr rfl,
      Nat.lt_succ_of_le (Nat.le_succ us.length), by simp [Token.capital, hs']⟩
    rw [step (hnone hs' (by decide)), step (hnone hs' (by decide)), step hkind,
      step (word_of_eq hs)]
    rfl

theorem join_written {left right : String} {on : Pairing} {inner : Bool} (hleft : IsTable left)
    (hright : IsTable right) (ho : on.Written ps)
    (hts : Tokens (.word "SELECT" :: .symbol '*' :: .word "FROM" :: .name left ::
      (if inner then [.word "INNER"] else []) ++ .word "JOIN" :: .name right :: .word "ON" :: ps)
      ts) :
    ∃ kind l r, combinedQuery (nesting g) ts =
      some (some (.mk [.star] (some (.table ⟨[], ⟨left, true⟩⟩ none []))
      [.mk kind (.table ⟨[], ⟨right, true⟩⟩ none []) (some (.binary .eq l r))] none []),
      []) ∧ (kind = "" ∨ kind = "INNER") ∧ l.columnRef? = some on.left ∧
      r.columnRef? = some on.right := by
  obtain ⟨s, us, hs, hus, rfl⟩ := Tokens.word_iff.mp hts
  obtain ⟨vs, hvs, rfl⟩ := Tokens.symbol_iff.mp hus
  obtain ⟨s', ws, hs', hws, rfl⟩ := Tokens.word_iff.mp hvs
  obtain ⟨xs, hxs, rfl⟩ := Tokens.name_iff.mp hws
  obtain ⟨ys, kind, hys, hwords, hkind, hlen, hnext⟩ := joinWords_written hxs
  obtain ⟨zs, hzs, rfl⟩ := Tokens.name_iff.mp hys
  obtain ⟨w, vs', hw, hvs', rfl⟩ := Tokens.word_iff.mp hzs
  obtain ⟨l, r, hpair, hl, hr⟩ := ho.equalities (g := g) hvs' (before_nil loose)
  rw [List.append_nil] at hpair
  refine ⟨kind, l, r, ?_, hkind, hl, hr⟩
  have hsource : sourceExcept (nesting g) [] (.name right :: .word w :: vs') =
      some (.table ⟨[], ⟨right, true⟩⟩ none [], .word w :: vs') :=
    source_name hright (by simp [Token.capital, hw, afterSource])
  have hon : joinCondition (nesting g) (.word w :: vs') =
      some (some (some (.binary .eq l r)), []) := by
    rw [joinCondition, take (word_of_eq hw),
      step (condition_of_equalities hpair (before_nil []) (by simp))]
    rfl
  have hjoin : join (nesting g) xs =
      some (some (.mk kind (.table ⟨[], ⟨right, true⟩⟩ none []) (some (.binary .eq l r))),
        []) := by
    rw [join, skip (symbol_of_before hnext (by decide)), step hwords]
    dsimp only
    rw [step hsource, step hon]
    rfl
  have hsteps : Steps (join (nesting g))
      [.mk kind (.table ⟨[], ⟨right, true⟩⟩ none []) (some (.binary .eq l r))]
      xs [] := .more hjoin (by simp at hlen ⊢; omega) .done
  exact select_star hs hs' (source_name hleft (hnext.mono (by simp [afterSource])))
    (hsteps.many (join_of_before (by simp))) (many_eq_nil modifier_nil) rfl

/-! ## Changes -/

theorem updatePart_nil : updatePart g [] = some (none, []) := by
  have hwhere : where? g [] = some (none, []) := rfl
  have hfrom : from? g [] = some (none, []) := rfl
  have horder : order g [] = some (none, []) := rfl
  have hlimit : limit g [] = some (none, []) := rfl
  have hset : word "SET" [] = some (false, []) := rfl
  rw [updatePart, skip hset, step hwhere]
  dsimp only
  rw [step hfrom]
  dsimp only
  rw [step horder]
  dsimp only
  rw [step hlimit]
  dsimp only
  rw [skip (returning_of_before (before_nil []) (by simp))]
  rfl

theorem update_written {table : String} {found : List (String × Literal)} {key : Comparison}
    {qs : List Piece} (ht : IsTable table) (ha : Listed Assigned found ps) (hk : key.Written qs)
    (hts : Tokens (.name table :: .word "SET" :: ps ++ .word "WHERE" :: qs) ts) :
    ∃ es e, update (nesting g) ts =
    some (.update (.table ⟨[], ⟨table, true⟩⟩ none []) es (some e),
      []) ∧ List.Forall₂ (fun a e => ∃ l r, e = .binary .eq l r ∧
        l.columnRef? = some ⟨none, a.1⟩ ∧
        Command.literal r = .ok a.2) found es ∧ Command.comparison e = .ok key := by
  obtain ⟨us, hus, rfl⟩ := Tokens.name_iff.mp hts
  obtain ⟨s, vs, hs, hvs, rfl⟩ := Tokens.word_iff.mp hus
  obtain ⟨ws, xs, hws, hxs, rfl⟩ := Tokens.append_iff.mp hvs
  obtain ⟨w, ys, hw, hys, rfl⟩ := Tokens.word_iff.mp hxs
  have hstop : Before loose (.word w :: ys) := by simp [Token.capital, hw, loose]
  have hassigned : ∀ (a : String × Literal) ps ts rest, Assigned a ps → Tokens ps ts →
      Before loose rest →
      ∃ e, equalities (nesting g) (ts ++ rest) = some (some e, rest) ∧ ∃ l r,
        e = .binary .eq l r ∧
        l.columnRef? = some ⟨none, a.1⟩ ∧ Command.literal r = .ok a.2 :=
        fun _ _ _ _ h hts stop => by
    obtain ⟨l, r, he, hl, hr⟩ := h.equalities (g := g) hts stop
    exact ⟨_, he, l, r, rfl, hl, hr⟩
  obtain ⟨es, hes, hfound⟩ := ha.csv (by decide) hassigned hws hstop (by simp [symbol])
  obtain ⟨e, he, hcomparison⟩ := hk.equalities (g := g) hys (before_nil loose)
  rw [List.append_nil] at he
  refine ⟨es, e, ?_, hfound, hcomparison⟩
  have hset : Before [.word "SET"] (.word s :: (ws ++ .word w :: ys)) := by simp [Token.capital, hs]
  have hsource : sourceExcept (nesting g) ["SET"]
      (.name table :: .word s :: (ws ++ .word w :: ys)) =
      some (.table ⟨[], ⟨table, true⟩⟩ none [], .word s :: (ws ++ .word w :: ys)) :=
    sourceExcept_name ht hset (by decide) (by decide)
  have hassign : updatePart (nesting g) (.word s :: (ws ++ .word w :: ys)) =
      some (some (.set es), .word w :: ys) := by
    rw [updatePart, take (word_of_eq hs), step hes]
    rfl
  have hcondition := condition_of_equalities he (before_nil []) (by simp)
  have hwhere : updatePart (nesting g) (.word w :: ys) = some (some (.condition e), []) := by
    rw [updatePart, skip (word_of_ne (by simp [hw])), step (where?_written hw hcondition)]
    rfl
  have hparts : many (updatePart (nesting g)) (.word s :: (ws ++ .word w :: ys)) =
      some ([.set es, .condition e], []) :=
    (Steps.more hassign (by simp only [List.length_cons, List.length_append]; omega)
      (.more hwhere (by simp) .done)).many updatePart_nil
  have hjoins := many_join_of_before (g := nesting g) (hset.mono (by simp))
  rw [Grammar.update, step hsource, step hjoins, step hparts]
  rfl

theorem delete_written {table : String} {key : Comparison} (ht : IsTable table)
    (hk : key.Written ps) (hts : Tokens (.word "FROM" :: .name table :: .word "WHERE" :: ps) ts) :
    ∃ e, delete (nesting g) ts =
      some (.delete (some (.table ⟨[], ⟨table, true⟩⟩ none [])) (some e),
      []) ∧ Command.comparison e = .ok key := by
  obtain ⟨s, us, hs, hus, rfl⟩ := Tokens.word_iff.mp hts
  obtain ⟨vs, hvs, rfl⟩ := Tokens.name_iff.mp hus
  obtain ⟨w, ws, hw, hws, rfl⟩ := Tokens.word_iff.mp hvs
  obtain ⟨e, he, hcomparison⟩ := hk.equalities (g := g) hws (before_nil loose)
  rw [List.append_nil] at he
  refine ⟨e, ?_, hcomparison⟩
  have hstop : Before [.word "WHERE"] (.word w :: ws) := by simp [Token.capital, hw]
  have hsees : sees (·.isWord "FROM") (.word s :: .name table :: .word w :: ws) =
      some (true, .word s :: .name table :: .word w :: ws) := by simp [hs]
  have hsource : sourceExcept (nesting g) [] (.name table :: .word w :: ws) =
      some (.table ⟨[], ⟨table, true⟩⟩ none [], .word w :: ws) :=
      source_name ht (hstop.mono (by simp [afterSource]))
  have hjoins := many_join_of_before (g := nesting g) (hstop.mono (by simp))
  have hshown : returning (nesting g) (.word s :: .name table :: .word w :: ws) =
      some (false, .word s :: .name table :: .word w :: ws) :=
    returning_of_before (show Before [.word "FROM"] _ by simp [Token.capital, hs]) (by decide)
  have husing : word "USING" (.word w :: ws) = some (false, .word w :: ws) :=
    word_of_ne (by simp [hw])
  have hcondition := condition_of_equalities he (before_nil []) (by simp)
  rw [Grammar.delete]
  dsimp only
  have hfrom : (some <$> (do
      let s ← sourceExcept (nesting g) []
      return withJoins s (← many (join (nesting g)))) : Parser (Option Source))
      (.name table :: .word w :: ws) =
      some (some (.table ⟨[], ⟨table, true⟩⟩ none []), .word w :: ws) := by
    simp [hsource, hjoins, withJoins]
  rw [pass hsees, step hshown, take (word_of_eq hs), step hfrom, skip husing,
    step (where?_written hw hcondition), if_pos (show (!false) = true from rfl),
    step (returning_of_before (before_nil []) (by simp))]
  rfl

/-! ## Statements -/

/-- The word `SELECT` begins no value. -/
theorem item_select {s : String} (hs : Text.capitals s = "SELECT") :
    item (nesting g) (.word s :: ts) = some (none, .word s :: ts) := by
  have hstop : Before [.word "SELECT"] (.word s :: ts) := by simp [Token.capital, hs]
  have htyped : typed (.word s :: ts) = some (none, .word s :: ts) := by
    refine attempt_eq_none ?_
    rw [step (oneOfWords_of_before hstop (by decide))]
    simp
  have hatom : acceptMap atom? (.word s :: ts) = some (none, .word s :: ts) := by
    simp [acceptMap_cons, atom?, hs]
  have hstring : strings (.word s :: ts) = some (none, .word s :: ts) :=
    strings_eq_none (by simp [stringPart, acceptMap_cons])
  have hfraction : fraction (.word s :: ts) = some (none, .word s :: ts) :=
    attempt_eq_none (by simp [symbol])
  have hparens : inParens (nesting g) (.word s :: ts) = some (none, .word s :: ts) := by
    rw [inParens, leave (symbol_of_before hstop (by decide))]
    rfl
  have hcall : call (nesting g) (.word s :: ts) = some (none, .word s :: ts) := by
    refine attempt_eq_none ?_
    rw [step (nameExcept_of_before hstop (by decide))]
    simp
  have hcolumn : Grammar.column (.word s :: ts) = some (none, .word s :: ts) := by
    rw [Grammar.column, name, step (nameExcept_of_before hstop (by decide))]
    rfl
  have hparameter : parameter (.word s :: ts) = some (none, .word s :: ts) := by
    simp [parameter, parameter.oneOf, acceptMap_cons]
  have hhead : head (nesting g) (.word s :: ts) = some (none, .word s :: ts) := by
    rw [head, firstOf_skip htyped, firstOf_skip hatom, firstOf_skip hstring, firstOf_skip hfraction,
      firstOf_skip hparens, firstOf_skip hcall, firstOf_skip hcolumn, firstOf_skip hparameter]
    rfl
  have hsigned : signed (nesting g) (.word s :: ts) = some (none, .word s :: ts) := by
    rw [signed_of_operand (by simp [isSign, hs]), operand_eq, step hhead]
    rfl
  have hcomparison := comparison_of_signed hsigned hstop (by decide)
  have hequalities := equalities_of_comparison hcomparison hstop (by decide)
  exact aliased_of_before (condition_of_equalities hequalities hstop (by decide)) hstop (by decide)

/-- A text that begins with the word `SELECT` is read as a query. -/
theorem statement_select {s : String} {q : Query} (hs : Text.capitals s = "SELECT")
    (h : combinedQuery (nesting g) (.word s :: ts) = some (some q, rest)) :
    statement (nesting g) (.word s :: ts) = some (queryStatement q, rest) := by
  have hstop : Before [.word "SELECT"] (.word s :: ts) := by simp [Token.capital, hs]
  have hwords : oneOfWords [("CREATE", create (nesting g)), ("DROP", drop),
      ("INSERT", insert (nesting g)),
      ("UPDATE", update (nesting g)), ("DELETE", delete (nesting g))] (.word s :: ts) =
      some (none, .word s :: ts) := oneOfWords_of_before hstop (by simp)
  have hcommand : sees (fun t => commandWords.any t.isWord) (.word s :: ts) =
      some (false, .word s :: ts) := by
    simp [hs, commandWords]
  rw [statement, step hwords]
  dsimp only
  rw [skip hcommand, step (item_select hs)]
  dsimp only
  rw [step (need_eq_some h)]
  rfl

@[simp] theorem ok_bind {α β ε : Type} (a : α) (f : α → Except ε β) :
    (Except.ok a >>= f) = f a := rfl

theorem mapM_of_forall₂ {α β ε : Type} {f : β → Except ε α} {as : List α} {bs : List β}
    (h : List.Forall₂ (fun a b => f b = .ok a) as bs) : bs.mapM f = .ok as := by
  induction h with
  | nil => rfl
  | cons hab _ ih =>
    rw [List.mapM_cons, hab, ih]
    rfl

/-- The values that are assigned one after the other. -/
theorem foldlM_assignments {found : List (String × Literal)} {es : List Expr}
    (h : List.Forall₂ (fun a e => ∃ l r, e = .binary .eq l r ∧
      l.columnRef? = some ⟨none, a.1⟩ ∧
      Command.literal r = .ok a.2) found es) (done : List (String × Literal)) :
    es.foldlM (fun done e =>
      match e with
      | .binary .eq l r =>
        match l.columnRef? with
        | some c => return Keyed.set c.name (← Command.literal r) done
        | none => Command.refuse .assignment
      | _ => Command.refuse .assignment) done =
      (.ok (found.foldl (fun done a => Keyed.set a.1 a.2 done) done) : Command.Narrowed _) := by
  induction h generalizing done with
  | nil => rfl
  | cons hae _ ih =>
    obtain ⟨l, r, rfl, hl, hr⟩ := hae
    rw [List.foldlM_cons, List.foldl_cons, ← ih]
    simp only [hl, hr]
    rfl

theorem assignmentsOf_written {found : List (String × Literal)} {es : List Expr}
    (h : List.Forall₂ (fun a e => ∃ l r, e = .binary .eq l r ∧
      l.columnRef? = some ⟨none, a.1⟩ ∧
      Command.literal r = .ok a.2) found es) : Command.assignmentsOf es =
      .ok (Command.settled found) :=
  foldlM_assignments h []

theorem firstSource?_some (projections : List Expr) (s : Source) (joins : List Join)
    (where? : Option Expr) (clauses : List (Clause × String)) :
    (Query.mk projections (some s) joins where? clauses).firstSource? = some s := rfl

theorem Command.shownKind_table : shownKind "TABLE" = "TABLE" := by decide

theorem Command.shownJoin_of_inner {words : String} (h : words = "" ∨ words = "INNER") :
    shownJoin words = words := by
  rcases h with rfl | rfl <;> decide

/-- What is written for a command is read as a statement that is narrowed to it. -/
theorem statement_written {c : Command} (h : c.Written ps) (apart : c.Apart) (hts : Tokens ps ts) :
    ∃ s, statement (nesting g) ts = some (s, []) ∧ Command.ofStatement s = .ok c := by
  have hdispatch : ∀ {w s : String} {p : Parser Statement} {us : List Token} {r : Statement},
      Text.capitals s = w → (w, p) ∈
        [("CREATE", create (nesting g)), ("DROP", drop), ("INSERT", insert (nesting g)),
        ("UPDATE", update (nesting g)), ("DELETE", delete (nesting g))] → p us = some (r, []) →
      statement (nesting g) (.word s :: us) = some (r, []) := by
    intro w s p us r hs hmem hp
    have hfound : oneOfWords [("CREATE", create (nesting g)), ("DROP", drop),
      ("INSERT", insert (nesting g)),
        ("UPDATE", update (nesting g)), ("DELETE", delete (nesting g))] (.word s :: us) =
        some (some p, us) := by
      simp only [List.mem_cons, Prod.mk.injEq, List.not_mem_nil, or_false] at hmem
      rcases hmem with ⟨rfl, rfl⟩ | ⟨rfl, rfl⟩ | ⟨rfl, rfl⟩ | ⟨rfl, rfl⟩ |
        ⟨rfl, rfl⟩ <;> simp [oneOfWords, acceptMap_cons, hs]
    rw [statement, step hfound]
    exact hp
  cases h with
  | @createTable table columns exists? ps ht hc =>
    obtain ⟨s, us, hs, hus, rfl⟩ := Tokens.word_iff.mp hts
    obtain ⟨es, hes, hcolumns⟩ := create_written (g := g) apart hc hus
    refine ⟨_, hdispatch hs (by simp) hes, ?_⟩
    have hne : es ≠ [] := by
      rintro rfl
      exact hc.nonempty (List.forall₂_nil_right_iff.mp hcolumns)
    simp [Command.ofStatement, Command.createOf, Command.orRefuse, hne, mapM_of_forall₂ hcolumns]
  | @dropTable table exists? ht =>
    obtain ⟨s, us, hs, hus, rfl⟩ := Tokens.word_iff.mp hts
    refine ⟨_, hdispatch hs (by simp) (drop_written apart hus), ?_⟩
    simp [Command.ofStatement, Command.shownKind_table, ht.1]
  | @insert table values ps ht hv =>
    obtain ⟨s, us, hs, hus, rfl⟩ := Tokens.word_iff.mp hts
    obtain ⟨es, hes, hvalues⟩ := insert_written (g := g) apart hv hus
    refine ⟨_, hdispatch hs (by simp) hes, ?_⟩
    simp [Command.ofStatement, Command.insertOf, Command.orRefuse, mapM_of_forall₂ hvalues, ht.1]
  | @selectAll table ht =>
    have hread := select_all_written (g := g) apart hts
    obtain ⟨s, us, hs, hus, rfl⟩ := Tokens.word_iff.mp hts
    refine ⟨_, statement_select hs hread, ?_⟩
    simp [queryStatement, Command.ofStatement, Command.selectOf, Command.orRefuse,
      firstSource?_some, Source.table?, ht.1, Command.foreignClauses]
  | @select table c ps ht hc =>
    obtain ⟨e, hread, hcomparison⟩ := select_written (g := g) apart hc hts
    obtain ⟨s, us, hs, hus, rfl⟩ := Tokens.word_iff.mp hts
    refine ⟨_, statement_select hs hread, ?_⟩
    simp [queryStatement, Command.ofStatement, Command.selectOf, Command.orRefuse,
      firstSource?_some, Source.table?, ht.1, Command.foreignClauses, hcomparison]
  | @join left right on inner ps hl hr ho =>
    obtain ⟨kind, l, r, hread, hkind, hleft, hright⟩ :=
      join_written (g := g) apart.1 apart.2 ho hts
    obtain ⟨s, us, hs, hus, rfl⟩ := Tokens.word_iff.mp hts
    refine ⟨_, statement_select hs hread, ?_⟩
    simp [queryStatement, Command.ofStatement, Command.selectOf, Command.orRefuse,
      firstSource?_some, Source.table?, hl.1, hr.1, Command.foreignClauses, Command.joinOf,
      Command.shownJoin_of_inner hkind, hleft, hright]
    exact fun hplain hinner => (hkind.elim hplain hinner).elim
  | @update table found key ps qs ht ha hk name_eq =>
    obtain ⟨s, us, hs, hus, rfl⟩ := Tokens.word_iff.mp hts
    obtain ⟨es, e, hes, hfound, hcomparison⟩ := update_written (g := g) apart ha hk hus
    refine ⟨_, hdispatch hs (by simp) hes, ?_⟩
    simp [Command.ofStatement, Command.updateOf, Command.orRefuse, Source.table?, ht.1,
      assignmentsOf_written hfound, Command.settled_ne_nil ha.nonempty, Command.keyComparison,
      hcomparison, name_eq]
  | @delete table key qs ht hk name_eq =>
    obtain ⟨s, us, hs, hus, rfl⟩ := Tokens.word_iff.mp hts
    obtain ⟨e, hes, hcomparison⟩ := delete_written (g := g) apart hk hus
    refine ⟨_, hdispatch hs (by simp) hes, ?_⟩
    simp [Command.ofStatement, Command.deleteOf, Command.orRefuse, Source.table?, ht.1,
      Command.keyComparison, hcomparison, name_eq]

/-! ## Texts -/

/-- What stands between gaps is what is left of a text without the blanks around it. -/
theorem trim_of_writes {lead body trail : List Char} (hlead : IsGap lead) (htrail : IsGap trail)
    (h : Writes ps body) (legible : Legible ps) :
    Text.trim (String.ofList (lead ++ body ++ trail)) = String.ofList body := by
  have hgap : ∀ {gap : List Char}, IsGap gap → ∀ c ∈ gap, Text.isBlank c = true :=
    fun hgap c hc => (gap_facts c (hgap c hc)).1
  have hfirst : (body ++ trail).dropWhile Text.isBlank = body ++ trail := by
    cases ps with
    | nil => cases h
    | cons p ps =>
      obtain ⟨c, tail, rfl, begins⟩ := h.cons (legible p (by simp))
      simp [Piece.isBlank_of_begins (legible p (by simp)) begins]
  have hlast : body.reverse.dropWhile Text.isBlank = body.reverse := by
    have hblank := h.isBlank_getLast legible
    rw [← List.head?_reverse] at hblank
    cases hbody : body.reverse with
    | nil => rfl
    | cons c tail => simp [hblank c (by simp [hbody])]
  have hreverse : ∀ c ∈ trail.reverse, Text.isBlank c = true :=
    fun c hc => hgap htrail c (by simpa using hc)
  simp only [Text.trim, Text.stripChars, String.toList_ofList]
  rw [List.append_assoc, List.dropWhile_append_of_pos (hgap hlead), hfirst, List.reverse_append,
    List.dropWhile_append_of_pos hreverse, hlast, List.reverse_reverse]

/-- The word that a text begins with. -/
theorem leadingWord_of_writes {w : String} {body : List Char} (h : Writes (.word w :: ps) body)
    (legible : Legible (.word w :: ps)) : Command.leadingWord (String.ofList body) = w := by
  have hword : ∀ {cs rest : List Char}, Cased w cs →
      (∀ c ∈ rest.head?, c.isAlpha = false) →
      Command.leadingWord (String.ofList (cs ++ rest)) = w := by
    intro cs rest hcs hrest
    have hletters : (cs ++ rest).takeWhile Char.isAlpha = cs := by
      have hnone : rest.takeWhile Char.isAlpha = [] := by
        cases rest with
        | nil => rfl
        | cons c rest => simp [hrest c rfl]
      rw [List.takeWhile_append_of_pos hcs.letters, hnone, List.append_nil]
    have hne : cs ≠ [] := by
      rintro rfl
      have hlong := (legible (.word w) (by simp)).1
      simp [← hcs.length_eq] at hlong
    rw [Command.leadingWord, String.toList_ofList, hletters]
    split
    · exact absurd rfl hne
    · exact hcs.capitals_eq
  cases h with
  | last spelled =>
    rw [← List.append_nil body]
    exact hword spelled (by simp)
  | next spelled isGap apart more =>
    rename_i q ps cs gap rest
    have hstop := more.stops isGap apart (legible q (by simp))
    rw [List.append_assoc]
    refine hword spelled fun c hc => ?_
    have hc := hstop c hc
    by_contra hletter
    obtain ⟨hblank, hsingle, -⟩ := letter_facts (by simpa using hletter)
    simp [Piece.stops, Lexer.isWordChar, hblank, hsingle] at hc

/-- Every command is written with a keyword first. -/
theorem Command.Written.first {c : Command} (h : c.Written ps) :
    ∃ w qs, ps = .word w :: qs ∧ w ∈ Command.knownWords := by
  cases h <;> exact ⟨_, _, rfl, by decide⟩

/-- What is written for a command is read as that command, whatever blanks are around it. -/
theorem Command.ofText_written {c : Command} (h : c.Written ps) (apart : c.Apart)
    {lead body trail : List Char} (hlead : IsGap lead) (htrail : IsGap trail)
    (hbody : Writes ps body) : Command.ofText (String.ofList (lead ++ body ++ trail)) = .ok c := by
  have hlegible := h.legible
  obtain ⟨w, qs, rfl, hw⟩ := h.first
  obtain ⟨ts, hts, htokens⟩ := tokens?_of_writes hbody hlegible
  have hsplit := splitStatements_of_plain (hts.not_semicolon hlegible)
  obtain ⟨s, hs, hc⟩ := statement_written (g := ofDepth ts.length) h apart hts
  have hstatement : Statement.ofTokens? ts = some s := by
    have hdepth : ofDepth (ts.length + 1) = nesting (ofDepth ts.length) := rfl
    rw [Statement.ofTokens?, hdepth, hs]
    rfl
  have hread : Statement.read? (String.ofList body) = some [s] := by
    obtain ⟨t, us, -, -, rfl⟩ := List.forall₂_cons_left_iff.mp hts
    rw [Statement.read?, htokens]
    simp only [Option.bind_eq_bind, Option.bind_some, hsplit]
    simp [hstatement]
  have hempty : (String.ofList body).isEmpty = false := by
    obtain ⟨c, tail, rfl, -⟩ := hbody.cons (hlegible _ (by simp))
    rw [String.isEmpty_eq_false_iff]
    simp [-String.ofList_cons]
  have hword := leadingWord_of_writes hbody hlegible
  have htrim := trim_of_writes hlead htrail hbody hlegible
  rw [Command.ofText, htrim]
  simp only [hempty, hword, hread]
  simp [hw, Command.orRefuse, hc]

end Tabulary
