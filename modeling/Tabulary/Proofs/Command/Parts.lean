import Tabulary.Proofs.Command.Written
import Tabulary.Proofs.Sql.Expression

/-!
What is read of the parts of a written command: each part is taken as a whole, up to the token
behind it, and is narrowed to what it was written for.
-/

namespace Tabulary

open Sql Sql.Parser Sql.Grammar

variable {g : Grammar} {ps : List Piece} {ts rest : List Token}

/-! ## Literals and columns -/

theorem Literal.Written.signed {l : Literal} (h : l.Written ps) (hts : Tokens ps ts)
    (stop : Before tight rest) : ∃ e, signed (nesting g) (ts ++ rest) = some (some e, rest) ∧
      Command.literal e = .ok l ∧ e.columnRef? = none := by
  cases h with
  | @number digits h =>
    obtain rfl : ts = [.number digits] := by
      simpa [List.forall₂_cons_left_iff, Piece.IsToken] using hts
    refine ⟨.number digits, ?_, rfl, rfl⟩
    rw [List.singleton_append, signed_of_operand (by simp [isSign]),
      operand_of_head (head_number digits) stop]
  | @negative digits h =>
    obtain rfl : ts = [.symbol "-", .number digits] := by
      simpa [List.forall₂_cons_left_iff, Piece.IsToken] using hts
    exact ⟨.neg (.number digits), signed_minus stop, rfl, rfl⟩
  | @text s h =>
    obtain rfl : ts = [.text s] := by
      simpa [List.forall₂_cons_left_iff, Piece.IsToken] using hts
    refine ⟨.text s, ?_, rfl, rfl⟩
    rw [List.singleton_append, signed_of_operand (by simp [isSign]),
      operand_of_head (head_text stop) stop]

theorem ColumnRef.Written.signed {r : ColumnRef} (h : r.Written ps) (hts : Tokens ps ts)
    (stop : Before tight rest) :
    ∃ e, signed (nesting g) (ts ++ rest) = some (some e, rest) ∧ e.columnRef? = some r := by
  cases h with
  | @bare name h =>
    obtain rfl : ts = [.name name] := by
      simpa [List.forall₂_cons_left_iff, Piece.IsToken] using hts
    refine ⟨.column ⟨[], ⟨name, true⟩⟩, ?_, rfl⟩
    have hparen := symbol_of_before stop (s := "(") (by decide)
    rw [List.singleton_append, signed_of_operand (by simp [isSign]),
      operand_of_head (head_name hparen) stop]
  | @qualified table name ht h =>
    obtain rfl : ts = [.name table, .symbol ".", .name name] := by
      simpa [List.forall₂_cons_left_iff, Piece.IsToken] using hts
    refine ⟨.column ⟨[⟨table, true⟩], ⟨name, true⟩⟩, ?_, ?_⟩
    · change Grammar.signed (nesting g) (.name table :: .symbol "." :: .name name :: rest) = _
      rw [signed_of_operand (by simp [isSign]), operand_member stop]
    · simp [Expr.columnRef?, qualifier?, ht.1]

/-! ## Conditions -/

/-- Both sides of an equals sign. -/
theorem Tokens.split {ps qs : List Piece} (h : Tokens (ps ++ .symbol '=' :: qs) ts) :
    ∃ us vs, Tokens ps us ∧ Tokens qs vs ∧ ts = us ++ .symbol "=" :: vs := by
  obtain ⟨us, vs, hus, hvs, rfl⟩ := Tokens.append_iff.mp h
  obtain ⟨ws, hws, rfl⟩ := Tokens.symbol_iff.mp hvs
  exact ⟨us, ws, hus, hws, rfl⟩

theorem before_equals (ts : List Token) : Before tight (.symbol "=" :: ts) := by
  simp [tight, Token.capital]

theorem Comparison.Written.equalities {c : Comparison} (h : c.Written ps) (hts : Tokens ps ts)
    (stop : Before loose rest) : ∃ e, equalities (nesting g) (ts ++ rest) =
      some (some e, rest) ∧
      Command.comparison e = .ok c := by
  cases h with
  | @columnFirst c l ps qs hc hl =>
    obtain ⟨us, vs, hus, hvs, rfl⟩ := Tokens.split hts
    obtain ⟨e, he, hcolumn⟩ := hc.signed (g := g) hus (before_equals (vs ++ rest))
    obtain ⟨f, hf, hliteral, -⟩ := hl.signed (g := g) hvs (tight_of_loose stop)
    refine ⟨.binary .eq e f, ?_, ?_⟩
    · simpa using equalities_of_pair he hf (by simp) stop
    · simp [Command.comparison, hcolumn, hliteral]
  | @literalFirst c l ps qs hc hl =>
    obtain ⟨us, vs, hus, hvs, rfl⟩ := Tokens.split hts
    obtain ⟨e, he, hliteral, hnone⟩ := hl.signed (g := g) hus (before_equals (vs ++ rest))
    obtain ⟨f, hf, hcolumn⟩ := hc.signed (g := g) hvs (tight_of_loose stop)
    refine ⟨.binary .eq e f, ?_, ?_⟩
    · simpa using equalities_of_pair he hf (by simp) stop
    · simp [Command.comparison, hnone, hcolumn, hliteral]

theorem Pairing.Written.equalities {on : Pairing} (h : on.Written ps) (hts : Tokens ps ts)
    (stop : Before loose rest) : ∃ l r, Grammar.equalities (nesting g) (ts ++ rest) =
      some (some (.binary .eq l r), rest) ∧ l.columnRef? = some on.left ∧
      r.columnRef? = some on.right := by
  obtain ⟨hl, hr⟩ := h
  obtain ⟨us, vs, hus, hvs, rfl⟩ := Tokens.split hts
  obtain ⟨e, he, hleft⟩ := hl.signed (g := g) hus (before_equals (vs ++ rest))
  obtain ⟨f, hf, hright⟩ := hr.signed (g := g) hvs (tight_of_loose stop)
  exact ⟨e, f, by simpa using equalities_of_pair he hf (by simp) stop, hleft, hright⟩

theorem Assigned.equalities {a : String × Literal} (h : Assigned a ps) (hts : Tokens ps ts)
    (stop : Before loose rest) : ∃ l r, Grammar.equalities (nesting g) (ts ++ rest) =
      some (some (.binary .eq l r), rest) ∧ l.columnRef? = some ⟨none, a.1⟩ ∧
      Command.literal r = .ok a.2 := by
  obtain ⟨hname, hl⟩ := h
  rename_i name l qs
  have hsplit : Tokens ([.name name] ++ .symbol '=' :: qs) ts := hts
  obtain ⟨us, vs, hus, hvs, rfl⟩ := Tokens.split hsplit
  obtain ⟨e, he, hcolumn⟩ := (ColumnRef.Written.bare hname).signed (g := g) hus
    (before_equals (vs ++ rest))
  obtain ⟨f, hf, hliteral, -⟩ := hl.signed (g := g) hvs (tight_of_loose stop)
  exact ⟨e, f, by simpa using equalities_of_pair he hf (by simp) stop, hcolumn, hliteral⟩

/-! ## Lists -/

/-- Items with commas between them are read one by one. -/
theorem Listed.csv {α β : Type} {written : α → List Piece → Prop} {p : Parser (Option β)}
    {R : α → β → Prop} {next : List Token} (comma : .symbol "," ∈ next)
    (hp : ∀ a ps ts rest, written a ps → Tokens ps ts → Before next rest →
      ∃ b, p (ts ++ rest) = some (some b, rest) ∧ R a b)
    {as : List α} (h : Listed written as ps) (hts : Tokens ps ts) (stop : Before next rest)
    (last : symbol "," rest = some (false, rest)) :
    ∃ bs, csv p (ts ++ rest) = some (bs, rest) ∧ List.Forall₂ R as bs := by
  have hsteps : ∃ b bs mid, p (ts ++ rest) = some (some b, mid) ∧
      mid.length ≤ (ts ++ rest).length ∧
      Steps (behindComma p) (bs.map some) mid rest ∧ List.Forall₂ R as (b :: bs) := by
    clear last
    induction h generalizing ts with
    | one h =>
      obtain ⟨b, hb, hab⟩ := hp _ _ _ _ h hts stop
      exact ⟨b, [], rest, hb, by simp, .done, .cons hab .nil⟩
    | @more a as ps qs h _ ih =>
      obtain ⟨us, vs, hus, hvs, rfl⟩ := Tokens.append_iff.mp hts
      obtain ⟨ws, hws, rfl⟩ := Tokens.symbol_iff.mp hvs
      obtain ⟨c, cs, mid, hc, hlen, hmore, has⟩ := ih hws
      have hcomma : Before next (.symbol "," :: ws ++ rest) := by simpa [Token.capital]
      obtain ⟨b, hb, hab⟩ := hp _ _ _ _ h hus hcomma
      have hfound : behindComma p (.symbol "," :: ws ++ rest) = some (some (some c), mid) := by
        simp [behindComma, symbol, hc]
      refine ⟨b, c :: cs, .symbol "," :: ws ++ rest, ?_, by simp, ?_, .cons hab has⟩
      · rw [← hb]
        simp
      · exact .more hfound (by simp at hlen ⊢; omega) hmore
  obtain ⟨b, bs, mid, hb, -, hmore, has⟩ := hsteps
  exact ⟨b :: bs, csv_of_steps hb hmore last, has⟩

/-! ## Columns -/

/-- What can follow a rule of a column. -/
def afterRule : List Token := .word "UNIQUE" :: .word "PRIMARY KEY" :: loose

theorem columnRule_unique {s : String} (hs : Text.capitals s = "UNIQUE")
    (stop : Before (.word "PRIMARY KEY" :: loose) ts) :
    columnRule g (.word s :: ts) = some (some .unique, ts) := by
  have hconstraint : word "CONSTRAINT" (.word s :: ts) = some (false, .word s :: ts) :=
    word_of_ne (by simp [hs])
  have hkind : oneOfWords [("KEY", ()), ("INDEX", ())] ts = some (none, ts) :=
    oneOfWords_of_before stop (by decide)
  have hname : name ts = some (none, ts) := nameExcept_of_before stop (by decide)
  have hparen : sees (fun t => t.isSymbol "(") ts = some (false, ts) :=
    sees_symbol_of_before stop (by decide)
  have hrest : uniqueRest g ts = some ("", ts) := by
    rw [uniqueRest, step hkind, step hname, skip hparen]
    rfl
  rw [columnRule, skip hconstraint, pure_bind]
  dsimp only
  rw [take (word_of_eq hs), step hrest]
  rfl

theorem columnRule_key (stop : Before afterRule ts) :
    columnRule g (.word "PRIMARY KEY" :: ts) = some (some .primaryKey, ts) := by
  have hcapitals : Text.capitals "PRIMARY KEY" = "PRIMARY KEY" := by decide
  have hother : ∀ {w : String}, "PRIMARY KEY" ≠ w →
      word w (.word "PRIMARY KEY" :: ts) = some (false, .word "PRIMARY KEY" :: ts) :=
    fun h => word_of_ne (by rwa [hcapitals])
  have hparen : sees (fun t => t.isSymbol "(") ts = some (false, ts) :=
    sees_symbol_of_before stop (by decide)
  have horder : oneOfWords [("ASC", ()), ("DESC", ())] ts = some (none, ts) :=
    oneOfWords_of_before stop (by decide)
  rw [columnRule, skip (hother (by decide)), pure_bind]
  dsimp only
  rw [skip (hother (by decide)), take (word_of_eq hcapitals), skip hparen, step horder]
  rfl

theorem columnRule_none (stop : Before loose ts) : columnRule g ts = some (none, ts) := by
  have hword : ∀ {w : String}, Token.word w ∉ loose → word w ts = some (false, ts) :=
    word_of_before stop
  have hwords : ∀ {w : String} {ws : List String}, Token.word w ∉ loose →
      words (w :: ws) ts = some (false, ts) := words_of_before stop
  have haccept : accept (fun t => t.isWord "AUTO_INCREMENT" || t.isWord "AUTOINCREMENT") ts =
      some (false, ts) := accept_of_before stop fun t ht => by
    rw [isWord_of_before (by decide) t ht, isWord_of_before (by decide) t ht, Bool.or_false]
  rw [columnRule, skip (hword (by decide)), pure_bind]
  dsimp only
  rw [skip (hword (by decide)), skip (hword (by decide)), skip (hwords (by decide)),
    skip (hword (by decide)), skip (hword (by decide)), skip haccept, skip (hword (by decide)),
    skip (hword (by decide)), skip (hword (by decide)), skip (hword (by decide)),
    skip (hwords (by decide)), skip (hword (by decide))]
  rfl

theorem capital_of_unique {t : Token} (h : Column.uniquePiece.IsToken t) :
    t.capital = .word "UNIQUE" := by
  obtain ⟨s, rfl, hs⟩ := h
  simp [Token.capital, hs]

theorem capital_of_key {t : Token} (h : Column.keyPiece.IsToken t) :
    t.capital = .word "PRIMARY KEY" := by
  obtain rfl : t = .word "PRIMARY KEY" := h
  decide

theorem before_pieces {next : List Token}
    (h : ∀ p ∈ ps, ∀ t, p.IsToken t → t.capital ∈ next)
    (hts : Tokens ps ts) (stop : Before next rest) : Before next (ts ++ rest) := by
  cases hts with
  | nil => exact stop
  | @cons p t ps ts hp hps => simpa using h p (by simp) t hp

/-- The rules of a column, each at most once. -/
theorem rules_steps {rules : List Piece} (known : rules ⊆ [Column.uniquePiece, Column.keyPiece])
    (once : rules.Nodup) (hts : Tokens rules ts) (stop : Before loose rest) :
    ∃ rs, Steps (columnRule g) rs (ts ++ rest) rest ∧
      ∀ name, (Column.keyPiece ∈ rules → name = Value.keyColumn) →
        Command.uniqueness name rs = .ok (decide (Column.uniquePiece ∈ rules)) := by
  induction rules generalizing ts with
  | nil =>
    obtain rfl := Tokens.nil_iff.mp hts
    exact ⟨[], .done, fun name _ => rfl⟩
  | cons rule rules ih =>
    obtain ⟨t, us, ht, hus, rfl⟩ := List.forall₂_cons_left_iff.mp hts
    obtain ⟨hnot, hnodup⟩ := List.nodup_cons.mp once
    obtain ⟨rs, hsteps, hunique⟩ := ih (fun p hp => known (by simp [hp])) hnodup hus
    have hknown : ∀ p ∈ rule :: rules, p = Column.uniquePiece ∨ p = Column.keyPiece :=
        fun p hp => by
      simpa using known hp
    -- A second rule, if there is one, is the other of the two.
    rcases hknown rule (by simp) with rfl | rfl
    · obtain ⟨s, rfl, hs⟩ := ht
      have hother : ∀ p ∈ rules, p = Column.keyPiece := fun p hp =>
        (hknown p (by simp [hp])).resolve_left fun heq => hnot (heq ▸ hp)
      have hstop : Before (.word "PRIMARY KEY" :: loose) (us ++ rest) :=
        before_pieces (fun p hp t ht => by simp [capital_of_key (hother p hp ▸ ht)]) hus
          (stop.mono (by simp))
      refine ⟨.unique :: rs, .more (columnRule_unique hs hstop) (by simp) hsteps,
        fun name hname => ?_⟩
      have hmore := hunique name fun hmem => hname (List.mem_cons_of_mem _ hmem)
      simp [Command.uniqueness, hmore]
    · obtain rfl : t = .word "PRIMARY KEY" := ht
      have hother : ∀ p ∈ rules, p = Column.uniquePiece := fun p hp =>
        (hknown p (by simp [hp])).resolve_right fun heq => hnot (heq ▸ hp)
      have hstop : Before afterRule (us ++ rest) :=
        before_pieces (fun p hp t ht => by simp [capital_of_unique (hother p hp ▸ ht), afterRule])
          hus (stop.mono (by simp [afterRule]))
      refine ⟨.primaryKey :: rs, .more (columnRule_key hstop) (by simp) hsteps,
        fun name hname => ?_⟩
      have hmore := hunique name fun hmem => hname (List.mem_cons_of_mem _ hmem)
      have hunique : Column.uniquePiece ≠ Column.keyPiece := by
        simp [Column.uniquePiece, Column.keyPiece]
      simp [Command.uniqueness, hname (List.mem_cons_self ..), ← hmore, hunique]

/-- The word for a type is shown as one that stands for the same type. -/
theorem shown_type {type : ColumnType} {word : String} (h : word ∈ type.words) :
    ∃ shown, typeNames.lookup word = some shown ∧ ∀ column,
    Command.columnType column shown = .ok type := by
  have hall : ∀ word ∈ type.words, ((typeNames.lookup word).bind fun shown =>
      ColumnType.ofWord? (Text.trim (String.ofList (shown.toList.takeWhile (· ≠ '('))))) =
        some type := by
    cases type <;> decide
  obtain ⟨shown, hlookup, htype⟩ := Option.bind_eq_some_iff.mp (hall word h)
  exact ⟨shown, hlookup, fun column => by simp only [Command.columnType, htype]⟩

theorem dataType_word {s w shown : String} (hs : Text.capitals s = w)
    (hlookup : typeNames.lookup w = some shown) (stop : Before afterRule ts) :
    dataType g (.word s :: ts) = some (some shown, ts) := by
  have hword : typeWord (.word s :: ts) = some (some shown, ts) := by
    simp [typeWord, acceptMap_cons, hs, hlookup]
  have hparen := symbol_of_before stop (s := "(") (by decide)
  have hunsigned := word_of_before stop (w := "UNSIGNED") (by decide)
  refine attempt_eq_some ?_
  rw [step hword]
  dsimp only
  rw [skip hparen, pure_bind]
  rw [skip hunsigned]
  simp

/-- A name begins no rule of a table. -/
theorem tableRule_name (name : String) :
    tableRule g (.name name :: ts) = some (none, .name name :: ts) := by
  have hword : ∀ w, word w (.name name :: ts) = some (false, .name name :: ts) := by simp [word]
  have hkind : oneOfWords [("INDEX", "INDEX"), ("KEY", "INDEX"), ("FULLTEXT", "FULLTEXT INDEX"),
      ("SPATIAL", "SPATIAL INDEX")] (.name name :: ts) = some (none, .name name :: ts) := by
    simp [oneOfWords, acceptMap_cons]
  rw [tableRule, skip (hword _), skip (hword _), skip (hword _), skip (hword _), skip (hword _),
    indexRule, step hkind]
  rfl

theorem fieldName_name (name : String) :
    fieldName (.name name :: ts) = some (some (name, (Name.mk name true).print), ts) := by
  have hatom : acceptMap atom? (.name name :: ts) = some (none, .name name :: ts) := by
    simp [acceptMap_cons, atom?]
  have hstring : strings (.name name :: ts) = some (none, .name name :: ts) :=
    strings_eq_none (by simp [stringPart, acceptMap_cons])
  have hfirst : firstOf [acceptMap atom?, strings] (.name name :: ts) =
      some (none, .name name :: ts) := by
    rw [firstOf_skip hatom, firstOf_skip hstring]
    rfl
  rw [fieldName, step hfirst]
  simp [anyName, acceptMap_cons]

theorem Column.Written.element {c : Column} (h : c.Written ps) (hts : Tokens ps ts)
    (stop : Before loose rest) : ∃ e, Grammar.element g (ts ++ rest) = some (some e, rest) ∧
      Command.column e = .ok c := by
  obtain ⟨hname, hmem, known, once, key⟩ := h
  rename_i name word type rules
  obtain ⟨us, hus, rfl⟩ := Tokens.name_iff.mp hts
  obtain ⟨s, vs, hs, hvs, rfl⟩ := Tokens.word_iff.mp hus
  obtain ⟨rs, hsteps, hunique⟩ := rules_steps (g := g) known once hvs stop
  obtain ⟨shown, hlookup, htype⟩ := shown_type hmem
  have hrules : Before afterRule (vs ++ rest) := by
    refine before_pieces (fun p hp t ht => ?_) hvs (stop.mono (by simp [afterRule]))
    have hp' : p = uniquePiece ∨ p = keyPiece := by simpa using known hp
    rcases hp' with rfl | rfl
    · simp [capital_of_unique ht, afterRule]
    · simp [capital_of_key ht, afterRule]
  have htyped := dataType_word (g := g) hs hlookup hrules
  have hmany := hsteps.many (columnRule_none stop)
  have hconstraint : Parser.word "CONSTRAINT" (.name name :: .word s :: (vs ++ rest)) =
      some (false, .name name :: .word s :: (vs ++ rest)) := by simp [Parser.word]
  refine ⟨.column name (some shown) rs, ?_, ?_⟩
  · simp only [List.cons_append]
    rw [Grammar.element, skip hconstraint]
    rw [step (tableRule_name name)]
    dsimp only
    rw [step (fieldName_name name)]
    dsimp only
    rw [step htyped, step hmany]
    rfl
  · simp [Command.column, Command.orRefuse, htype, hunique name key, Bind.bind, Except.bind]
    rfl

end Tabulary
