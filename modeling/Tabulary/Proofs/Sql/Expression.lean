import Tabulary.Proofs.Sql.Parser
import Tabulary.Sql.Grammar.Query

/-!
What the grammar reads of literals, columns and comparisons of two of them.
-/

namespace Tabulary
namespace Sql
namespace Grammar

open Sql.Parser

variable {g : Grammar} {ts rest : List Token}

/-- What can follow an operand: the other side of a comparison, or the end of the value. -/
def tight : List Token := [.symbol "=", .symbol ",", .symbol ")", .word "WHERE", .word "FROM"]

/-- What can follow a value. -/
def loose : List Token := [.symbol ",", .symbol ")", .word "WHERE", .word "FROM"]

theorem tight_of_loose (h : Before loose ts) : Before tight ts := h.mono (by simp [loose, tight])

/-! ## Operands -/

theorem firstOf_skip {p : Parser (Option Expr)} {ps : List (Parser (Option Expr))}
    (h : p ts = some (none, ts)) : firstOf (p :: ps) ts = firstOf ps ts := by
  simp [firstOf, h]

theorem firstOf_found {p : Parser (Option Expr)} {ps : List (Parser (Option Expr))} {e : Expr}
    (h : p ts = some (some e, rest)) : firstOf (p :: ps) ts = some (some e, rest) := by
  simp [firstOf, h]

/-- A point with the name or the star behind it. -/
def memberPart : Parser (Option (Option Name)) := do
  if !(← symbol ".") then return none
  if ← symbol "*" then return some none
  return some (some (← need anyName))

/-- What an operand begins with. -/
def head (g : Grammar) : Parser (Option Expr) :=
  firstOf [typed, acceptMap atom?, strings, fraction, inParens g, call g, column, parameter]

theorem operand_eq (g : Grammar) : operand g = (do
    match ← head g with
    | none => pure none
    | some e =>
      let parts ← many memberPart
      return some (parts.foldl member e)) := rfl

theorem operand_of_head {e : Expr} (h : head g ts = some (some e, rest))
    (stop : Before tight rest) : operand g ts = some (some e, rest) := by
  have hpart : memberPart rest = some (none, rest) := by
    simp [memberPart, symbol_of_before stop (s := ".") (by decide)]
  simp [operand_eq, h, many_eq_nil hpart]

theorem typed_eq_none {t : Token} (h : ∀ w, t ≠ .word w) :
    typed (t :: ts) = some (none, t :: ts) := by
  have hword : ∀ w, t.isWord w = false := by cases t <;> simp_all
  have hnone : oneOfWords literalTypes (t :: ts) = some (none, t :: ts) := by
    simp [oneOfWords, acceptMap_cons, hword]
  exact attempt_eq_none (by simp [hnone])

theorem head_number (digits : String) :
    head g (.number digits :: rest) = some (some (.number digits), rest) := by
  have hatom : acceptMap atom? (.number digits :: rest) = some (some (.number digits), rest) := by
    simp [acceptMap_cons, atom?]
  rw [head, firstOf_skip (typed_eq_none (by simp)), firstOf_found hatom]

theorem head_star : head g (.symbol "*" :: rest) = some (some .star, rest) := by
  have hatom : acceptMap atom? (.symbol "*" :: rest) = some (some .star, rest) := by
    simp [acceptMap_cons, atom?]
  rw [head, firstOf_skip (typed_eq_none (by simp)), firstOf_found hatom]

def stringPart : Parser (Option Expr) :=
  acceptMap fun
    | .text s => some (Expr.text s)
    | _ => none

theorem strings_eq : strings = (do
    match ← many stringPart with
    | [] => pure none
    | [e] => return some e
    | items => return some (.concat items)) := rfl

theorem strings_eq_none (h : stringPart ts = some (none, ts)) : strings ts = some (none, ts) := by
  simp [strings_eq, many_eq_nil h]

theorem head_text {s : String} (stop : Before tight rest) :
    head g (.text s :: rest) = some (some (.text s), rest) := by
  have hatom : acceptMap atom? (.text s :: rest) = some (none, .text s :: rest) := by
    simp [acceptMap_cons, atom?]
  have hstop : stringPart rest = some (none, rest) :=
    acceptMap_of_before stop fun t ht => by cases t <;> simp_all [tight, Token.capital]
  have hpart : stringPart (.text s :: rest) = some (some (.text s), rest) := by
    simp [stringPart, acceptMap_cons]
  have hstring : strings (.text s :: rest) = some (some (.text s), rest) := by
    simp [strings_eq, (Steps.more hpart (by simp) .done).many hstop]
  rw [head, firstOf_skip (typed_eq_none (by simp)), firstOf_skip hatom, firstOf_found hstring]

theorem head_name {s : String} (stop : symbol "(" rest = some (false, rest)) :
    head g (.name s :: rest) = some (some (.column ⟨[], ⟨s, true⟩⟩), rest) := by
  have hatom : acceptMap atom? (.name s :: rest) = some (none, .name s :: rest) := by
    simp [acceptMap_cons, atom?]
  have hstring : strings (.name s :: rest) = some (none, .name s :: rest) :=
    strings_eq_none (by simp [stringPart, acceptMap_cons])
  have hfraction : fraction (.name s :: rest) = some (none, .name s :: rest) :=
    attempt_eq_none (by simp [symbol])
  have hparens : inParens g (.name s :: rest) = some (none, .name s :: rest) := by
    simp [inParens, symbol]
  have hcall : call g (.name s :: rest) = some (none, .name s :: rest) :=
    attempt_eq_none (by simp [nameExcept, acceptMap_cons, stop])
  have hcolumn : column (.name s :: rest) =
      some (some (.column ⟨[], ⟨s, true⟩⟩), rest) := by
    simp [column, name, nameExcept, acceptMap_cons]
  rw [head, firstOf_skip (typed_eq_none (by simp)), firstOf_skip hatom, firstOf_skip hstring,
    firstOf_skip hfraction, firstOf_skip hparens, firstOf_skip hcall, firstOf_found hcolumn]

theorem operand_member {s u : String} (stop : Before tight rest) :
    operand g (.name s :: .symbol "." :: .name u :: rest) =
      some (some (.column ⟨[⟨s, true⟩], ⟨u, true⟩⟩), rest) := by
  have hpart : memberPart (.symbol "." :: .name u :: rest) =
      some (some (some ⟨u, true⟩), rest) := by
    simp [memberPart, symbol, need_apply, anyName, acceptMap_cons]
  have hstop : memberPart rest = some (none, rest) := by
    simp [memberPart, symbol_of_before stop (s := ".") (by decide)]
  have hhead : head g (.name s :: .symbol "." :: .name u :: rest) =
      some (some (.column ⟨[], ⟨s, true⟩⟩), .symbol "." :: .name u :: rest) :=
    head_name (by simp [symbol])
  have hless : rest.length < (Token.symbol "." :: .name u :: rest).length :=
    Nat.lt_succ_of_le (Nat.le_succ rest.length)
  simp [operand_eq, hhead, (Steps.more hpart hless .done).many hstop, member]

/-! ## Values -/

/-- A sign or `NOT`. -/
def isSign (t : Token) : Bool :=
  t.isSymbol "+" || t.isSymbol "-" || t.isSymbol "~" || t.isWord "NOT" || t.isSymbol "!"

theorem signed_of_operand {t : Token} (h : isSign t = false) :
    signed g (t :: ts) = operand g (t :: ts) := by
  simp only [isSign, Bool.or_eq_false_iff] at h
  simp [signed, symbol, h]

theorem signed_minus {digits : String} (stop : Before tight rest) :
    signed (nesting g) (.symbol "-" :: .number digits :: rest) =
      some (some (.neg (.number digits)), rest) := by
  have hunary : (nesting g).unary (.number digits :: rest) =
      some (some (.number digits), rest) := by
    change signed g (.number digits :: rest) = _
    rw [signed_of_operand (by simp [isSign]), operand_of_head (head_number digits) stop]
  simp [signed, symbol, need_eq_some hunary]

/-! ## Comparisons -/

/-- The operators that bind tighter than `=`, and the words that begin a test. -/
def tighter : List Token :=
  ["*", "/", "+", "-", "%", "&", "|", "^", "<<", ">>", "<", "<=", ">", ">="].map .symbol ++
    ["DIV", "MOD", "NOT", "BETWEEN", "IN", "LIKE", "RLIKE", "REGEXP", "IS"].map .word

/-- The operators that do not. -/
def looser : List Token :=
  ["=", "==", "<>", "!=", "<=>", "&&", "||"].map .symbol ++ ["AND", "XOR", "OR"].map .word

variable {next : List Token} {e? : Option Expr}

theorem operator_of_before {table : List (Token × Operator)} (h : Before next ts)
    (apart : ∀ e ∈ table, e.1 ∉ next) : operator table ts = some (none, ts) := by
  refine acceptMap_of_before h fun t ht => ?_
  rw [Option.map_eq_none_iff, List.find?_eq_none]
  rintro ⟨shape, op⟩ he hshape
  have hnot : shape ∉ next := apart _ he
  cases shape with
  | word w => exact hnot (Token.isWord_iff.mp hshape ▸ ht)
  | name s | text s | number s | marked c s | symbol s =>
    obtain rfl : t = _ := by simpa using hshape
    exact hnot ht

/-- What is no part of a larger operand is all of one. -/
theorem comparison_of_signed (h : signed g ts = some (e?, rest)) (stop : Before next rest)
    (apart : ∀ t ∈ tighter, t ∉ next) : comparison g ts = some (e?, rest) := by
  have hop : ∀ {table : List (Token × Operator)}, table.map Prod.fst ⊆ tighter →
      operator table rest = some (none, rest) := fun hsub =>
    operator_of_before stop fun e he => apart _ (hsub (List.mem_map_of_mem (f := Prod.fst) he))
  have hword : ∀ {w : String}, Token.word w ∈ tighter → word w rest = some (false, rest) :=
    fun hw => word_of_before stop (apart _ hw)
  have hproduct : product g ts = some (e?, rest) := chain_one h (hop (by decide))
  have hsum : sum g ts = some (e?, rest) := chain_one hproduct (hop (by decide))
  have hbitwise : bitwise g ts = some (e?, rest) := chain_one hsum (hop (by decide))
  have hrange : range g ts = some (e?, rest) := by
    cases e? with
    | none =>
      have hsees : (rest.head?.any fun t =>
          ["BETWEEN", "IN", "LIKE", "RLIKE", "REGEXP"].any t.isWord) = false :=
        any_of_before stop fun t ht => by
          rw [List.any_eq_false]
          intro w hw
          have hall : ∀ w ∈ ["BETWEEN", "IN", "LIKE", "RLIKE", "REGEXP"],
              Token.word w ∈ tighter := by
            decide
          simp [isWord_of_before (apart _ (hall w hw)) t ht]
      simp only [range, bind_apply, hbitwise, sees_apply, Option.bind_some, hsees]
      rfl
    | some e =>
      have htest : test g e rest = some (none, rest) := by
        have hnone : oneOfWords [("LIKE", Operator.like), ("RLIKE", .regexp), ("REGEXP", .regexp)]
            rest =
            some (none, rest) := oneOfWords_of_before stop fun e he => apart _ (by revert e; decide)
        simp [test, hword (w := "BETWEEN") (by decide), hword (w := "IN") (by decide), hnone]
      simp [range, hbitwise, htest, hword (w := "NOT") (by decide), hword (w := "IS") (by decide)]
  exact chain_one hrange (hop (by decide))

/-- Where no comparison follows, an operand is the whole condition. -/
theorem condition_of_equalities (h : equalities g ts = some (e?, rest)) (stop : Before next rest)
    (apart : ∀ t ∈ looser, t ∉ next) : condition g ts = some (e?, rest) := by
  have hop : ∀ {table : List (Token × Operator)}, table.map Prod.fst ⊆ looser →
      operator table rest = some (none, rest) := fun hsub =>
    operator_of_before stop fun e he => apart _ (hsub (List.mem_map_of_mem (f := Prod.fst) he))
  have hconjunction : conjunction g ts = some (e?, rest) := chain_one h (hop (by decide))
  exact chain_one hconjunction (hop (by decide))

theorem equalities_of_comparison (h : comparison g ts = some (e?, rest)) (stop : Before next rest)
    (apart : ∀ t ∈ looser, t ∉ next) : equalities g ts = some (e?, rest) :=
  chain_one h (operator_of_before stop (by
    have hall : ∀ t ∈ [Token.symbol "=", .symbol "==", .symbol "<>", .symbol "!=",
        .symbol "<=>"],
        t ∉ next := fun t ht => apart t (by revert t; decide)
    simpa using hall))

/-- Two operands with an equals sign between them. -/
theorem equalities_of_pair {l r : Expr} {right : List Token}
    (left : signed g ts = some (some l, .symbol "=" :: right))
    (value : signed g right = some (some r, rest)) (shorter : rest.length ≤ right.length)
    (stop : Before loose rest) : equalities g ts = some (some (.binary .eq l r), rest) := by
  have hbefore : Before tight (.symbol "=" :: right) := by simp [tight, Token.capital]
  have hl := comparison_of_signed left hbefore (by decide)
  have hr := comparison_of_signed value stop (by decide)
  refine chain_two hl (f := Expr.binary .eq) ?_ hr (by simp; omega) ?_
  · simp [operator, acceptMap_cons]
  · exact operator_of_before stop (by decide)

/-- No limit of rows follows. -/
theorem limitFollows_of_before (h : Before next ts)
    (apart : Token.word "LIMIT" ∉ next ∧ Token.word "OFFSET" ∉ next) :
    limitFollows g ts = some (false, ts) := by
  have hlimit : limit g ts = some (none, ts) := by simp [limit, word_of_before h apart.1]
  have hoffset : offset g ts = some (none, ts) := by simp [offset, word_of_before h apart.2]
  simp [limitFollows, hlimit, hoffset]

/-- A value without an alias. -/
theorem aliased_of_before {p : Parser (Option Expr)} (h : p ts = some (e?, rest))
    (stop : Before next rest) (reserved : ∀ t ∈ next, noName (keywords.erase "AS") t = true) :
    aliased g p ts = some (e?, rest) := by
  have hnot : ∀ {w : String}, w ∉ keywords.erase "AS" → Token.word w ∉ next := by
    intro w hw hmem
    exact hw (by simpa [noName] using reserved _ hmem)
  have hreserved : ∀ t ∈ next, noName keywords t = true := fun t ht => by
    have hreserved := reserved t ht
    cases t with
    | word w => simpa [noName] using List.mem_of_mem_erase (by simpa [noName] using hreserved)
    | _ => exact hreserved
  have hlimit := limitFollows_of_before (g := g) stop ⟨hnot (by decide), hnot (by decide)⟩
  have hname : name rest = some (none, rest) := nameExcept_of_before stop hreserved
  have htext := textName_of_before stop reserved
  have has := word_of_before stop (hnot (w := "AS") (by decide))
  cases e? <;> simp [aliased, h, hlimit, has, hname, htext]

/-! ## Names of tables -/

/-- A name of a part of a table name, behind a point. -/
def pointPart : Parser (Option Name) := do
  if ← symbol "." then return some (← need tableName.part) else pure none

theorem tableName_eq : tableName = (do
    match ← tableName.part with
    | none => pure none
    | some first =>
      let more ← many pointPart
      return some (more.foldl (fun q n => ⟨q.qualifiers ++ [q.name], n⟩) ⟨[], first⟩)) :=
        rfl

end Grammar
end Sql
end Tabulary
