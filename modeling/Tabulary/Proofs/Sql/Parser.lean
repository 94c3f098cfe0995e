import Mathlib.Data.List.Basic
import Tabulary.Sql.Grammar.Words

/-!
Parsers over tokens: what each of them does with the tokens that it is given.  Repetitions are
described by the steps that they take (`Steps`); a parser that does not find what it looks for
passes the tokens on.
-/

namespace Tabulary
namespace Sql

namespace Token

/-- A token with its letters in capitals, if it is a bare word. -/
def capital : Token → Token
  | word s => .word (Text.capitals s)
  | t => t

@[simp] theorem isWord_word (w s : String) : (word s).isWord w = (Text.capitals s == w) := rfl

@[simp] theorem isWord_name (w s : String) : (name s).isWord w = false := rfl

@[simp] theorem isWord_text (w s : String) : (text s).isWord w = false := rfl

@[simp] theorem isWord_number (w s : String) : (number s).isWord w = false := rfl

@[simp] theorem isWord_symbol (w s : String) : (symbol s).isWord w = false := rfl

@[simp] theorem isWord_marked (w : String) (c : Char) (s : String) :
    (marked c s).isWord w = false := rfl

@[simp] theorem isSymbol_word (w s : String) : (word s).isSymbol w = false := rfl

@[simp] theorem isSymbol_name (w s : String) : (name s).isSymbol w = false := rfl

@[simp] theorem isSymbol_text (w s : String) : (text s).isSymbol w = false := rfl

@[simp] theorem isSymbol_number (w s : String) : (number s).isSymbol w = false := rfl

@[simp] theorem isSymbol_symbol (w s : String) : (symbol s).isSymbol w = (s == w) := rfl

@[simp] theorem isSymbol_marked (w : String) (c : Char) (s : String) :
    (marked c s).isSymbol w = false := rfl

theorem isWord_iff {w : String} {t : Token} : t.isWord w = true ↔ t.capital = .word w := by
  cases t <;> simp [isWord, capital]

theorem isSymbol_iff {s : String} {t : Token} : t.isSymbol s = true ↔ t.capital = .symbol s := by
  cases t <;> simp [isSymbol, capital]

end Token

/-- The next token, its letters in capitals, is one of the given ones, or there is none. -/
def Before (next : List Token) (ts : List Token) : Prop := ∀ t ∈ ts.head?, t.capital ∈ next

theorem Before.mono {next more ts : List Token} (h : Before next ts) (sub : next ⊆ more) :
    Before more ts := fun t ht => sub (h t ht)

@[simp] theorem before_nil (next : List Token) : Before next [] := by simp [Before]

@[simp] theorem before_cons {next ts : List Token} {t : Token} :
    Before next (t :: ts) ↔ t.capital ∈ next := by simp [Before]

namespace Parser

variable {α β : Type} {ts rest next : List Token} {t : Token}

/-! ## One step after another -/

@[simp] theorem bind_apply (p : Parser α) (f : α → Parser β) (ts : List Token) :
    (p >>= f) ts = (p ts).bind fun r => f r.1 r.2 := rfl

@[simp] theorem pure_apply (a : α) (ts : List Token) :
    (pure a : Parser α) ts = some (a, ts) := rfl

theorem step {p : Parser α} {f : α → Parser β} {a : α} (h : p ts = some (a, rest)) :
    (p >>= f) ts = f a rest := by simp [h]

theorem take {c : Parser Bool} {p q : Parser α} (h : c ts = some (true, rest)) :
    (c >>= fun b => if b = true then p else q) ts = p rest := by simp [h]

theorem skip {c : Parser Bool} {p q : Parser α} (h : c ts = some (false, rest)) :
    (c >>= fun b => if b = true then p else q) ts = q rest := by simp [h]

theorem pass {c : Parser Bool} {p q : Parser α} (h : c ts = some (true, rest)) :
    (c >>= fun b => if (!b) = true then p else q) ts = q rest := by simp [h]

theorem leave {c : Parser Bool} {p q : Parser α} (h : c ts = some (false, rest)) :
    (c >>= fun b => if (!b) = true then p else q) ts = p rest := by simp [h]

@[simp] theorem failure_apply (ts : List Token) : (failure : Parser α) ts = none := rfl

@[simp] theorem map_apply (f : α → β) (p : Parser α) (ts : List Token) :
    (f <$> p) ts = (p ts).map fun r => (f r.1, r.2) := by
  cases h : p ts <;> simp [Functor.map, StateT.map, h]

@[simp] theorem guard_apply (c : Prop) [Decidable c] (ts : List Token) :
    (guard c : Parser Unit) ts = if c then some ((), ts) else none := by
  by_cases hc : c <;> simp [guard, hc]

@[simp] theorem get_apply (ts : List Token) : (get : Parser (List Token)) ts = some (ts, ts) := rfl

/-! ## Single tokens -/

@[simp] theorem accept_nil (p : Token → Bool) : accept p [] = some (false, []) := rfl

@[simp] theorem accept_cons (p : Token → Bool) (t : Token) (ts : List Token) :
    accept p (t :: ts) = some (if p t then (true, ts) else (false, t :: ts)) := rfl

@[simp] theorem acceptMap_nil (f : Token → Option α) : acceptMap f [] = some (none, []) := rfl

theorem acceptMap_cons (f : Token → Option α) (t : Token) (ts : List Token) :
    acceptMap f (t :: ts) = some (if (f t).isSome then (f t, ts) else (none, t :: ts)) := by
  cases h : f t <;> simp [acceptMap, h]

@[simp] theorem sees_apply (p : Token → Bool) (ts : List Token) :
    sees p ts = some (ts.head?.any p, ts) := rfl

theorem expectSymbol_apply (s : String) (ts : List Token) :
    expectSymbol s ts = (symbol s ts).bind fun r => if r.1 = true then some ((), r.2)
    else none := by
  change ((symbol s ts).bind fun r => (guard (r.1 = true) : Parser Unit) r.2) = _
  exact congrArg _ (funext fun r => guard_apply _ _)

theorem need_apply (p : Parser (Option α)) (ts : List Token) :
    need p ts = (p ts).bind fun r => r.1.map (·, r.2) := by
  cases h : p ts with
  | none => simp [need, h]
  | some r =>
    obtain ⟨a?, rest⟩ := r
    cases a? <;> simp [need, h]

theorem need_eq_some {p : Parser (Option α)} {a : α} (h : p ts = some (some a, rest)) :
    need p ts = some (a, rest) := by simp [need_apply, h]

theorem attempt_eq_some {p : Parser (Option α)} {a : α} (h : p ts = some (some a, rest)) :
    attempt p ts = some (some a, rest) := by simp [attempt, h]

theorem attempt_eq_none {p : Parser (Option α)} (h : ∀ a rest, p ts ≠ some (some a, rest)) :
    attempt p ts = some (none, ts) := by
  unfold attempt
  split
  · rename_i heq
    exact absurd heq (h _ _)
  · rfl

theorem accept_of_before {p : Token → Bool} (h : Before next ts)
    (hp : ∀ t, t.capital ∈ next → p t = false) : accept p ts = some (false, ts) := by
  cases ts with
  | nil => rfl
  | cons t ts => simp [hp t (h t rfl)]

theorem acceptMap_of_before {f : Token → Option α} (h : Before next ts)
    (hf : ∀ t, t.capital ∈ next → f t = none) : acceptMap f ts = some (none, ts) := by
  cases ts with
  | nil => rfl
  | cons t ts => simp [acceptMap_cons, hf t (h t rfl)]

theorem isWord_of_before {w : String} (hw : Token.word w ∉ next) (t : Token)
    (ht : t.capital ∈ next) : t.isWord w = false := by
  by_contra hword
  rw [Bool.not_eq_false, Token.isWord_iff] at hword
  exact hw (hword ▸ ht)

theorem isSymbol_of_before {s : String} (hs : Token.symbol s ∉ next) (t : Token)
    (ht : t.capital ∈ next) : t.isSymbol s = false := by
  by_contra hsymbol
  rw [Bool.not_eq_false, Token.isSymbol_iff] at hsymbol
  exact hs (hsymbol ▸ ht)

theorem word_of_before {w : String} (h : Before next ts) (hw : Token.word w ∉ next) :
    word w ts = some (false, ts) := accept_of_before h (isWord_of_before hw)

theorem symbol_of_before {s : String} (h : Before next ts) (hs : Token.symbol s ∉ next) :
    symbol s ts = some (false, ts) := accept_of_before h (isSymbol_of_before hs)

theorem any_of_before {p : Token → Bool} (h : Before next ts)
    (hp : ∀ t, t.capital ∈ next → p t = false) : ts.head?.any p = false := by
  cases ts with
  | nil => rfl
  | cons t ts => simpa using hp t (h t rfl)

theorem sees_symbol_of_before {s : String} (h : Before next ts) (hs : Token.symbol s ∉ next) :
    sees (·.isSymbol s) ts = some (false, ts) := by
  rw [sees_apply, any_of_before h (isSymbol_of_before hs)]

theorem oneOfWords_of_before {table : List (String × α)} (h : Before next ts)
    (hw : ∀ e ∈ table, Token.word e.1 ∉ next) : oneOfWords table ts = some (none, ts) :=
  acceptMap_of_before h fun t ht => by
    have hnone : table.find? (fun e => t.isWord e.1) = none :=
      List.find?_eq_none.mpr fun e he => by simp [isWord_of_before (hw e he) t ht]
    simp [hnone]

theorem word_of_eq {w s : String} (h : Text.capitals s = w) :
    word w (.word s :: ts) = some (true, ts) := by simp [word, h]

theorem word_of_ne {w s : String} (h : Text.capitals s ≠ w) :
    word w (.word s :: ts) = some (false, .word s :: ts) := by simp [word, h]

theorem spelled_of_eq {w s : String} (h : Text.capitals s = w) :
    spelled w (.word s :: ts) = some (true, ts) := by simp [spelled, Token.isSpelled, h]

theorem spelled_of_ne {w s : String} (h : Text.capitals s ≠ w) :
    spelled w (.word s :: ts) = some (false, .word s :: ts) := by simp [spelled, Token.isSpelled, h]

theorem spelled_name {w s : String} (h : Text.capitals s ≠ w) :
    spelled w (.name s :: ts) = some (false, .name s :: ts) := by simp [spelled, Token.isSpelled, h]

theorem words_of_before {w : String} {ws : List String} (h : Before next ts)
    (hw : Token.word w ∉ next) : words (w :: ws) ts = some (false, ts) := by
  cases ts with
  | nil => simp [words]
  | cons t ts => simp [words, isWord_of_before hw t (h t rfl)]

/-- Whether a token cannot be a name beside the words that are none. -/
def noName (excluded : List String) : Token → Bool
  | .word w => excluded.contains w
  | .symbol _ => true
  | _ => false

theorem nameExcept_of_before {excluded : List String} (h : Before next ts)
    (reserved : ∀ t ∈ next, noName excluded t = true) :
    nameExcept excluded ts = some (none, ts) :=
  acceptMap_of_before h fun t ht => by
    have hreserved := reserved _ ht
    cases t <;> simp_all [noName, Token.capital]

theorem textName_of_before {excluded : List String} (h : Before next ts)
    (reserved : ∀ t ∈ next, noName excluded t = true) : textName ts = some (none, ts) :=
  acceptMap_of_before h fun t ht => by
    have hreserved := reserved _ ht
    cases t <;> simp_all [noName, Token.capital]

/-! ## Repetition -/

/-- Values found one after the other, each by at least one token. -/
inductive Steps (p : Parser (Option α)) : List α → List Token → List Token → Prop
  | done {ts : List Token} : Steps p [] ts ts
  | more {a : α} {as : List α} {ts mid rest : List Token} (found : p ts = some (some a, mid))
      (shorter : mid.length < ts.length) (steps : Steps p as mid rest) : Steps p (a :: as) ts rest

namespace Steps

variable {p : Parser (Option α)} {as : List α}

theorem length_le (h : Steps p as ts rest) : as.length + rest.length ≤ ts.length := by
  induction h with
  | done => simp
  | more found shorter steps ih =>
    rw [List.length_cons]
    omega

theorem upTo (h : Steps p as ts rest) (stop : p rest = some (none, rest)) :
    ∀ {n : Nat}, as.length ≤ n → upTo p n ts = some (as, rest) := by
  induction h with
  | done =>
    intro n hn
    cases n with
    | zero => rfl
    | succ n => simp [Parser.upTo, stop]
  | more found shorter steps ih =>
    intro n hn
    obtain ⟨n, rfl⟩ : ∃ m, n = m + 1 := ⟨n - 1, by simp at hn; omega⟩
    simp [Parser.upTo, found, ih stop (by simpa using hn)]

theorem many (h : Steps p as ts rest) (stop : p rest = some (none, rest)) :
    many p ts = some (as, rest) := by
  cases h with
  | done => simp [Parser.many, stop]
  | @more a as _ mid _ found shorter steps =>
    have hlen := steps.length_le
    simp [Parser.many, found, steps.upTo stop (n := mid.length) (by omega)]

end Steps

theorem many_eq_nil {p : Parser (Option α)} (h : p ts = some (none, ts)) :
    many p ts = some ([], ts) := Steps.many .done h

/-- Behind a comma. -/
def behindComma (p : Parser (Option α)) : Parser (Option (Option α)) := do
  if ← symbol "," then return some (← p) else pure none

theorem slots_eq (p : Parser (Option α)) : slots p = (do
    let first? ← p
    let more ← many (behindComma p)
    return first? :: more) := rfl

/-- Items with commas between them. -/
theorem csv_of_steps {p : Parser (Option α)} {a : α} {as : List α} {mid : List Token}
    (first : p ts = some (some a, mid)) (more : Steps (behindComma p) (as.map some) mid rest)
    (stop : symbol "," rest = some (false, rest)) : csv p ts = some (a :: as, rest) := by
  have hstop : behindComma p rest = some (none, rest) := by simp [behindComma, stop]
  simp [csv, slots_eq, first, more.many hstop, List.flatMap_map]

/-- An operator with the operand that has to follow. -/
def operation (op? : Parser (Option (α → α → α))) (operand : Parser (Option α)) :
    Parser (Option ((α → α → α) × α)) := do
  match ← op? with
  | none => pure none
  | some f => return some (f, ← need operand)

theorem chain_eq (op? : Parser (Option (α → α → α))) (operand : Parser (Option α)) :
    chain op? operand = (do
      let first? ← operand
      let more ← many (operation op? operand)
      match first?, more with
      | some a, more => return some (more.foldl (fun l (f, r) => f l r) a)
      | none, [] => pure none
      | none, _ => failure) := rfl

variable {op? : Parser (Option (α → α → α))} {operand : Parser (Option α)} {a b : α}

theorem chain_one {a? : Option α} (h : operand ts = some (a?, rest))
    (stop : op? rest = some (none, rest)) : chain op? operand ts = some (a?, rest) := by
  have hstop : operation op? operand rest = some (none, rest) := by simp [operation, stop]
  cases a? <;> simp [chain_eq, h, many_eq_nil hstop]

theorem chain_two {f : α → α → α} {mid right : List Token}
    (left : operand ts = some (some a, mid))
    (op : op? mid = some (some f, right)) (value : operand right = some (some b, rest))
    (shorter : rest.length < mid.length) (stop : op? rest = some (none, rest)) :
    chain op? operand ts = some (some (f a b), rest) := by
  have hstop : operation op? operand rest = some (none, rest) := by simp [operation, stop]
  have hfound : operation op? operand mid = some (some (f, b), rest) := by
    simp [operation, op, need_eq_some value]
  simp [chain_eq, left, (Steps.more hfound shorter .done).many hstop]

end Parser
end Sql
end Tabulary
