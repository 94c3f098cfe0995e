import Mathlib.Data.List.Forall2
import Tabulary.Command.Reader

/-!
Statements as they are written: keywords in any letter case, names between back quotes, texts
between single quotes, numbers and symbols, with spaces, tabs and line breaks between them.  Main
statement: what is written has one token for each piece that it is written with
(`tokens?_of_writes`).
-/

namespace Tabulary
namespace Sql

/-- What a statement is written with. -/
inductive Piece where
  /-- A keyword, in capitals. -/
  | word (w : String)
  /-- Two words that form one keyword, in capitals. -/
  | pair (first second : String)
  | name (s : String)
  | text (s : String)
  | number (digits : String)
  | symbol (c : Char)
deriving DecidableEq, Repr

/-- Spaces, tabs and line breaks. -/
def gapChars : List Char := [' ', '\t', '\n', '\r']

/-- A property of the characters of a text is decided by going through the text, not through all
characters. -/
instance (priority := 2000) decidableForallChars (cs : List Char) (P : Char → Prop)
    [DecidablePred P] : Decidable (∀ c ∈ cs, P c) :=
  List.decidableBAll P cs

def IsGap (cs : List Char) : Prop := ∀ c ∈ cs, c ∈ gapChars

instance : DecidablePred IsGap := fun cs =>
    inferInstanceAs (Decidable (∀ c ∈ cs, c ∈ gapChars))

/-- A word in any letter case. -/
structure Cased (w : String) (cs : List Char) : Prop where
  letters : ∀ c ∈ cs, c.isAlpha = true
  capitals : cs.map Char.toUpper = w.toList

namespace Piece

/-- What a piece of its kind can be. -/
def Valid : Piece → Prop
  | word w =>
    2 ≤ w.length ∧ w ∉ Lexer.pairs.map Prod.fst ∧ ∀ c ∈ w.toList, c.isUpper = true
  | pair first second => (first, second) ∈ Lexer.pairs
  | name s => '\x60' ∉ s.toList
  | text s => '\'' ∉ s.toList ∧ '\\' ∉ s.toList
  | number digits => digits ≠ "" ∧ ∀ c ∈ digits.toList, c.isDigit = true
  | symbol c => c ∈ "(),=.*-".toList

instance decidableValid : DecidablePred Valid
  | word w => inferInstanceAs (Decidable (2 ≤ w.length ∧ w ∉ Lexer.pairs.map Prod.fst ∧
      ∀ c ∈ w.toList, c.isUpper = true))
  | pair first second => inferInstanceAs (Decidable ((first, second) ∈ Lexer.pairs))
  | name s => inferInstanceAs (Decidable ('\x60' ∉ s.toList))
  | text s => inferInstanceAs (Decidable ('\'' ∉ s.toList ∧ '\\' ∉ s.toList))
  | number digits =>
    inferInstanceAs (Decidable (digits ≠ "" ∧ ∀ c ∈ digits.toList, c.isDigit = true))
  | symbol c => inferInstanceAs (Decidable (c ∈ "(),=.*-".toList))

/-- The characters that a piece may be written with. -/
def Spelled : Piece → List Char → Prop
  | word w, cs => Cased w cs
  | pair first second, cs =>
    ∃ xs gap ys, cs = xs ++ gap ++ ys ∧ Cased first xs ∧ Cased second ys ∧
      IsGap gap ∧ gap ≠ []
  | name s, cs => cs = '\x60' :: s.toList ++ ['\x60']
  | text s, cs => cs = '\'' :: s.toList ++ ['\'']
  | number digits, cs => cs = digits.toList
  | symbol c, cs => cs = [c]

/-- Whether a piece is made of letters or digits. -/
def isSolid : Piece → Bool
  | word _ | pair _ _ | number _ => true
  | _ => false

/-- Whether two pieces, one after the other, would not be read as two without something between
them. -/
def clashes : Piece → Piece → Bool
  | name _, name _ | text _, text _ => true
  | number _, symbol c => c = '.'
  | symbol c, symbol d => c = d && (c = '=' || c = '-')
  | p, q => p.isSolid && q.isSolid

/-- What a token of a piece is. -/
def IsToken : Piece → Token → Prop
  | word w, t => ∃ s, t = .word s ∧ Text.capitals s = w
  | pair first second, t => t = .word (first ++ " " ++ second)
  | name s, t => t = .name s
  | text s, t => t = .text s
  | number digits, t => t = .number digits
  | symbol c, t => t = .symbol (String.singleton c)

end Piece

/-- The pieces are written one after the other, with gaps between them where they need some. -/
inductive Writes : List Piece → List Char → Prop
  | last {p : Piece} {cs : List Char} (spelled : p.Spelled cs) : Writes [p] cs
  | next {p q : Piece} {ps : List Piece} {cs gap rest : List Char} (spelled : p.Spelled cs)
      (isGap : IsGap gap) (apart : p.clashes q = true → gap ≠ [])
      (more : Writes (q :: ps) rest) : Writes (p :: q :: ps) (cs ++ gap ++ rest)

/-! ## Characters -/

/-- What holds of every plain character can be seen by looking at each of them. -/
theorem of_ascii {P : Char → Bool} (h : ∀ n < 128, P (Char.ofNat n) = true) {c : Char}
    (hc : c.toNat < 128) : P c = true := by
  have hself := h c.toNat hc
  rwa [Char.ofNat_toNat] at hself

theorem lt_of_isAlpha {c : Char} (h : c.isAlpha = true) : c.toNat < 128 := by
  change (decide ('A'.val ≤ c.val ∧ c.val ≤ 'Z'.val) ||
    decide ('a'.val ≤ c.val) && decide (c.val ≤ 'z'.val)) = true at h
  simp only [Bool.or_eq_true, decide_eq_true_eq, Bool.and_eq_true, UInt32.le_iff_toNat_le] at h
  have hval : c.toNat = c.val.toNat := rfl
  simp at h
  omega

theorem lt_of_isDigit {c : Char} (h : c.isDigit = true) : c.toNat < 128 := by
  simp only [Char.isDigit, decide_eq_true_eq, Bool.and_eq_true, UInt32.le_iff_toNat_le] at h
  have hval : c.toNat = c.val.toNat := rfl
  simp at h
  omega

/-- What the plain letters and digits are to the reading of tokens. -/
theorem ascii_facts {c : Char} (h : c.toNat < 128) :
    (c.isAlpha = true → Text.isBlank c = false ∧ Lexer.isSingle c = false ∧
      Text.isFigure c = false ∧ Text.upperChar c = [c.toUpper]) ∧
    (c.isDigit = true → Text.isBlank c = false ∧ Lexer.isSingle c = false ∧
      Text.isFigure c = true ∧ Text.upperChar c = [c]) ∧
    (c.isUpper = true → c.toUpper = c) := by
  have hall := of_ascii (P := fun c =>
    (!c.isAlpha || (!Text.isBlank c && !Lexer.isSingle c && !Text.isFigure c &&
      Text.upperChar c == [c.toUpper])) &&
    (!c.isDigit || (!Text.isBlank c && !Lexer.isSingle c && Text.isFigure c && Text.upperChar c ==
      [c])) &&
    (!c.isUpper || c.toUpper == c)) (by decide +kernel) h
  simp only [Bool.and_eq_true, Bool.or_eq_true, Bool.not_eq_true', beq_iff_eq] at hall
  grind

/-- A letter is part of a word, and begins nothing else. -/
theorem letter_facts {c : Char} (h : c.isAlpha = true) : Text.isBlank c = false ∧
    Lexer.isSingle c = false ∧ Text.isFigure c = false ∧ Text.upperChar c = [c.toUpper] :=
  (ascii_facts (lt_of_isAlpha h)).1 h

theorem flatMap_upperChar {cs : List Char} (h : ∀ c ∈ cs, c.isAlpha = true) :
    cs.flatMap Text.upperChar = cs.map Char.toUpper := by
  induction cs with
  | nil => rfl
  | cons c cs ih =>
    have hc := (letter_facts (h c (by simp))).2.2.2
    simp [List.flatMap_cons, hc, ih fun d hd => h d (by simp [hd])]

theorem digit_facts {c : Char} (h : c.isDigit = true) : Text.isBlank c = false ∧
    Lexer.isSingle c = false ∧ Text.isFigure c = true ∧ Text.upperChar c = [c] :=
  (ascii_facts (lt_of_isDigit h)).2.1 h

theorem gap_facts : ∀ c ∈ gapChars, Text.isBlank c = true ∧ Text.isFigure c = false ∧
    Text.isInitial c = false ∧ c ∉ ".=->'\x60".toList := by
  decide

theorem symbol_facts : ∀ c ∈ "(),=.*-".toList, Text.isBlank c = false ∧
    Lexer.isSingle c = true ∧ Text.isFigure c = false ∧ Text.isInitial c = false ∧
    c ∉ ['\x60', '\'', '"', '#', '/', '>'] := by
  decide

/-- The marks around names and texts. -/
theorem quote_facts : ∀ c ∈ ['\x60', '\''], Text.isBlank c = false ∧
    Lexer.isSingle c = true ∧
    Text.isFigure c = false ∧ Text.isInitial c = false ∧ c ≠ '>' ∧
    c ≠ '#' ∧ c ≠ '/' := by
  decide

/-- The words of a pair are written in capitals, the first with two letters at least. -/
theorem pair_facts : ∀ p ∈ Lexer.pairs, 2 ≤ p.1.length ∧ p.2.length ≠ 0 ∧
    (∀ c ∈ p.1.toList, c.isUpper = true) ∧ ∀ c ∈ p.2.toList, c.isUpper = true := by
  decide

theorem isInitial_of_isAlpha {c : Char} (h : c.isAlpha = true) : Text.isInitial c = true := by
  have hlt := lt_of_isAlpha h
  simp [Text.isInitial, hlt, h]

/-! ## Words -/

namespace Cased

variable {w v : String} {cs : List Char}

theorem capitals_eq (h : Cased w cs) : Text.capitals (String.ofList cs) = w := by
  simp [Text.capitals, flatMap_upperChar h.letters, h.capitals]

theorem length_eq (h : Cased w cs) : cs.length = w.length := by
  simpa [String.length_toList] using congrArg List.length h.capitals

theorem isWordChar (h : Cased w cs) {c : Char} (hc : c ∈ cs) : Lexer.isWordChar c = true := by
  obtain ⟨hblank, hsingle, -⟩ := letter_facts (h.letters c hc)
  simp [Lexer.isWordChar, hblank, hsingle]

/-- A word ends where something begins that is not part of it. -/
theorem span (h : Cased w cs) {rest : List Char}
    (stop : ∀ c ∈ rest.head?, Lexer.isWordChar c = false) :
    Lexer.span Lexer.isWordChar (cs ++ rest) = (cs, rest) := by
  have htake : rest.takeWhile Lexer.isWordChar = [] ∧ rest.dropWhile Lexer.isWordChar = rest := by
    cases rest with
    | nil => simp
    | cons c rest => simp [stop c rfl]
  have hall : ∀ c ∈ cs, Lexer.isWordChar c = true := fun c hc => h.isWordChar hc
  simp [Lexer.span, List.takeWhile_append_of_pos hall, List.dropWhile_append_of_pos hall, htake]

end Cased

theorem IsGap.span {gap rest : List Char} (h : IsGap gap)
    (stop : ∀ c ∈ rest.head?, Text.isBlank c = false) :
    Lexer.span Text.isBlank (gap ++ rest) = (gap, rest) := by
  have htake : rest.takeWhile Text.isBlank = [] ∧ rest.dropWhile Text.isBlank = rest := by
    cases rest with
    | nil => simp
    | cons c rest => simp [stop c rfl]
  have hall : ∀ c ∈ gap, Text.isBlank c = true := fun c hc => (gap_facts c (h c hc)).1
  simp [Lexer.span, List.takeWhile_append_of_pos hall, List.dropWhile_append_of_pos hall, htake]

namespace Lexer

variable {w first second : String} {cs xs ys gap rest : List Char}

/-- A word that begins no pair is read alone, whatever comes after it. -/
theorem word_of_cased (h : Cased w cs) (alone : w ∉ pairs.map Prod.fst)
    (stop : ∀ c ∈ rest.head?, isWordChar c = false) :
    word (cs ++ rest) = (.word (String.ofList cs), rest) := by
  have hpair : ∀ v, (w, v) ∉ pairs := fun v hv => alone (List.mem_map_of_mem (f := Prod.fst) hv)
  simp [word, h.span stop, h.capitals_eq, hpair]

theorem word_of_pair (hx : Cased first xs) (hy : Cased second ys) (mem : (first, second) ∈ pairs)
    (isGap : IsGap gap) (nonempty : gap ≠ [])
    (stop : ∀ c ∈ rest.head?, isWordChar c = false) :
    word (xs ++ gap ++ ys ++ rest) = (.word (first ++ " " ++ second), rest) := by
  have hys : ys ≠ [] := by
    have hlen := hy.length_eq
    have hlong := (pair_facts _ mem).2.1
    rintro rfl
    exact hlong hlen.symm
  have hgapHead : ∀ c ∈ (gap ++ (ys ++ rest)).head?, isWordChar c = false := by
    obtain ⟨c, gap, rfl⟩ := List.exists_cons_of_ne_nil nonempty
    simpa [isWordChar] using fun h => absurd h (by simp [(gap_facts c (isGap c (by simp))).1])
  have hwordHead : ∀ c ∈ (ys ++ rest).head?, Text.isBlank c = false := by
    obtain ⟨c, ys, rfl⟩ := List.exists_cons_of_ne_nil hys
    simpa using (letter_facts (hy.letters c (by simp))).1
  have hfirst := hx.span hgapHead
  have hgap := isGap.span hwordHead
  have hsecond := hy.span stop
  rw [List.append_assoc, List.append_assoc, word, hfirst]
  simp [hgap, hsecond, hx.capitals_eq, hy.capitals_eq, mem, nonempty]

/-- A text that begins with two letters begins with a word. -/
theorem token_of_letters {c d : Char} (hc : c.isAlpha = true) (hd : d.isAlpha = true) :
    token (c :: d :: cs) = some (word (c :: d :: cs)) := by
  obtain ⟨-, hsingle, hfigure, -⟩ := letter_facts hc
  have hquote : c ≠ '\x60' ∧ c ≠ '\'' ∧ c ≠ '"' := by
    refine ⟨?_, ?_, ?_⟩ <;> rintro rfl <;> simp at hc
  have hmark : d ≠ '\'' ∧ d ≠ '"' := by
    refine ⟨?_, ?_⟩ <;> rintro rfl <;> simp at hd
  simp only [token, hfigure, hsingle, hquote, Bool.false_eq_true, if_false, or_self]
  split <;> simp_all

/-! ## Numbers, names, texts and symbols -/

theorem numberRest_of_digits {digits : List Char} (h : ∀ c ∈ digits, c.isDigit = true)
    (stop : ∀ c ∈ rest.head?, Text.isFigure c = false ∧
      Text.isInitial c = false ∧ c ≠ '.') :
    numberRest false false false (digits ++ rest) = (digits, rest) := by
  induction digits with
  | nil =>
    cases rest with
    | nil => rfl
    | cons c rest =>
      obtain ⟨hfigure, hinitial, hpoint⟩ := stop c rfl
      have hexponent : c ≠ 'e' ∧ c ≠ 'E' := by
        refine ⟨?_, ?_⟩ <;> rintro rfl <;> exact absurd hinitial (by decide)
      simp [numberRest, hfigure, hpoint, hexponent]
  | cons c digits ih =>
    have hfigure := (digit_facts (h c (by simp))).2.2.1
    simp [numberRest, hfigure, ih fun d hd => h d (by simp [hd])]

theorem number_of_digits {c : Char} {digits : List Char}
    (h : ∀ d ∈ c :: digits, d.isDigit = true)
    (stop : ∀ c ∈ rest.head?, Text.isFigure c = false ∧
      Text.isInitial c = false ∧ c ≠ '.') :
    number c (digits ++ rest) = (.number (String.ofList (c :: digits)), rest) := by
  have hnext : ∀ d ∈ (digits ++ rest).head?, d ∉ ['x', 'X', 'b', 'B'] := by
    intro d hd
    cases digits with
    | nil =>
      have hinitial := (stop d hd).2.1
      intro hmem
      have hletter : ∀ d ∈ ['x', 'X', 'b', 'B'], d.isAlpha = true := by decide
      simp [isInitial_of_isAlpha (hletter d hmem)] at hinitial
    | cons e digits =>
      obtain rfl : e = d := by simpa using hd
      have hdigit := h e (by simp)
      have hnone : ∀ d ∈ ['x', 'X', 'b', 'B'], d.isDigit = false := by decide
      intro hmem
      simp [hnone e hmem] at hdigit
  have hrest := numberRest_of_digits (fun d hd => h d (List.mem_cons_of_mem c hd)) stop
  have hword : rest.head?.any Text.isInitial = false := by
    cases rest with
    | nil => rfl
    | cons d rest => simpa using (stop d rfl).2.1
  generalize hcs : digits ++ rest = cs at hnext hrest
  unfold number
  split
  split <;> simp_all

theorem quotedName_of_plain {s : List Char} (plain : '\x60' ∉ s)
    (stop : ∀ c ∈ rest.head?, c ≠ '\x60') : quotedName (s ++ '\x60' :: rest) =
    some (s, rest) := by
  induction s with
  | nil =>
    cases rest with
    | nil => rfl
    | cons c rest => simp [quotedName, stop c rfl]
  | cons c s ih =>
    simp only [List.mem_cons, not_or] at plain
    obtain ⟨d, tail, htail⟩ : ∃ d tail, s ++ '\x60' :: rest = d :: tail := by
      cases s <;> simp
    rw [List.cons_append, htail, quotedName, ← htail, ih plain.2]
    simp [Ne.symm plain.1]

theorem string_of_plain {s : List Char} (plain : '\'' ∉ s ∧ '\\' ∉ s)
    (stop : ∀ c ∈ rest.head?, c ≠ '\'') : string '\'' (s ++ '\'' :: rest) =
    some (s, rest) := by
  induction s with
  | nil =>
    cases rest with
    | nil => rfl
    | cons c rest => simp [string, stop c rfl]
  | cons c s ih =>
    simp only [List.mem_cons, not_or] at plain
    obtain ⟨⟨hquote, hquotes⟩, hslash, hslashes⟩ := plain
    obtain ⟨d, tail, htail⟩ : ∃ d tail, s ++ '\'' :: rest = d :: tail := by
      cases s <;> simp
    rw [List.cons_append, htail, string, ← htail, ih ⟨hquotes, hslashes⟩]
    simp [Ne.symm hquote, Ne.symm hslash]

theorem symbol_of_plain {c : Char} (h : c ∈ "(),=.*-".toList)
    (stop : ∀ d ∈ rest.head?, (c = '=' → d ≠ '=') ∧
      (c = '-' → d ≠ '-' ∧ d ≠ '>')) :
    symbol c rest = (.symbol (String.singleton c), rest) := by
  have hnone : (compound.find? fun s => s.toList.isPrefixOf (c :: rest)) = none := by
    rw [List.find?_eq_none]
    have hlong : ∀ s ∈ compound, ∃ d e more, s.toList = d :: e :: more ∧
        (d ∈ "(),=.*-".toList → d = '=' ∧ e = '=' ∨ d = '-' ∧ e = '>') := by
      simp [compound]
    intro s hs
    obtain ⟨d, e, more, hlist, hmore⟩ := hlong s hs
    cases rest with
    | nil => simp [hlist, List.isPrefixOf]
    | cons f rest =>
      obtain ⟨hequals, hminus⟩ := stop f rfl
      simp only [hlist, List.isPrefixOf, Bool.and_eq_true, beq_iff_eq, not_and]
      rintro rfl rfl
      rcases hmore h with ⟨rfl, rfl⟩ | ⟨rfl, rfl⟩ <;> simp_all
  simp [symbol, hnone]

end Lexer

/-! ## Pieces -/

namespace Piece

/-- Whether a character after the piece is no more part of it. -/
def stops : Piece → Char → Bool
  | word _, c | pair _ _, c => !Lexer.isWordChar c
  | name _, c => c ≠ '\x60'
  | text _, c => c ≠ '\''
  | number _, c => !Text.isFigure c && !Text.isInitial c && c ≠ '.'
  | symbol d, c => !(d = '=' && c = '=') && !(d = '-' && (c = '-' || c = '>'))

/-- What the first character of a piece can be. -/
def Begins : Piece → Char → Prop
  | word _, c | pair _ _, c => c.isAlpha = true
  | name _, c => c = '\x60'
  | text _, c => c = '\''
  | number _, c => c.isDigit = true
  | symbol d, c => c = d

variable {p q : Piece} {c : Char} {cs rest : List Char}

theorem stops_of_gap (hc : c ∈ gapChars) : p.stops c = true := by
  obtain ⟨hblank, hfigure, hinitial, hmark⟩ := gap_facts c hc
  cases p <;> simp_all [stops, Lexer.isWordChar]

/-- Letters and digits begin nothing but words and numbers. -/
theorem solid_facts (solid : q.isSolid = true) (begins : q.Begins c) :
    Text.isBlank c = false ∧ c ∉ "-=.'\x60>#/".toList := by
  have hmarks : ∀ c ∈ "-=.'\x60>#/".toList, c.isAlpha = false ∧ c.isDigit = false := by decide
  have hletters : c.isAlpha = true → Text.isBlank c = false ∧
      c ∉ "-=.'\x60>#/".toList := fun h =>
    ⟨(letter_facts h).1, fun hmem => by simp [hmarks c hmem] at h⟩
  cases q with
  | word w => exact hletters begins
  | pair first second => exact hletters begins
  | number digits =>
    exact ⟨(digit_facts begins).1, fun hmem => by simp [Begins, hmarks c hmem] at begins⟩
  | name s | text s | symbol d => simp [isSolid] at solid

theorem loose_facts (hq : q.Valid) (loose : q.isSolid = false) (begins : q.Begins c) :
    Text.isBlank c = false ∧ Lexer.isSingle c = true ∧ Text.isFigure c = false ∧
      Text.isInitial c = false ∧ c ≠ '>' ∧ c ≠ '#' ∧ c ≠ '/' := by
  cases q with
  | word w | pair first second | number digits => simp [isSolid] at loose
  | name s =>
    obtain rfl : c = _ := begins
    exact quote_facts _ (by simp)
  | text s =>
    obtain rfl : c = _ := begins
    exact quote_facts _ (by simp)
  | symbol d =>
    obtain rfl : c = d := begins
    have hfacts := symbol_facts c hq
    simp_all

/-- Pieces that may stand next to each other are told apart by the first character of the second. -/
theorem stops_of_begins (hq : q.Valid) (begins : q.Begins c) (apart : p.clashes q = false) :
    p.stops c = true := by
  cases hsolid : q.isSolid with
  | true =>
    have hfacts := solid_facts hsolid begins
    cases p <;> cases q <;> simp_all [stops, clashes, isSolid]
  | false =>
    have hfacts := loose_facts hq hsolid begins
    cases q with
    | word w | pair first second | number digits => simp [isSolid] at hsolid
    | name s | text s =>
      obtain rfl : c = _ := begins
      cases p <;> simp_all [stops, clashes, Lexer.isWordChar]
    | symbol d =>
      obtain rfl : c = d := begins
      have hsymbol := symbol_facts c hq
      cases p <;> simp_all [stops, clashes, Lexer.isWordChar]
      grind

/-- A spelling is not empty, and its first and last characters are its own. -/
theorem Spelled.cons (hp : p.Valid) (h : p.Spelled cs) :
    ∃ c tail, cs = c :: tail ∧ p.Begins c := by
  have hcased : ∀ {w : String} {xs : List Char}, Cased w xs → w.length ≠ 0 →
      ∃ c tail, xs = c :: tail ∧ c.isAlpha = true := by
    intro w xs hw hlong
    cases xs with
    | nil => exact absurd hw.length_eq.symm hlong
    | cons c tail => exact ⟨c, tail, rfl, hw.letters c (by simp)⟩
  cases p with
  | word w => exact hcased h (by have := hp.1; omega)
  | pair first second =>
    obtain ⟨xs, gap, ys, rfl, hx, -⟩ := h
    have hlong := (pair_facts _ hp).1
    obtain ⟨c, tail, rfl, hc⟩ := hcased hx (Nat.ne_of_gt (Nat.zero_lt_of_lt hlong))
    exact ⟨c, tail ++ gap ++ ys, by simp, hc⟩
  | name s => exact ⟨_, _, h, rfl⟩
  | text s => exact ⟨_, _, h, rfl⟩
  | number digits =>
    obtain rfl : cs = digits.toList := h
    cases hdigits : digits.toList with
    | nil => exact absurd (String.toList_eq_nil_iff.mp hdigits) hp.1
    | cons c tail => exact ⟨c, tail, rfl, hp.2 c (by simp [hdigits])⟩
  | symbol d => exact ⟨d, [], h, rfl⟩

theorem isBlank_of_begins (hp : p.Valid) (begins : p.Begins c) : Text.isBlank c = false := by
  cases hsolid : p.isSolid with
  | true => exact (solid_facts hsolid begins).1
  | false => exact (loose_facts hp hsolid begins).1

theorem Spelled.isBlank_getLast (hp : p.Valid) (h : p.Spelled cs) :
    ∀ c ∈ cs.getLast?, Text.isBlank c = false := by
  have hcased : ∀ {w : String} {xs : List Char}, Cased w xs → ∀ c ∈ xs,
      Text.isBlank c = false :=
    fun hw c hc => (letter_facts (hw.letters c hc)).1
  intro c hc
  cases p with
  | word w => exact hcased h c (List.mem_of_mem_getLast? hc)
  | pair first second =>
    obtain ⟨xs, gap, ys, rfl, -, hy, -⟩ := h
    have hys : ys ≠ [] := by
      rintro rfl
      exact (pair_facts _ hp).2.1 hy.length_eq.symm
    rw [List.getLast?_append_of_ne_nil _ hys] at hc
    exact hcased hy c (List.mem_of_mem_getLast? hc)
  | name s =>
    obtain rfl : cs = _ := h
    rw [List.getLast?_concat] at hc
    obtain rfl : '\x60' = c := by simpa using hc
    exact (quote_facts _ (by simp)).1
  | text s =>
    obtain rfl : cs = _ := h
    rw [List.getLast?_concat] at hc
    obtain rfl : '\'' = c := by simpa using hc
    exact (quote_facts _ (by simp)).1
  | number digits =>
    obtain rfl : cs = digits.toList := h
    exact (digit_facts (hp.2 c (List.mem_of_mem_getLast? hc))).1
  | symbol d =>
    obtain rfl : cs = [d] := h
    obtain rfl : d = c := by simpa using hc
    exact (symbol_facts d hp).1

theorem Spelled.not_comment (hp : p.Valid) (h : p.Spelled cs)
    (stop : ∀ c ∈ rest.head?, p.stops c = true) : Lexer.comment? (cs ++ rest) = none := by
  obtain ⟨c, tail, rfl, begins⟩ := h.cons hp
  have hmark : c ≠ '#' ∧ c ≠ '/' := by
    cases hsolid : p.isSolid with
    | true =>
      have hfacts := (solid_facts hsolid begins).2
      simp_all
    | false => exact (loose_facts hp hsolid begins).2.2.2.2.2
  have hminus : c = '-' → ∀ d ∈ (tail ++ rest).head?, d ≠ '-' := by
    rintro rfl
    cases p with
    | symbol d =>
      obtain rfl : '-' = d := begins
      obtain rfl : tail = [] := by simpa [Spelled] using h
      intro d hd
      have hstop := stop d hd
      simp_all [stops]
    | word w | pair first second | number digits =>
      exact absurd (solid_facts rfl begins).2 (by simp)
    | name s | text s => exact absurd begins (by simp [Begins])
  rw [List.cons_append]
  unfold Lexer.comment?
  split
  · rename_i heq
    obtain ⟨rfl, hnext⟩ := List.cons.inj heq
    exact absurd rfl (hminus rfl '-' (by rw [hnext]; rfl))
  all_goals simp_all

/-- A piece is read as one token that stands for it. -/
theorem Spelled.token (hp : p.Valid) (h : p.Spelled cs)
    (stop : ∀ c ∈ rest.head?, p.stops c = true) :
    ∃ t, Lexer.token (cs ++ rest) = some (t, rest) ∧ p.IsToken t := by
  cases p with
  | word w =>
    have hstop : ∀ c ∈ rest.head?, Lexer.isWordChar c = false := by simpa [stops] using stop
    have hlen := h.length_eq
    obtain ⟨c, d, tail, rfl⟩ : ∃ c d tail, cs = c :: d :: tail := by
      have hlong := hp.1
      match cs, hlen with
      | [], hlen | [_], hlen => simp at hlen; omega
      | c :: d :: tail, _ => exact ⟨c, d, tail, rfl⟩
    have hc := h.letters c (by simp)
    have hd := h.letters d (by simp)
    refine ⟨.word (String.ofList (c :: d :: tail)), ?_, _, rfl, h.capitals_eq⟩
    rw [← Lexer.word_of_cased h hp.2.1 hstop]
    exact Lexer.token_of_letters hc hd
  | pair first second =>
    have hstop : ∀ c ∈ rest.head?, Lexer.isWordChar c = false := by simpa [stops] using stop
    obtain ⟨xs, gap, ys, rfl, hx, hy, isGap, nonempty⟩ := h
    have hlen := hx.length_eq
    obtain ⟨c, d, tail, rfl⟩ : ∃ c d tail, xs = c :: d :: tail := by
      have hlong := (pair_facts _ hp).1
      match xs, hlen with
      | [], hlen | [_], hlen => simp at hlen hlong; omega
      | c :: d :: tail, _ => exact ⟨c, d, tail, rfl⟩
    have hc := hx.letters c (by simp)
    have hd := hx.letters d (by simp)
    refine ⟨_, ?_, rfl⟩
    rw [← Lexer.word_of_pair hx hy hp isGap nonempty hstop]
    exact Lexer.token_of_letters hc hd
  | name s =>
    obtain rfl : cs = _ := h
    have hstop : ∀ c ∈ rest.head?, c ≠ '\x60' := by simpa [stops] using stop
    have hread := Lexer.quotedName_of_plain hp hstop
    have hfigure : Text.isFigure '\x60' = false := (quote_facts _ (by simp)).2.2.1
    exact ⟨.name s, by simp [Lexer.token, hread, hfigure], rfl⟩
  | text s =>
    obtain rfl : cs = _ := h
    have hstop : ∀ c ∈ rest.head?, c ≠ '\'' := by simpa [stops] using stop
    have hread := Lexer.string_of_plain hp hstop
    have hfigure : Text.isFigure '\'' = false := (quote_facts _ (by simp)).2.2.1
    exact ⟨.text s, by simp [Lexer.token, hread, hfigure], rfl⟩
  | number digits =>
    obtain ⟨c, tail, rfl, hc⟩ := Spelled.cons hp h
    have hdigits : c :: tail = digits.toList := h
    have hstop : ∀ c ∈ rest.head?, Text.isFigure c = false ∧ Text.isInitial c = false ∧
        c ≠ '.' := by
      simpa [stops, and_assoc] using stop
    have hread := Lexer.number_of_digits (hdigits ▸ hp.2) hstop
    have hfigure := (digit_facts hc).2.2.1
    rw [hdigits, String.ofList_toList] at hread
    exact ⟨.number digits, by simp [Lexer.token, hread, hfigure], rfl⟩
  | symbol d =>
    obtain rfl : cs = [d] := h
    obtain ⟨-, hsingle, hfigure, -, hmark⟩ := symbol_facts d hp
    have hstop : ∀ c ∈ rest.head?, (d = '=' → c ≠ '=') ∧
        (d = '-' → c ≠ '-' ∧ c ≠ '>') := by
      intro c hc
      have hc := stop c hc
      simp [stops] at hc
      grind
    have hread := Lexer.symbol_of_plain hp hstop
    exact ⟨_, by simp_all [Lexer.token], rfl⟩

end Piece

/-! ## Whole texts -/

/-- The tokens stand for the pieces, one by one. -/
abbrev Tokens (ps : List Piece) (ts : List Token) : Prop := List.Forall₂ Piece.IsToken ps ts

namespace Tokens

variable {ps qs : List Piece} {ts : List Token}

theorem nil_iff : Tokens [] ts ↔ ts = [] := List.forall₂_nil_left_iff

theorem word_iff {w : String} : Tokens (.word w :: ps) ts ↔
    ∃ s rest, Text.capitals s = w ∧ Tokens ps rest ∧ ts = .word s :: rest := by
  simp only [List.forall₂_cons_left_iff, Piece.IsToken]
  constructor
  · rintro ⟨t, rest, ⟨s, rfl, hs⟩, hrest, rfl⟩
    exact ⟨s, rest, hs, hrest, rfl⟩
  · rintro ⟨s, rest, hs, hrest, rfl⟩
    exact ⟨_, rest, ⟨s, rfl, hs⟩, hrest, rfl⟩

theorem name_iff {s : String} :
    Tokens (.name s :: ps) ts ↔ ∃ rest, Tokens ps rest ∧ ts = .name s :: rest := by
  simp [List.forall₂_cons_left_iff, Piece.IsToken]

theorem symbol_iff {c : Char} : Tokens (.symbol c :: ps) ts ↔
    ∃ rest, Tokens ps rest ∧ ts = .symbol (String.singleton c) :: rest := by
  simp [List.forall₂_cons_left_iff, Piece.IsToken]

theorem append_iff : Tokens (ps ++ qs) ts ↔ ∃ us vs, Tokens ps us ∧ Tokens qs vs ∧
    ts = us ++ vs := by
  constructor
  · intro h
    induction ps generalizing ts with
    | nil => exact ⟨[], ts, .nil, h, rfl⟩
    | cons p ps ih =>
      obtain ⟨t, rest, ht, hrest, rfl⟩ := List.forall₂_cons_left_iff.mp h
      obtain ⟨us, vs, hus, hvs, rfl⟩ := ih hrest
      exact ⟨t :: us, vs, .cons ht hus, hvs, rfl⟩
  · rintro ⟨us, vs, hus, hvs, rfl⟩
    exact List.rel_append hus hvs

end Tokens

namespace Writes

variable {p : Piece} {ps : List Piece} {cs : List Char}

theorem cons (h : Writes (p :: ps) cs) (valid : p.Valid) :
    ∃ c tail, cs = c :: tail ∧ p.Begins c := by
  cases h with
  | last spelled => exact spelled.cons valid
  | next spelled isGap apart more =>
    obtain ⟨c, tail, rfl, begins⟩ := spelled.cons valid
    exact ⟨c, _, by rw [List.append_assoc, List.cons_append], begins⟩

/-- What comes after a piece is told apart from it. -/
theorem stops {q : Piece} {gap rest : List Char} (isGap : IsGap gap)
    (apart : p.clashes q = true → gap ≠ []) (more : Writes (q :: ps) rest) (valid : q.Valid) :
    ∀ c ∈ (gap ++ rest).head?, p.stops c = true := by
  intro c hc
  cases gap with
  | nil =>
    obtain ⟨d, tail, rfl, begins⟩ := more.cons valid
    obtain rfl : d = c := by simpa using hc
    exact Piece.stops_of_begins valid begins (by simpa using fun h => apart h rfl)
  | cons d gap =>
    obtain rfl : d = c := by simpa using hc
    exact Piece.stops_of_gap (isGap d (by simp))

theorem isBlank_getLast (h : Writes ps cs) (valid : ∀ p ∈ ps, p.Valid) :
    ∀ c ∈ cs.getLast?, Text.isBlank c = false := by
  induction h with
  | last spelled => exact spelled.isBlank_getLast (valid _ (by simp))
  | @next p q ps cs gap rest spelled isGap apart more ih =>
    obtain ⟨c, tail, rfl, -⟩ := more.cons (valid q (by simp))
    rw [List.getLast?_append_of_ne_nil _ (by simp)]
    exact ih fun p hp => valid p (by simp [hp])

end Writes

/-- A word can be written in capitals. -/
theorem Cased.of_upper {w : String} (h : ∀ c ∈ w.toList, c.isUpper = true) :
    Cased w w.toList := by
  have hletter : ∀ c ∈ w.toList, c.isAlpha = true := fun c hc => by
    change (c.isUpper || c.isLower) = true
    rw [h c hc, Bool.true_or]
  have hsame : ∀ c ∈ w.toList, c.toUpper = c := fun c hc =>
    (ascii_facts (lt_of_isAlpha (hletter c hc))).2.2 (h c hc)
  exact ⟨hletter, (List.map_congr_left hsame).trans (List.map_id _)⟩

theorem Piece.Valid.spelled {p : Piece} (h : p.Valid) : ∃ cs, p.Spelled cs := by
  cases p with
  | word w => exact ⟨_, .of_upper h.2.2⟩
  | pair first second =>
    obtain ⟨-, -, hfirst, hsecond⟩ := pair_facts _ h
    exact ⟨_, _, [' '], _, rfl, .of_upper hfirst,
      .of_upper hsecond, by simp [IsGap, gapChars], by simp⟩
  | name s | text s | number digits | symbol c => exact ⟨_, rfl⟩

/-- Pieces can be written one after the other with a blank between them. -/
theorem exists_writes : ∀ {ps : List Piece}, ps ≠ [] → (∀ p ∈ ps, p.Valid) →
    ∃ cs, Writes ps cs
  | [p], _, valid => by
    obtain ⟨cs, hcs⟩ := (valid p (by simp)).spelled
    exact ⟨cs, .last hcs⟩
  | p :: q :: ps, _, valid => by
    obtain ⟨cs, hcs⟩ := (valid p (by simp)).spelled
    obtain ⟨rest, hrest⟩ := exists_writes (List.cons_ne_nil q ps) fun p hp =>
      valid p (by simp [hp])
    exact ⟨cs ++ [' '] ++ rest, .next hcs (by simp [IsGap, gapChars]) (by simp) hrest⟩

namespace Lexer

variable {ps : List Piece} {cs gap : List Char}

/-- Gaps are passed over. -/
theorem run_gap (isGap : IsGap gap) {n : Nat} (found : List Lexeme) (mark : Option (List Char)) :
    run (gap.length + n) found mark false (gap ++ cs) = run n found mark false cs := by
  induction gap with
  | nil => simp
  | cons c gap ih =>
    have hblank := (gap_facts c (isGap c (by simp))).1
    have hn : (c :: gap).length + n = gap.length + n + 1 := by simp; omega
    rw [hn, List.cons_append, run]
    simp [hblank, ih fun d hd => isGap d (by simp [hd])]

/-- One piece is read, and reading goes on behind it. -/
theorem run_spelled {p : Piece} {rest : List Char} (valid : p.Valid) (spelled : p.Spelled cs)
    (stop : ∀ c ∈ rest.head?, p.stops c = true) {n : Nat} (found : List Lexeme)
    (mark : Option (List Char)) : ∃ t, p.IsToken t ∧
      run (n + 1) found mark false (cs ++ rest) = run n (⟨t, false⟩ :: found)
      (some rest) false rest := by
  obtain ⟨t, hread, ht⟩ := spelled.token valid stop
  have hcomment := spelled.not_comment valid stop
  obtain ⟨c, tail, rfl, begins⟩ := spelled.cons valid
  have hblank := Piece.isBlank_of_begins valid begins
  refine ⟨t, ht, ?_⟩
  rw [List.cons_append] at hread hcomment ⊢
  simp [run, hblank, hcomment, hread]

theorem run_of_writes (h : Writes ps cs) (valid : ∀ p ∈ ps, p.Valid) :
    ∀ {n : Nat}, cs.length < n → ∀ found mark, ∃ ts, Tokens ps ts ∧
      run n found mark false cs = some (found.reverse ++ ts.map (⟨·, false⟩)) := by
  induction h with
  | @last p cs spelled =>
    intro n hn found mark
    obtain ⟨c, tail, hcs, -⟩ := spelled.cons (valid p (by simp))
    obtain ⟨n, rfl⟩ : ∃ m, n = m + 2 := ⟨n - 2, by simp [hcs] at hn; omega⟩
    have hstop : ∀ c ∈ ([] : List Char).head?, p.stops c = true := by simp
    obtain ⟨t, ht, hrun⟩ := run_spelled (n := n + 1)
      (valid p (by simp)) spelled hstop found mark
    refine ⟨[t], by simpa using ht, ?_⟩
    rw [List.append_nil] at hrun
    simp [hrun, run]
  | @next p q ps cs gap rest spelled isGap apart more ih =>
    intro n hn found mark
    obtain ⟨c, tail, hcs, -⟩ := spelled.cons (valid p (by simp))
    have hstop := more.stops isGap apart (valid q (by simp))
    obtain ⟨m, rfl, hm⟩ : ∃ m, n = gap.length + m + 1 ∧ rest.length < m :=
      ⟨n - gap.length - 1, by simp [hcs] at hn; omega, by simp [hcs] at hn; omega⟩
    obtain ⟨t, ht, hrun⟩ := run_spelled (n := gap.length + m) (valid p (by simp)) spelled hstop
      found mark
    obtain ⟨ts, hts, hmore⟩ := ih (fun p hp => valid p (by simp [hp])) hm
      (⟨t, false⟩ :: found) (some (gap ++ rest))
    refine ⟨t :: ts, .cons ht hts, ?_⟩
    rw [List.append_assoc, hrun, run_gap isGap, hmore]
    simp

end Lexer

/-- The tokens of a statement are what it is written with. -/
theorem tokens?_of_writes {ps : List Piece} {cs : List Char} (h : Writes ps cs)
    (valid : ∀ p ∈ ps, p.Valid) : ∃ ts, Tokens ps ts ∧
      tokens? (String.ofList cs) = some (ts.map (⟨·, false⟩)) := by
  obtain ⟨ts, hts, hrun⟩ := Lexer.run_of_writes h valid (Nat.lt_succ_self _) [] none
  exact ⟨ts, hts, by simpa [tokens?] using hrun⟩

theorem splitStatements_of_plain {ts : List Token} (h : Token.symbol ";" ∉ ts) :
    splitStatements (ts.map (⟨·, false⟩)) = [some ts] := by
  induction ts with
  | nil => simp [splitStatements]
  | cons t ts ih =>
    simp only [List.mem_cons, not_or] at h
    simp [splitStatements, Ne.symm h.1, ih h.2]

/-- No piece is a semicolon, so that all of them make one statement. -/
theorem Tokens.not_semicolon {ps : List Piece} {ts : List Token} (h : Tokens ps ts)
    (valid : ∀ p ∈ ps, p.Valid) : Token.symbol ";" ∉ ts := by
  induction h with
  | nil => simp
  | @cons p t ps ts ht hts ih =>
    have hp := valid p (by simp)
    refine List.not_mem_cons_of_ne_of_not_mem ?_ (ih fun p hp => valid p (by simp [hp]))
    rintro rfl
    cases p with
    | word w => obtain ⟨s, hs, -⟩ := ht; cases hs
    | symbol c =>
      have hc : ∀ c ∈ "(),=.*-".toList, ";" ≠ String.singleton c := by decide
      exact hc c hp (Token.symbol.inj ht)
    | pair first second | name s | text s | number digits => cases ht

end Sql
end Tabulary
