import Mathlib.Data.List.DropRight
import Mathlib.Data.List.Forall2
import Tabulary.Json.Printer
import Tabulary.Json.Reader
import Tabulary.Proofs.Text.Decimal

/-!
Reading what was written.  A string is read character by character, each from the escape that stands
for it, and a number up to the first character that cannot go on with it; the items of an array and
the fields of an object are read piece by piece.  Main statement: an indented value is read as
itself (`read?_pretty`).
-/

namespace Tabulary
namespace Json

namespace Reader

variable {α : Type} {cs rest front gap margin close : List Char} {n depth : Nat}
  {item : Reader Json}

/-! ## Strings -/

theorem hexValue?_hexDigit : ∀ d < 16, Text.hexValue? (Text.hexDigit d) = some d := by decide

theorem hex4_hexFixed (h : n < 0x10000) : hex4 (Text.hexFixed 4 n ++ rest) = some (n, rest) := by
  have hdigit (k : Nat) : Text.hexValue? (Text.hexDigit (k % 16)) = some (k % 16) :=
    hexValue?_hexDigit _ (Nat.mod_lt k (by decide))
  have hvalue : 16 * (16 * (16 * (16 * 0 + n / 16 / 16 / 16 % 16) + n / 16 / 16 % 16) +
      n / 16 % 16) + n % 16 = n := by omega
  simp only [Text.hexFixed, List.nil_append, List.cons_append, hex4, List.mapM_cons, List.mapM_nil,
    hdigit, Option.bind_eq_bind, Option.bind_some, Option.pure_def, List.foldl_cons, List.foldl_nil,
    hvalue]

theorem stringBody_of_escaped {e : List Char} {c : Char}
    (h : escaped (e ++ rest) = some (c, rest)) :
    stringBody (n + 1) (('\\' :: e) ++ rest) = (stringBody n rest).map fun x =>
    (c :: x.1, x.2) := by
  rw [List.cons_append, stringBody, h]
  simp only [Option.bind_eq_bind, Option.bind_some]
  cases stringBody n rest <;> rfl

/-- Every character is read from what is written for it. -/
theorem stringBody_escapeChar (n : Nat) (c : Char) (rest : List Char) :
    stringBody (n + 1) (escapeChar c ++ rest) = (stringBody n rest).map fun x =>
    (c :: x.1, x.2) := by
  by_cases hquote : c = '\x22'
  · subst hquote
    exact stringBody_of_escaped rfl
  by_cases hslash : c = '\\'
  · subst hslash
    exact stringBody_of_escaped rfl
  by_cases hline : c = '\n'
  · subst hline
    exact stringBody_of_escaped rfl
  by_cases hreturn : c = '\r'
  · subst hreturn
    exact stringBody_of_escaped rfl
  by_cases htab : c = '\t'
  · subst htab
    exact stringBody_of_escaped rfl
  by_cases hback : c = '\x08'
  · subst hback
    exact stringBody_of_escaped rfl
  by_cases hfeed : c = '\x0c'
  · subst hfeed
    exact stringBody_of_escaped rfl
  unfold escapeChar
  rw [if_neg hquote, if_neg hslash, if_neg hline, if_neg hreturn, if_neg htab, if_neg hback,
    if_neg hfeed]
  by_cases hcontrol : c.toNat < 0x20
  · rw [if_pos hcontrol]
    refine stringBody_of_escaped ?_
    have hlow : c.toNat < 0xD800 ∨ 0xDFFF < c.toNat := Or.inl (by omega)
    rw [List.cons_append, escaped, hex4_hexFixed (by omega)]
    simp only [Option.bind_eq_bind, Option.bind_some, if_pos hlow, Char.ofNat_toNat]
    rfl
  · rw [if_neg hcontrol, List.singleton_append, stringBody, if_neg hquote, if_neg hcontrol]
    · cases stringBody n rest <;> rfl
    · exact fun h => hslash h

theorem stringBody_escaped (cs rest : List Char) (n : Nat) (hn : cs.length < n) :
    stringBody n (cs.flatMap escapeChar ++ '\x22' :: rest) = some (cs, rest) := by
  induction cs generalizing n with
  | nil =>
    obtain ⟨n, rfl⟩ := Nat.exists_eq_succ_of_ne_zero (Nat.ne_of_gt hn)
    rfl
  | cons c cs ih =>
    obtain ⟨n, rfl⟩ := Nat.exists_eq_succ_of_ne_zero (Nat.ne_of_gt (Nat.zero_lt_of_lt hn))
    rw [List.flatMap_cons, List.append_assoc, stringBody_escapeChar, ih n (by simpa using hn)]
    rfl

theorem length_escaped (cs : List Char) : cs.length ≤ (cs.flatMap escapeChar).length := by
  have hone (c : Char) : 1 ≤ (escapeChar c).length := by
    unfold escapeChar
    repeat' split
    all_goals simp
  induction cs with
  | nil => exact Nat.le_refl _
  | cons c cs ih =>
    have hc := hone c
    rw [List.flatMap_cons, List.length_append, List.length_cons]
    omega

theorem quote_append (s : String) (rest : List Char) :
    (quote s).toList ++ rest = '\x22' :: (s.toList.flatMap escapeChar ++ '\x22' :: rest) := by
  rw [quote, String.toList_ofList, List.cons_append, List.cons_append, List.append_assoc]
  rfl

theorem stringRest_quoted (s : String) (rest : List Char) :
    stringRest (s.toList.flatMap escapeChar ++ '\x22' :: rest) = some (s, rest) := by
  have hlength := length_escaped s.toList
  have hbody : s.toList.length < (s.toList.flatMap escapeChar ++ '\x22' :: rest).length + 1 := by
    rw [List.length_append]
    omega
  rw [stringRest, stringBody_escaped _ _ _ hbody]
  exact congrArg some (congrArg (·, rest) String.ofList_toList)

/-! ## Lines -/

theorem skipBlanks_append (h : skipBlanks margin = []) (cs : List Char) :
    skipBlanks (margin ++ cs) = skipBlanks cs := by
  unfold skipBlanks at h ⊢
  rw [List.dropWhile_append, h]
  rfl

theorem skipBlanks_skipBlanks (cs : List Char) : skipBlanks (skipBlanks cs) = skipBlanks cs := by
  unfold skipBlanks
  exact List.dropWhile_idempotent _ _

/-- Blanks before the first item do not matter. -/
theorem items_congr {cs' : List Char} (h : skipBlanks cs = skipBlanks cs') :
    items item n cs = items item n cs' := by
  cases n with
  | zero => rfl
  | succ n => rw [items, items, h]

theorem fields_congr {cs' : List Char} (h : skipBlanks cs = skipBlanks cs') :
    fields item n cs = fields item n cs' := by
  cases n with
  | zero => rfl
  | succ n => rw [fields, fields, h]

/-- A text that begins with neither a blank nor a closing bracket. -/
def Opens (cs : List Char) : Prop :=
  ∃ c rest, cs = c :: rest ∧ skipBlanks [c] = [c] ∧ c ≠ ']' ∧ c ≠ '\x7d'

theorem Opens.skipBlanks_append (h : Opens cs) (rest : List Char) :
    skipBlanks (cs ++ rest) = cs ++ rest := by
  obtain ⟨c, cs, rfl, hblank, -, -⟩ := h
  unfold skipBlanks at hblank ⊢
  rw [List.dropWhile_cons] at hblank
  rw [List.cons_append, List.dropWhile_cons]
  split at hblank
  · cases hblank
  · rename_i hc
    rw [if_neg hc]

/-- A text that cannot go on with a number. -/
def Ends (cs : List Char) : Prop :=
  ∀ c rest, cs = c :: rest → isAsciiDigit c = false ∧ c ≠ '.' ∧ c ≠ 'e' ∧ c ≠ 'E'

theorem ends_nil : Ends [] := nofun

theorem ends_cons {c : Char} (h : isAsciiDigit c = false ∧ c ≠ '.' ∧ c ≠ 'e' ∧ c ≠ 'E')
    (cs : List Char) : Ends (c :: cs) := by
  intro c' rest heq
  cases heq
  exact h

/-- Blanks end a number, and so does what ends it without them. -/
theorem Ends.blanks (h : Ends cs) (hclose : skipBlanks close = []) : Ends (close ++ cs) := by
  cases close with
  | nil => exact h
  | cons c close =>
    unfold skipBlanks at hclose
    rw [List.dropWhile_eq_nil_iff] at hclose
    have hc := hclose c List.mem_cons_self
    simp only [Bool.or_eq_true, decide_eq_true_eq] at hc
    refine ends_cons ?_ (close ++ cs)
    rcases hc with ((rfl | rfl) | rfl) | rfl <;> decide

/-- A text is read as a value, whatever comes after it that does not go on with a number. -/
structure Writes (item : Reader Json) (cs : List Char) (v : Json) : Prop where
  reads : ∀ rest, Ends rest → item (cs ++ rest) = some (v, rest)
  opens : Opens cs

/-- The text of a field: its name, and its value after a colon. -/
def WritesField (item : Reader Json) (cs : List Char) (f : String × Json) : Prop :=
  ∃ value, cs = (quote f.1).toList ++ ':' :: ' ' :: value ∧ Writes item value f.2

theorem WritesField.opens {f : String × Json} (h : WritesField item cs f) : Opens cs := by
  obtain ⟨value, rfl, -⟩ := h
  rw [quote_append]
  exact ⟨_, _, rfl, rfl, by decide, by decide⟩

theorem forall₂_writes {line : Json → String} {vs : List Json}
    (h : ∀ v ∈ vs, Writes item (line v).toList v) :
    List.Forall₂ (Writes item) ((vs.map line).map String.toList) vs := by
  rw [List.map_map]
  exact List.forall₂_map_left_iff.mpr (List.forall₂_same.mpr h)

theorem forall₂_writesField {line : Json → String} {fs : List (String × Json)}
    (h : ∀ f ∈ fs, Writes item (line f.2).toList f.2) : List.Forall₂ (WritesField item)
      ((fs.map fun f => quote f.1 ++ ": " ++ line f.2).map String.toList) fs := by
  rw [List.map_map]
  refine List.forall₂_map_left_iff.mpr (List.forall₂_same.mpr fun f hf => ⟨_, ?_, h f hf⟩)
  rw [Function.comp_apply, String.toList_append, String.toList_append, List.append_assoc]
  rfl

/-- Pieces with commas between them are read one after another, by a reader that reads the last of
them with the bracket after it, and any other one with the comma after it. -/
theorem read_lines {β : Type} {loop : Nat → Reader (List β)} {W : List Char → β → Prop}
    {tail : List Char}
    (hlast : ∀ line v n, W line v → loop (n + 1) (margin ++ (line ++ tail)) = some ([v], rest))
    (hnext : ∀ line v n cs, W line v → loop (n + 1) (margin ++ (line ++ ',' :: (gap ++ cs))) =
      (loop n cs).map fun x => (v :: x.1, x.2))
    {lines : List (List Char)} {vs : List β} (h : List.Forall₂ W lines vs) (hne : lines ≠ [])
    (hn : lines.length ≤ n) :
    loop n ((',' :: gap).intercalate (lines.map (margin ++ ·)) ++ tail) = some (vs, rest) := by
  induction h generalizing n with
  | nil => exact absurd rfl hne
  | @cons line v lines vs hline hlines ih =>
    obtain ⟨n, rfl⟩ := Nat.exists_eq_succ_of_ne_zero (Nat.ne_of_gt (Nat.zero_lt_of_lt hn))
    cases lines with
    | nil =>
      cases hlines
      rw [List.map_singleton, List.intercalate_singleton, List.append_assoc]
      exact hlast line v n hline
    | cons next lines =>
      have hrest := ih (List.cons_ne_nil _ _) (Nat.le_of_succ_le_succ hn)
      have hstep := hnext line v n
        ((',' :: gap).intercalate ((next :: lines).map (margin ++ ·)) ++ tail) hline
      rw [hrest] at hstep
      rw [List.map_cons, List.map_cons, List.intercalate_cons_cons, List.append_assoc,
        List.append_assoc, List.append_assoc]
      exact hstep

theorem items_lines {lines : List (List Char)} {vs : List Json} (hgap : skipBlanks gap = [])
    (hmargin : skipBlanks margin = []) (hclose : skipBlanks close = [])
    (h : List.Forall₂ (Writes item) lines vs) (hne : lines ≠ []) (hn : lines.length ≤ n)
    (rest : List Char) :
    items item n ((',' :: gap).intercalate (lines.map (margin ++ ·)) ++ (close ++ ']' :: rest)) =
      some (vs, rest) := by
  refine read_lines (fun line v n hline => ?_) (fun line v n cs hline => ?_) h hne hn
  · have hends : Ends (close ++ ']' :: rest) := (ends_cons (by decide) rest).blanks hclose
    rw [items, skipBlanks_append hmargin, hline.opens.skipBlanks_append, hline.reads _ hends]
    simp only [Option.bind_eq_bind, Option.bind_some, skipBlanks_append hclose]
    rfl
  · have hcomma : skipBlanks (',' :: (gap ++ cs)) = ',' :: (gap ++ cs) := rfl
    rw [items, skipBlanks_append hmargin, hline.opens.skipBlanks_append,
      hline.reads _ (ends_cons (by decide) _)]
    simp only [Option.bind_eq_bind, Option.bind_some, hcomma,
      items_congr (skipBlanks_append hgap cs)]
    cases items item n cs <;> rfl

theorem fields_lines {lines : List (List Char)} {fs : List (String × Json)}
    (hgap : skipBlanks gap = []) (hmargin : skipBlanks margin = []) (hclose : skipBlanks close = [])
    (h : List.Forall₂ (WritesField item) lines fs) (hne : lines ≠ []) (hn : lines.length ≤ n)
    (rest : List Char) :
    fields item n ((',' :: gap).intercalate (lines.map (margin ++ ·)) ++
      (close ++ '\x7d' :: rest)) = some (fs, rest) := by
  have hcolon (cs : List Char) : skipBlanks (':' :: ' ' :: cs) = ':' :: ' ' :: cs := rfl
  have hblank (cs : List Char) : skipBlanks (' ' :: cs) = skipBlanks cs := rfl
  have hname (cs : List Char) : skipBlanks ('\x22' :: cs) = '\x22' :: cs := rfl
  refine read_lines (fun line f n hline => ?_) (fun line f n cs hline => ?_) h hne hn
  · obtain ⟨value, rfl, hvalue⟩ := hline
    have hends : Ends (close ++ '\x7d' :: rest) := (ends_cons (by decide) rest).blanks hclose
    rw [fields, skipBlanks_append hmargin, List.append_assoc, quote_append, hname]
    simp only [stringRest_quoted, List.cons_append, Option.bind_eq_bind, Option.bind_some, hcolon,
      hblank, hvalue.opens.skipBlanks_append, hvalue.reads _ hends, skipBlanks_append hclose]
    rfl
  · obtain ⟨value, rfl, hvalue⟩ := hline
    have hcomma : skipBlanks (',' :: (gap ++ cs)) = ',' :: (gap ++ cs) := rfl
    have hends : Ends (',' :: (gap ++ cs)) := ends_cons (by decide) _
    rw [fields, skipBlanks_append hmargin, List.append_assoc, quote_append, hname]
    simp only [stringRest_quoted, List.cons_append, Option.bind_eq_bind, Option.bind_some, hcolon,
      hblank, hvalue.opens.skipBlanks_append, hvalue.reads _ hends, hcomma,
      fields_congr (skipBlanks_append hgap cs)]
    cases fields item n cs <;> rfl

/-- The first piece, and as much after it as there are other pieces. -/
theorem lines_eq (gap margin line : List Char) (lines : List (List Char)) (tail : List Char) :
    ∃ more, (',' :: gap).intercalate ((line :: lines).map (margin ++ ·)) ++ tail =
      margin ++ (line ++ more) ∧ lines.length ≤ more.length := by
  induction lines generalizing line with
  | nil =>
    refine ⟨tail, ?_, Nat.zero_le _⟩
    rw [List.map_singleton, List.intercalate_singleton, List.append_assoc]
  | cons next lines ih =>
    obtain ⟨more, heq, hlength⟩ := ih next
    refine ⟨(',' :: gap) ++ (margin ++ (next ++ more)), ?_, ?_⟩
    · rw [← heq, List.map_cons, List.map_cons, List.intercalate_cons_cons, List.append_assoc,
        List.append_assoc, List.append_assoc]
    · rw [List.length_cons, List.length_append, List.length_append, List.length_append,
        List.length_cons]
      omega

/-- The first piece is what there is after the bracket that was opened. -/
theorem skipBlanks_lines (gap : List Char) {line : List Char} (hfront : skipBlanks front = [])
    (hmargin : skipBlanks margin = []) (hline : Opens line) (lines : List (List Char))
    (tail : List Char) :
    ∃ more,
    skipBlanks (front ++ ((',' :: gap).intercalate ((line :: lines).map (margin ++ ·)) ++ tail)) =
      line ++ more ∧ (line :: lines).length ≤ (line ++ more).length + 1 := by
  obtain ⟨more, heq, hlength⟩ := lines_eq gap margin line lines tail
  refine ⟨more, ?_, ?_⟩
  · rw [heq, skipBlanks_append hfront, skipBlanks_append hmargin, hline.skipBlanks_append]
  · rw [List.length_cons, List.length_append]
    omega

/-! ## Numbers -/

theorem digits_append {ds : List Char} (hds : ∀ c ∈ ds, isAsciiDigit c = true)
    (hends : Ends rest) : digits (ds ++ rest) = (ds.map Text.digitOf, rest) := by
  have hstop : rest.takeWhile isAsciiDigit = [] ∧ rest.dropWhile isAsciiDigit = rest := by
    cases rest with
    | nil => exact ⟨rfl, rfl⟩
    | cons c rest =>
      have hc : ¬isAsciiDigit c = true := Bool.eq_false_iff.mp (hends c rest rfl).1
      exact ⟨List.takeWhile_cons_of_neg hc, List.dropWhile_cons_of_neg hc⟩
  rw [digits, List.takeWhile_append_of_pos hds, List.dropWhile_append_of_pos hds, hstop.1, hstop.2,
    List.append_nil]
  rfl

theorem fraction_of_ends (hends : Ends rest) : fraction rest = some ([], rest) := by
  unfold fraction
  split
  · exact absurd rfl (hends '.' _ rfl).2.1
  · rfl

theorem exponent_of_ends (hends : Ends rest) : exponent rest = some (none, rest) := by
  cases rest with
  | nil => rfl
  | cons c rest =>
    obtain ⟨-, -, hsmall, hcapital⟩ := hends c rest rfl
    exact if_neg (not_or.mpr ⟨hsmall, hcapital⟩)

theorem isAsciiDigit_of_mem {n : Nat} {c : Char} (h : c ∈ Nat.toDigits 10 n) :
    isAsciiDigit c = true := by
  have hdigit := Text.plain_of_mem_toDigits h
  simpa [isAsciiDigit] using hdigit

/-- A number has a digit, and a zero before others it has not. -/
theorem leading_toDigits (n : Nat) : (((Nat.toDigits 10 n).map Text.digitOf).isEmpty ||
    (((Nat.toDigits 10 n).map Text.digitOf).head? == some 0 &&
      ((Nat.toDigits 10 n).map Text.digitOf).length != 1)) = false := by
  by_cases hn : n = 0
  · subst hn
    decide
  · have hfirst : (((Nat.toDigits 10 n).map Text.digitOf).head? == some 0) = false :=
      beq_eq_false_iff_ne.mpr (Text.head?_digits_ne hn)
    rw [hfirst, Bool.false_and, Bool.or_false, List.isEmpty_map, List.isEmpty_eq_false_iff]
    exact Nat.toDigits_ne_nil

/-- The digits of a number are read with a sign that has been read before them. -/
theorem magnitude_toDigits {n : Nat} (hshort : (Nat.toDigits 10 n).length ≤ 4300)
    (negative : Bool) (hends : Ends rest) : magnitude negative (Nat.toDigits 10 n ++ rest) =
      some (int (if negative then -(n : Int) else n), rest) := by
  have hdigits : digits (Nat.toDigits 10 n ++ rest) =
      ((Nat.toDigits 10 n).map Text.digitOf, rest) :=
    digits_append (fun _ => isAsciiDigit_of_mem) hends
  have hlength : ((Nat.toDigits 10 n).map Text.digitOf).length ≤ 4300 := by rwa [List.length_map]
  unfold magnitude
  rw [hdigits]
  dsimp only
  rw [leading_toDigits, fraction_of_ends hends]
  simp only [Option.bind_eq_bind, Option.bind_some, exponent_of_ends hends, Text.Numeral.value,
    Text.ofDigits_toDigits, hlength]
  rfl

theorem scalar_digit {c : Char} (hc : isAsciiDigit c = true) (cs : List Char) :
    scalar (c :: cs) = magnitude false (c :: cs) := by
  unfold scalar
  split
  case h_9 => rfl
  all_goals
    rename_i heq
    cases heq
    cases hc

theorem scalar_minus {c : Char} (hc : isAsciiDigit c = true) (cs : List Char) :
    scalar ('-' :: c :: cs) = magnitude true (c :: cs) := by
  rw [scalar]
  rintro r heq
  cases heq
  cases hc

/-- A number is read from its sign and its digits. -/
theorem scalar_decimal {n : Int} (hshort : (Nat.toDigits 10 n.natAbs).length ≤ 4300)
    (hends : Ends rest) : scalar ((Text.decimal n).toList ++ rest) = some (int n, rest) := by
  have hmagnitude (negative : Bool) := magnitude_toDigits hshort negative hends
  obtain ⟨c, ds, hds⟩ := List.exists_cons_of_ne_nil
    (Nat.toDigits_ne_nil (n := n.natAbs) (b := 10))
  have hc : isAsciiDigit c = true := isAsciiDigit_of_mem (hds ▸ List.mem_cons_self)
  rw [Text.toList_decimal]
  rw [hds] at hmagnitude ⊢
  split
  · have hsize : (n.natAbs : Int) = n := by omega
    rw [List.nil_append, List.cons_append, scalar_digit hc, ← List.cons_append, hmagnitude false]
    simp only [Bool.false_eq_true, if_false, hsize]
  · have hsize : -(n.natAbs : Int) = n := by omega
    rw [List.append_assoc, List.singleton_append, List.cons_append, scalar_minus hc,
      ← List.cons_append, hmagnitude true]
    simp only [if_true, hsize]

/-! ## Values -/

theorem value_text (depth : Nat) (s : String) : Writes (value depth) (quote s).toList (text s) where
  reads rest _ := by
    have hscalar : value depth ('\x22' :: (s.toList.flatMap escapeChar ++ '\x22' :: rest)) =
        (stringRest (s.toList.flatMap escapeChar ++ '\x22' :: rest)).map
          fun x => (text x.1, x.2) := by
      rw [value]
      · rfl
      · exact nofun
      · exact nofun
    rw [quote_append, hscalar, stringRest_quoted]
    rfl
  opens := by
    have hquote := quote_append s []
    rw [List.append_nil] at hquote
    rw [hquote]
    exact ⟨_, _, rfl, rfl, by decide, by decide⟩

theorem value_int (depth : Nat) {n : Int} (hshort : (Nat.toDigits 10 n.natAbs).length ≤ 4300) :
    Writes (value depth) (Text.decimal n).toList (int n) := by
  obtain ⟨c, cs, hcs, hc⟩ : ∃ c cs, (Text.decimal n).toList = c :: cs ∧
      (c = '-' ∨ isAsciiDigit c = true) := by
    obtain ⟨c, ds, hds⟩ := List.exists_cons_of_ne_nil
      (Nat.toDigits_ne_nil (n := n.natAbs) (b := 10))
    rw [Text.toList_decimal]
    split
    · exact ⟨c, ds, hds, .inr (isAsciiDigit_of_mem (hds ▸ List.mem_cons_self))⟩
    · exact ⟨'-', _, rfl, .inl rfl⟩
  have hne (other : Char) (hminus : '-' ≠ other) (hdigit : isAsciiDigit other = false) :
      c ≠ other := by
    rintro rfl
    rcases hc with heq | htrue
    · exact hminus heq.symm
    · exact Bool.false_ne_true (hdigit.symm.trans htrue)
  refine ⟨fun rest hends => ?_, c, cs, hcs, ?_, hne _ (by decide) (by decide),
    hne _ (by decide) (by decide)⟩
  · rw [← scalar_decimal hshort hends, hcs, List.cons_append, value]
    · intro r heq
      exact hne '[' (by decide) (by decide) (List.cons.inj heq).1
    · intro r heq
      exact hne '\x7b' (by decide) (by decide) (List.cons.inj heq).1
  · have hblank : (c = ' ' || c = '\n' || c = '\r' || c = '\t') = false := by
      simp [hne ' ' (by decide) (by decide), hne '\n' (by decide) (by decide),
        hne '\r' (by decide) (by decide), hne '\t' (by decide) (by decide)]
    rw [skipBlanks, List.dropWhile_cons_of_neg (by rw [hblank]; exact Bool.false_ne_true)]

theorem value_null (depth : Nat) : Writes (value depth) "null".toList null where
  reads rest _ := by cases depth <;> rfl
  opens := ⟨'n', _, rfl, rfl, by decide, by decide⟩

theorem value_bool (depth : Nat) (b : Bool) :
    Writes (value depth) (if b then "true" else "false").toList (bool b) := by
  cases b with
  | false =>
    exact ⟨fun rest _ => by cases depth <;> rfl, 'f', _, rfl, rfl, by decide, by decide⟩
  | true => exact ⟨fun rest _ => by cases depth <;> rfl, 't', _, rfl, rfl, by decide, by decide⟩

theorem value_array {c : Char} {cs r : List Char} (hr : skipBlanks r = c :: cs) (hc : c ≠ ']') :
    value (depth + 1) ('[' :: r) =
      (items (value depth) ((skipBlanks r).length + 1) (skipBlanks r)).map
        fun x => (array x.1, x.2) := by
  simp [value, hr, hc]

theorem value_object {c : Char} {cs r : List Char} (hr : skipBlanks r = c :: cs)
    (hc : c ≠ '\x7d') : value (depth + 1) ('\x7b' :: r) =
      (fields (value depth) ((skipBlanks r).length + 1) (skipBlanks r)).map
        fun x => (object x.1, x.2) := by
  simp [value, hr, hc]

/-- The items of an array, one after another. -/
theorem value_array_lines (front close : List Char) {lines : List (List Char)} {vs : List Json}
    (hfront : skipBlanks front = []) (hgap : skipBlanks gap = []) (hmargin : skipBlanks margin = [])
    (hclose : skipBlanks close = []) (h : List.Forall₂ (Writes (value depth)) lines vs)
    (hne : lines ≠ []) (rest : List Char) :
    value (depth + 1) ('[' :: (front ++
        ((',' :: gap).intercalate (lines.map (margin ++ ·)) ++ (close ++ ']' :: rest)))) =
      some (array vs, rest) := by
  have hread (n : Nat) := items_lines (n := n) hgap hmargin hclose h hne
  cases h with
  | nil => exact absurd rfl hne
  | @cons line v lines vs hline hlines =>
    obtain ⟨more, hskip, hn⟩ :=
      skipBlanks_lines gap hfront hmargin hline.opens lines (close ++ ']' :: rest)
    obtain ⟨c, cs, hcs, -, hc, -⟩ := hline.opens
    rw [value_array (hskip.trans (congrArg (· ++ more) hcs)) hc,
      items_congr (skipBlanks_skipBlanks _), items_congr (skipBlanks_append hfront _), hskip,
      hread _ hn]
    rfl

/-- The fields of an object, one after another. -/
theorem value_object_lines (front close : List Char) {lines : List (List Char)}
    {fs : List (String × Json)} (hfront : skipBlanks front = []) (hgap : skipBlanks gap = [])
    (hmargin : skipBlanks margin = []) (hclose : skipBlanks close = [])
    (h : List.Forall₂ (WritesField (value depth)) lines fs) (hne : lines ≠ [])
    (rest : List Char) : value (depth + 1) ('\x7b' :: (front ++
        ((',' :: gap).intercalate (lines.map (margin ++ ·)) ++ (close ++ '\x7d' :: rest)))) =
      some (object fs, rest) := by
  have hread (n : Nat) := fields_lines (n := n) hgap hmargin hclose h hne
  cases h with
  | nil => exact absurd rfl hne
  | @cons line f lines fs hline hlines =>
    obtain ⟨more, hskip, hn⟩ :=
      skipBlanks_lines gap hfront hmargin hline.opens lines (close ++ '\x7d' :: rest)
    obtain ⟨c, cs, hcs, -, -, hc⟩ := hline.opens
    rw [value_object (hskip.trans (congrArg (· ++ more) hcs)) hc,
      fields_congr (skipBlanks_skipBlanks _), fields_congr (skipBlanks_append hfront _), hskip,
      hread _ hn]
    rfl

end Reader

/-! ## Indented values -/

open Reader

/-- Values nested at most so deep, whose numbers are integers of no more digits than are read. -/
def Nests : Nat → Json → Prop
  | _, .null => True
  | _, .bool _ => True
  | _, .int n => (Nat.toDigits 10 n.natAbs).length ≤ 4300
  | _, .text _ => True
  | depth + 1, .array items => ∀ v ∈ items, Nests depth v
  | depth + 1, .object fields => ∀ f ∈ fields, Nests depth f.2
  | _, _ => False

theorem prettyItems_eq (level : Nat) (vs : List Json) :
    prettyItems level vs = vs.map (pretty level) := by
  induction vs with
  | nil => rw [prettyItems, List.map_nil]
  | cons v vs ih => rw [prettyItems, List.map_cons, ih]

theorem prettyFields_eq (level : Nat) (fs : List (String × Json)) :
    prettyFields level fs = fs.map fun f => quote f.1 ++ ": " ++ pretty level f.2 := by
  induction fs with
  | nil => rw [prettyFields, List.map_nil]
  | cons f fs ih =>
    obtain ⟨name, v⟩ := f
    rw [prettyFields, List.map_cons, ih]

/-- The blanks before a line, and those before the bracket after the last one. -/
def marginOf (level : Nat) : List Char := List.replicate (2 * level) ' '

theorem skipBlanks_marginOf (level : Nat) (cs : List Char) :
    skipBlanks (marginOf level ++ cs) = skipBlanks cs := by
  refine skipBlanks_append ?_ cs
  unfold marginOf
  generalize 2 * level = n
  induction n with
  | zero => rfl
  | succ n ih => exact ih

theorem skipBlanks_margin (level : Nat) : skipBlanks (marginOf level ++ [' ', ' ']) = [] :=
  skipBlanks_marginOf level [' ', ' ']

theorem skipBlanks_close (level : Nat) : skipBlanks ('\n' :: marginOf level) = [] := by
  have hblank := skipBlanks_marginOf level []
  rw [List.append_nil] at hblank
  exact hblank

theorem toList_bracket_nil (opening closing : String) (level : Nat) :
    (bracket opening closing level []).toList = opening.toList ++ closing.toList := by
  rw [bracket, String.toList_append]

theorem toList_bracket (opening closing : String) (level : Nat) {lines : List String}
    (hne : lines ≠ []) : (bracket opening closing level lines).toList = opening.toList ++ '\n' ::
      ([',', '\n'].intercalate
          ((lines.map String.toList).map ((marginOf level ++ [' ', ' ']) ++ ·)) ++
        ('\n' :: marginOf level ++ closing.toList)) := by
  have hlines : (lines.map fun l => String.ofList (marginOf level) ++ "  " ++ l).map String.toList =
      (lines.map String.toList).map ((marginOf level ++ [' ', ' ']) ++ ·) := by
    rw [List.map_map, List.map_map]
    refine List.map_congr_left fun l _ => ?_
    simp only [Function.comp_apply, String.toList_append, String.toList_ofList]
    rfl
  rw [bracket]
  · unfold marginOf at hlines
    simp only [String.toList_append, String.toList_intercalate, hlines, String.toList_ofList,
      List.append_assoc, marginOf]
    rfl
  · exact hne

theorem writes_array {depth level : Nat} {vs : List Json}
    (h : ∀ v ∈ vs, Writes (value depth) (pretty (level + 1) v).toList v) :
    Writes (value (depth + 1)) (pretty level (array vs)).toList (array vs) := by
  rw [pretty, prettyItems_eq]
  by_cases hvs : vs = []
  · rw [hvs, List.map_nil, toList_bracket_nil]
    exact ⟨fun _ _ => rfl, '[', _, rfl, rfl, by decide, by decide⟩
  · rw [toList_bracket "[" "]" level (by simpa using hvs)]
    refine ⟨fun rest _ => ?_, '[', _, rfl, rfl, by decide, by decide⟩
    rw [List.append_assoc, List.cons_append, List.append_assoc, List.append_assoc]
    exact value_array_lines ['\n'] _ rfl rfl (skipBlanks_margin level) (skipBlanks_close level)
      (forall₂_writes h) (by simpa using hvs) rest

theorem writes_object {depth level : Nat} {fs : List (String × Json)}
    (h : ∀ f ∈ fs, Writes (value depth) (pretty (level + 1) f.2).toList f.2) :
    Writes (value (depth + 1)) (pretty level (object fs)).toList (object fs) := by
  rw [pretty, prettyFields_eq]
  by_cases hfs : fs = []
  · rw [hfs, List.map_nil, toList_bracket_nil]
    exact ⟨fun _ _ => rfl, '\x7b', _, rfl, rfl, by decide, by decide⟩
  · rw [toList_bracket "\x7b" "\x7d" level (by simpa using hfs)]
    refine ⟨fun rest _ => ?_, '\x7b', _, rfl, rfl, by decide, by decide⟩
    rw [List.append_assoc, List.cons_append, List.append_assoc, List.append_assoc]
    exact value_object_lines ['\n'] _ rfl rfl (skipBlanks_margin level) (skipBlanks_close level)
      (forall₂_writesField h) (by simpa using hfs) rest

/-- Every value is read from what is written of it, at any level. -/
theorem writes_pretty {depth : Nat} {v : Json} (h : Nests depth v) (level : Nat) :
    Writes (value depth) (pretty level v).toList v := by
  induction depth generalizing v level with
  | zero =>
    cases v with
    | null => exact value_null 0
    | bool b => exact value_bool 0 b
    | int n => exact value_int 0 h
    | text s => exact value_text 0 s
    | _ => cases h
  | succ depth ih =>
    cases v with
    | null => exact value_null (depth + 1)
    | bool b => exact value_bool (depth + 1) b
    | int n => exact value_int (depth + 1) h
    | text s => exact value_text (depth + 1) s
    | array vs => exact writes_array fun v hv => ih (h v hv) (level + 1)
    | object fs => exact writes_object fun f hf => ih (h f hf) (level + 1)
    | _ => cases h

/-- What is written on indented lines is read as what it was. -/
theorem read?_pretty {v : Json} (h : Nests maxDepth v) : read? (v.pretty 0) = some v := by
  have hv := writes_pretty h 0
  have hopens := hv.opens.skipBlanks_append []
  have hreads := hv.reads [] ends_nil
  rw [List.append_nil] at hopens hreads
  rw [read?, hopens, hreads]
  rfl

end Json
end Tabulary
