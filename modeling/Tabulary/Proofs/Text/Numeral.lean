import Mathlib.Data.List.DropRight
import Mathlib.Data.Nat.Digits.Defs
import Tabulary.Proofs.Text.Decimal

/-!
Texts that are written as integers: blanks, a sign or none, one or more decimal digits of any
script, blanks.  Main statement: reading finds the digits and the value of exactly these texts
(`denotes_iff`).  What an integer is written as is such a text (`denotes_decimal`).
-/

namespace Tabulary
namespace Text

/-- What may stand before the digits of an integer, and whether it makes the integer negative. -/
inductive Signed : List Char → Bool → Prop
  | bare : Signed [] false
  | plus : Signed ['+'] false
  | minus : Signed ['-'] true

/-- The text is an integer with these digits, the one that counts most first. -/
def Denotes (t : String) (ds : List Nat) (n : Int) : Prop :=
  ∃ front sign digits back negative, t.toList = front ++ (sign ++ digits) ++ back ∧
    (∀ c ∈ front, isBlank c = true) ∧ (∀ c ∈ back, isBlank c = true) ∧
    Signed sign negative ∧ digits ≠ [] ∧ digits.map digitValue? = ds.map some ∧
    n = (if negative then -1 else 1) * ((Nat.ofDigits 10 ds.reverse : Nat) : Int)

theorem ofDigits_eq (ds : List Nat) : ofDigits ds = Nat.ofDigits 10 ds.reverse := by
  induction ds using List.reverseRecOn with
  | nil => rfl
  | append_singleton ds d ih =>
    rw [ofDigits] at ih ⊢
    rw [List.foldl_append, ih, List.reverse_append, List.reverse_singleton, List.singleton_append,
      Nat.ofDigits_cons, Nat.add_comm]
    rfl

theorem Numeral.value_eq (m : Numeral) :
    m.value = (if m.negative then -1 else 1) *
    ((Nat.ofDigits 10 m.digits.reverse : Nat) : Int) := by
  rw [value, ofDigits_eq]
  split <;> omega

/-! ## Blanks -/

theorem exists_strip (p : Char → Bool) (cs : List Char) : ∃ front back,
    cs = front ++ stripChars p cs ++ back ∧ (∀ c ∈ front, p c = true) ∧ ∀ c ∈ back,
    p c = true := by
  have hback : cs.dropWhile p = stripChars p cs ++
      ((cs.dropWhile p).reverse.takeWhile p).reverse := by
    rw [stripChars, ← List.reverse_append, List.takeWhile_append_dropWhile, List.reverse_reverse]
  refine ⟨cs.takeWhile p, ((cs.dropWhile p).reverse.takeWhile p).reverse, ?_,
    fun c => List.mem_takeWhile_imp, fun c hc => List.mem_takeWhile_imp (List.mem_reverse.mp hc)⟩
  rw [List.append_assoc, ← hback, List.takeWhile_append_dropWhile]

/-- What is between blanks is left, if neither its first character nor its last is a blank. -/
theorem strip_append {p : Char → Bool} {front cs back : List Char}
    (hfront : ∀ c ∈ front, p c = true)
    (hback : ∀ c ∈ back, p c = true) (hcs : ∀ c ∈ cs, p c = false) (hne : cs ≠ []) :
    stripChars p (front ++ cs ++ back) = cs := by
  have hdrop {l m : List Char} (hl : ∀ c ∈ l, p c = false) (hne : l ≠ []) :
      (l ++ m).dropWhile p = l ++ m := by
    obtain ⟨c, l, rfl⟩ := List.exists_cons_of_ne_nil hne
    exact List.dropWhile_cons_of_neg (by simp [hl c List.mem_cons_self])
  rw [stripChars, List.append_assoc, List.dropWhile_append_of_pos hfront, hdrop hcs hne,
    List.reverse_append, List.dropWhile_append_of_pos fun c hc => hback c (List.mem_reverse.mp hc)]
  have hreverse := hdrop (l := cs.reverse) (m := []) (fun c hc => hcs c (List.mem_reverse.mp hc))
    (by simpa using hne)
  rw [List.append_nil] at hreverse
  rw [hreverse, List.reverse_reverse]

/-- The numbers of the blank characters. -/
def blankAt (n : Nat) : Bool :=
  (0x09 ≤ n && n ≤ 0x0D) || (0x1C ≤ n && n ≤ 0x20) || n == 0x85 || n == 0xA0 ||
    n == 0x1680 || (0x2000 ≤ n && n ≤ 0x200A) || n == 0x2028 || n == 0x2029 ||
    n == 0x202F || n == 0x205F || n == 0x3000

/-- No run of digits holds a blank. -/
theorem not_blankAt_run : ∀ z ∈ digitZeros, ∀ i < 10, blankAt (z + i) = false := by decide

theorem isBlank_of_digit {c : Char} {d : Nat} (h : digitValue? c = some d) : isBlank c = false := by
  show blankAt c.toNat = false
  unfold digitValue? at h
  split at h
  · split at h
    · rename_i hdigit
      rw [← Nat.add_sub_cancel' hdigit.1]
      exact not_blankAt_run 0x30 (by decide) _ (by omega)
    · cases h
  · obtain ⟨z, hfind, -⟩ := Option.map_eq_some_iff.mp h
    have hrun : z ≤ c.toNat ∧ c.toNat < z + 10 := by simpa using List.find?_some hfind
    rw [← Nat.add_sub_cancel' hrun.1]
    exact not_blankAt_run z (List.mem_of_find?_eq_some hfind) _ (by omega)

/-! ## Signs and digits -/

namespace Numeral

theorem mapM_eq_some {cs : List Char} {ds : List Nat} :
    cs.mapM digitValue? = some ds ↔ cs.map digitValue? = ds.map some := by
  induction cs generalizing ds with
  | nil => cases ds <;> simp
  | cons c cs ih =>
    rw [List.mapM_cons]
    cases ds with
    | nil => cases digitValue? c <;> cases cs.mapM digitValue? <;> simp
    | cons d ds =>
      rw [List.map_cons, List.map_cons, List.cons.injEq, ← ih]
      cases digitValue? c <;> cases cs.mapM digitValue? <;> simp

theorem digits?_eq_some {cs : List Char} {ds : List Nat} :
    digits? cs = some ds ↔ cs ≠ [] ∧ cs.map digitValue? = ds.map some := by
  cases cs with
  | nil => simp [digits?]
  | cons c cs =>
    rw [digits?, mapM_eq_some]
    simp

/-- Reading takes a sign, if there is one, and finds digits behind it. -/
theorem read?_eq_some {cs : List Char} {m : Numeral} : read? cs = some m ↔
    ∃ sign digits, cs = sign ++ digits ∧ Signed sign m.negative ∧
    digits? digits = some m.digits := by
  have hsign (c : Char) (hc : digitValue? c = none) (digits : List Char) (ds : List Nat) :
      digits? (c :: digits) ≠ some ds := by
    rw [ne_eq, digits?_eq_some, List.map_cons, hc]
    cases ds <;> simp
  obtain ⟨negative, ds⟩ := m
  constructor
  · intro h
    unfold read? at h
    split at h <;> obtain ⟨_, hdigits, heq⟩ := Option.map_eq_some_iff.mp h <;> cases heq
    · exact ⟨['-'], _, rfl, .minus, hdigits⟩
    · exact ⟨['+'], _, rfl, .plus, hdigits⟩
    · exact ⟨[], _, rfl, .bare, hdigits⟩
  · rintro ⟨sign, digits, rfl, hsigned, hdigits⟩
    cases hsigned with
    | bare =>
      rw [List.nil_append]
      unfold read?
      split
      · exact absurd hdigits (hsign '-' (by decide) _ _)
      · exact absurd hdigits (hsign '+' (by decide) _ _)
      · rw [hdigits]
        rfl
    | plus =>
      show (digits? digits).map _ = _
      rw [hdigits]
      rfl
    | minus =>
      show (digits? digits).map _ = _
      rw [hdigits]
      rfl

end Numeral

theorem not_blank_of_signed {sign : List Char} {negative : Bool} (h : Signed sign negative) :
    ∀ c ∈ sign, isBlank c = false := by
  intro c hc
  cases h with
  | bare => cases hc
  | plus | minus =>
    rw [List.mem_singleton.mp hc]
    decide

/-- A text denotes an integer just if one is read from it without the blanks at its ends. -/
theorem denotes_iff {t : String} {ds : List Nat} {n : Int} :
    Denotes t ds n ↔ ∃ m, Numeral.read? (trim t).toList = some m ∧ m.digits = ds ∧
    m.value = n := by
  rw [trim, String.toList_ofList]
  constructor
  · rintro ⟨front, sign, digits, back, negative, ht, hfront, hback, hsigned, hne, hdigits, rfl⟩
    have hplain : ∀ c ∈ sign ++ digits, isBlank c = false := by
      intro c hc
      rcases List.mem_append.mp hc with hc | hc
      · exact not_blank_of_signed hsigned c hc
      · have hvalue : digitValue? c ∈ ds.map some := hdigits ▸ List.mem_map_of_mem hc
        obtain ⟨d, -, hd⟩ := List.mem_map.mp hvalue
        exact isBlank_of_digit hd.symm
    rw [ht, strip_append hfront hback hplain (by simp [hne])]
    exact ⟨⟨negative, ds⟩, Numeral.read?_eq_some.mpr ⟨sign, digits, rfl, hsigned,
      Numeral.digits?_eq_some.mpr ⟨hne, hdigits⟩⟩, rfl, Numeral.value_eq _⟩
  · rintro ⟨m, hread, rfl, rfl⟩
    obtain ⟨sign, digits, hstrip, hsigned, hdigits⟩ := Numeral.read?_eq_some.mp hread
    obtain ⟨front, back, ht, hfront, hback⟩ := exists_strip isBlank t.toList
    obtain ⟨hne, hdigits⟩ := Numeral.digits?_eq_some.mp hdigits
    rw [hstrip] at ht
    exact ⟨front, sign, digits, back, m.negative, ht, hfront, hback, hsigned, hne, hdigits,
      m.value_eq⟩

/-! ## Integers as they are written -/

theorem digitValue?_of_mem {n : Nat} {c : Char} (h : c ∈ Nat.toDigits 10 n) :
    digitValue? c = some (digitOf c) := by
  have hdigit := plain_of_mem_toDigits h
  have hascii : c.toNat < 0x80 := by omega
  rw [digitValue?, if_pos hascii, if_pos hdigit]
  rfl

/-- The text that an integer is written as denotes it, by its plain digits. -/
theorem denotes_decimal (n : Int) :
    Denotes (decimal n) ((Nat.toDigits 10 n.natAbs).map digitOf) n := by
  have hvalues : (Nat.toDigits 10 n.natAbs).map digitValue? =
      ((Nat.toDigits 10 n.natAbs).map digitOf).map some := by
    rw [List.map_map]
    exact List.map_congr_left fun c hc => digitValue?_of_mem hc
  have hsize : Nat.ofDigits 10 ((Nat.toDigits 10 n.natAbs).map digitOf).reverse = n.natAbs := by
    rw [← ofDigits_eq, ofDigits_toDigits]
  have htext : (decimal n).toList =
      [] ++ ((if 0 ≤ n then [] else ['-']) ++ Nat.toDigits 10 n.natAbs) ++ [] := by
    rw [toList_decimal, List.nil_append, List.append_nil]
  by_cases hn : 0 ≤ n
  · rw [if_pos hn] at htext
    refine ⟨_, _, _, _, false, htext, nofun, nofun, .bare, Nat.toDigits_ne_nil, hvalues, ?_⟩
    rw [hsize, if_neg Bool.false_ne_true]
    omega
  · rw [if_neg hn] at htext
    refine ⟨_, _, _, _, true, htext, nofun, nofun, .minus, Nat.toDigits_ne_nil, hvalues, ?_⟩
    rw [hsize, if_pos rfl]
    omega

end Text
end Tabulary
