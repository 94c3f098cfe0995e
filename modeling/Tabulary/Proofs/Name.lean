import Mathlib.Data.List.Infix
import Tabulary.Name

/-!
Names that have been sanitized.  Slashes and backslashes are gone, and so are the pairs of dots that
the name had, but dots with nothing else between them than slashes and backslashes come together.
Main statement: this is the only way in which a pair of dots can be left, and sanitizing once more
takes it away (`sanitize_settles`).
-/

namespace Tabulary
namespace Name

/-- Two dots stand next to each other. -/
def HasDotPair (cs : List Char) : Prop := ['.', '.'] <:+: cs

/-- Two dots stand with slashes or backslashes between them, or with nothing. -/
def HasPartedDots (cs : List Char) : Prop :=
  ∃ a between b, cs = a ++ '.' :: (between ++ '.' :: b) ∧ ∀ c ∈ between,
    c = '/' ∨ c = '\\'

variable {cs : List Char} {c : Char}

theorem not_hasDotPair_nil : ¬HasDotPair [] := by
  unfold HasDotPair
  simp

theorem hasDotPair_cons : HasDotPair (c :: cs) ↔ c = '.' ∧ cs.head? = some '.' ∨
    HasDotPair cs := by
  unfold HasDotPair
  rw [List.infix_cons_iff, List.cons_prefix_cons]
  cases cs with
  | nil => simp
  | cons d ds => simp [List.cons_prefix_cons, eq_comm]

/-! ## Pairs of dots -/

theorem head?_of_head?_dropDotPairs (h : (dropDotPairs cs).head? = some '.') :
    cs.head? = some '.' := by
  fun_cases dropDotPairs cs with
  | case1 rest => rfl
  | case2 c rest hne =>
    rw [dropDotPairs] at h
    · exact h
    · exact hne
  | case3 => exact h

/-- Where a dot is kept, no dot comes after it. -/
theorem not_hasDotPair_dropDotPairs (cs : List Char) : ¬HasDotPair (dropDotPairs cs) := by
  fun_induction dropDotPairs cs with
  | case1 rest ih => exact ih
  | case2 c rest hne ih =>
    rw [hasDotPair_cons, not_or]
    refine ⟨?_, ih⟩
    rintro ⟨rfl, hhead⟩
    obtain ⟨tail, htail⟩ := List.head?_eq_some_iff.mp (head?_of_head?_dropDotPairs hhead)
    exact hne tail rfl htail
  | case3 => exact not_hasDotPair_nil

theorem dropDotPairs_of_not_hasDotPair (h : ¬HasDotPair cs) : dropDotPairs cs = cs := by
  fun_induction dropDotPairs cs with
  | case1 rest ih => exact absurd (hasDotPair_cons.mpr (.inl ⟨rfl, rfl⟩)) h
  | case2 c rest hne ih => rw [ih fun hrest => h (hasDotPair_cons.mpr (.inr hrest))]
  | case3 => rfl

theorem mem_of_mem_dropDotPairs (h : c ∈ dropDotPairs cs) : c ∈ cs := by
  fun_induction dropDotPairs cs with
  | case1 rest ih => exact List.mem_cons_of_mem _ (List.mem_cons_of_mem _ (ih h))
  | case2 a rest hne ih => exact List.mem_cons.mpr ((List.mem_cons.mp h).imp_right ih)
  | case3 => exact h

/-! ## Slashes -/

/-- Neither a slash nor a backslash. -/
def isPlain (c : Char) : Bool := c != '/' && c != '\\'

theorem toList_sanitize (name : String) :
    (sanitize name).toList = (dropDotPairs name.toList).filter isPlain := by
  rw [sanitize, String.toList_ofList, List.filter_filter]
  refine List.filter_congr fun c _ => ?_
  simp only [isPlain, bne, decide_not, beq_eq_decide, Bool.and_comm]

theorem isPlain_of_mem_sanitize {name : String} (h : c ∈ (sanitize name).toList) :
    isPlain c = true := by
  rw [toList_sanitize] at h
  exact (List.mem_filter.mp h).2

theorem slash_not_mem_sanitize (name : String) : '/' ∉ (sanitize name).toList := fun h =>
  absurd (isPlain_of_mem_sanitize h) (by decide)

theorem backslash_not_mem_sanitize (name : String) : '\\' ∉ (sanitize name).toList := fun h =>
  absurd (isPlain_of_mem_sanitize h) (by decide)

theorem isPlain_eq_false_iff : isPlain c = false ↔ c = '/' ∨ c = '\\' := by
  simp only [isPlain, Bool.and_eq_false_iff, bne_eq_false_iff_eq]

/-- Dots come together where what was between them is taken away. -/
theorem hasDotPair_filter_isPlain : HasDotPair (cs.filter isPlain) ↔ HasPartedDots cs := by
  constructor
  · rintro ⟨front, back, heq⟩
    rw [List.append_assoc, eq_comm, List.filter_eq_append_iff] at heq
    obtain ⟨a, rest, rfl, -, hrest⟩ := heq
    obtain ⟨before, rest, rfl, -, -, hrest⟩ := List.filter_eq_cons_iff.mp hrest
    obtain ⟨between, b, rfl, hbetween, -, -⟩ := List.filter_eq_cons_iff.mp hrest
    refine ⟨a ++ before, between, b, (List.append_assoc _ _ _).symm, fun c hc => ?_⟩
    exact isPlain_eq_false_iff.mp (Bool.eq_false_iff.mpr (hbetween c hc))
  · rintro ⟨a, between, b, rfl, hbetween⟩
    have hnone : between.filter isPlain = [] := List.filter_eq_nil_iff.mpr fun c hc =>
      Bool.eq_false_iff.mp (isPlain_eq_false_iff.mpr (hbetween c hc))
    refine ⟨a.filter isPlain, b.filter isPlain, ?_⟩
    simp only [List.filter_append, List.filter_cons, hnone, List.append_assoc]
    rfl

/-! ## Sanitizing again -/

theorem hasDotPair_sanitize {name : String} :
    HasDotPair (sanitize name).toList ↔ HasPartedDots (dropDotPairs name.toList) := by
  rw [toList_sanitize, hasDotPair_filter_isPlain]

theorem toList_sanitize_of_isPlain {name : String} (h : ∀ c ∈ name.toList, isPlain c = true) :
    (sanitize name).toList = dropDotPairs name.toList := by
  rw [toList_sanitize]
  exact List.filter_eq_self.mpr fun c hc => h c (mem_of_mem_dropDotPairs hc)

/-- A name stays as it is just if there is nothing in it to be taken away. -/
theorem sanitize_eq_self_iff {name : String} :
    sanitize name = name ↔ ¬HasDotPair name.toList ∧ ∀ c ∈ name.toList,
    isPlain c = true := by
  constructor
  · intro heq
    have hplain : ∀ c ∈ name.toList, isPlain c = true := by
      rw [← heq]
      exact fun c hc => isPlain_of_mem_sanitize hc
    refine ⟨?_, hplain⟩
    rw [← heq, toList_sanitize_of_isPlain hplain]
    exact not_hasDotPair_dropDotPairs _
  · rintro ⟨hpair, hplain⟩
    rw [← String.toList_inj, toList_sanitize_of_isPlain hplain,
      dropDotPairs_of_not_hasDotPair hpair]

/-- What has been sanitized stays as it is just if no pair of dots is left. -/
theorem sanitize_sanitize_eq_iff {name : String} :
    sanitize (sanitize name) = sanitize name ↔ ¬HasDotPair (sanitize name).toList := by
  rw [sanitize_eq_self_iff]
  exact and_iff_left fun c hc => isPlain_of_mem_sanitize hc

/-- After the second time there is no pair of dots. -/
theorem not_hasDotPair_sanitize_sanitize (name : String) :
    ¬HasDotPair (sanitize (sanitize name)).toList := by
  rw [toList_sanitize_of_isPlain fun c hc => isPlain_of_mem_sanitize hc]
  exact not_hasDotPair_dropDotPairs _

/-- A sanitized name has neither slashes nor backslashes.  A pair of dots is left in it just where,
after the pairs in the name are gone, two dots have only slashes and backslashes between them; in
any other name nothing is left to be taken away.  Sanitized twice, no name changes again. -/
theorem sanitize_settles (name : String) :
    '/' ∉ (sanitize name).toList ∧ '\\' ∉ (sanitize name).toList ∧
      (HasDotPair (sanitize name).toList ↔ HasPartedDots (dropDotPairs name.toList)) ∧
      (sanitize (sanitize name) = sanitize name ↔ ¬HasPartedDots (dropDotPairs name.toList)) ∧
      ¬HasDotPair (sanitize (sanitize name)).toList ∧
      sanitize (sanitize (sanitize name)) = sanitize (sanitize name) := by
  refine ⟨slash_not_mem_sanitize name, backslash_not_mem_sanitize name,
    hasDotPair_sanitize, ?_, ?_, ?_⟩
  · rw [sanitize_sanitize_eq_iff, hasDotPair_sanitize]
  · exact not_hasDotPair_sanitize_sanitize name
  · exact sanitize_sanitize_eq_iff.mpr (not_hasDotPair_sanitize_sanitize name)

/-- Without its slash this name is a pair of dots, and sanitized again nothing. -/
theorem sanitize_joins_dots :
    sanitize "./." = ".." ∧ HasDotPair (sanitize "./.").toList ∧
    sanitize (sanitize "./.") ≠ sanitize "./." ∧
    ¬∀ name, ('/' ∉ (sanitize name).toList ∧ '\\' ∉ (sanitize name).toList ∧
      ¬HasDotPair (sanitize name).toList) ∧ sanitize (sanitize name) = sanitize name := by
  have hleft : sanitize "./." = ".." := by decide
  have hagain : sanitize ".." = "" := by decide
  have hne : sanitize (sanitize "./.") ≠ sanitize "./." := by
    rw [hleft, hagain]
    decide
  have hpair : HasDotPair (sanitize "./.").toList := by
    rw [hleft]
    exact List.infix_refl _
  exact ⟨hleft, hpair, hne, fun h => hne (h "./.").2⟩

end Name
end Tabulary
