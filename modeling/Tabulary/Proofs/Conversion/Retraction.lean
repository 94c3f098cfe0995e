import Tabulary.Proofs.Conversion
import Tabulary.Proofs.Result.Text

/-!
Conversion as a retraction.  What a column makes of a literal is a value that the column accepts,
and what it accepts it leaves as it is; besides, the text that an accepted value is written as
converts back to the value (`convert_retraction`).
-/

namespace Tabulary

namespace Column

variable {c : Column} {literal v : Value} {n : Int}

theorem convert_int (hc : c.type = .integer) (hn : Value.inRange n = true) :
    c.convert (.int n) = .ok (.int n) := by
  unfold convert
  rw [hc]
  exact if_pos hn

theorem convert_text (hc : c.type = .text) (t : String) : c.convert (.text t) = .ok (.text t) := by
  unfold convert
  rw [hc]
  rfl

/-- An integer that storage can hold is read from its text, which is short. -/
theorem convert_decimal (hc : c.type = .integer) (hn : Value.inRange n = true) :
    c.convert (.text (Text.decimal n)) = .ok (.int n) := by
  have hfew : ((Nat.toDigits 10 n.natAbs).map Text.digitOf).length ≤ Text.maxDigits := by
    rw [List.length_map]
    exact Value.readable_of_inRange hn
  exact (convert_eq_ok_iff hc).mpr ⟨_, n, Text.denotes_decimal n, hfew, inRange_iff.mp hn, rfl⟩

theorem accepts_of_convert (h : c.convert literal = .ok v) : c.accepts v = true := by
  cases hc : c.type with
  | integer =>
    refine (accepts_integer_iff hc v).mpr ?_
    cases literal with
    | text t =>
      obtain ⟨ds, n, -, -, hrange, rfl⟩ := (convert_eq_ok_iff hc).mp h
      exact ⟨n, rfl, inRange_iff.mpr hrange⟩
    | int n =>
      unfold convert at h
      rw [hc] at h
      dsimp only at h
      by_cases hn : Value.inRange n = true
      · rw [if_pos hn] at h
        exact ⟨n, (Except.ok.inj h).symm, hn⟩
      · rw [if_neg hn] at h
        cases h
    | bool b | null =>
      unfold convert at h
      rw [hc] at h
      cases h
  | text =>
    refine (accepts_text_iff hc v).mpr ?_
    unfold convert at h
    rw [hc] at h
    cases literal with
    | int n =>
      dsimp only at h
      split at h
      · exact ⟨_, (Except.ok.inj h).symm⟩
      · cases h
    | text _ | null => exact ⟨_, (Except.ok.inj h).symm⟩
    | bool b => cases h

theorem convert_of_accepts (h : c.accepts v = true) : c.convert v = .ok v := by
  cases hc : c.type with
  | integer =>
    obtain ⟨n, rfl, hn⟩ := (accepts_integer_iff hc v).mp h
    exact convert_int hc hn
  | text =>
    obtain ⟨t, rfl⟩ := (accepts_text_iff hc v).mp h
    exact convert_text hc t

/-- The text that a stored value is written as is a literal for it. -/
theorem convert_plain_of_accepts (h : c.accepts v = true) : c.convert (.text v.plain) = .ok v := by
  cases hc : c.type with
  | integer =>
    obtain ⟨n, rfl, hn⟩ := (accepts_integer_iff hc v).mp h
    exact convert_decimal hc hn
  | text =>
    obtain ⟨t, rfl⟩ := (accepts_text_iff hc v).mp h
    exact convert_text hc t

/-- Whatever a column makes of a literal, it accepts, and makes the same of it again; what it
accepts, it makes nothing else of; an integer column finds each integer of 64 bits in its decimal
text, and so any column finds each value that it accepts in the text that the value is written
as. -/
theorem convert_retraction (c : Column) :
    (∀ literal v, c.convert literal = .ok v → c.accepts v = true ∧ c.convert v = .ok v) ∧
      (∀ v, c.accepts v = true → c.convert v = .ok v) ∧
      (c.type = .integer → ∀ n, Value.minInt ≤ n ∧ n ≤ Value.maxInt →
        c.convert (.text (Text.decimal n)) = .ok (.int n)) ∧
      ∀ v, c.accepts v = true → c.convert (.text v.plain) = .ok v := by
  refine ⟨fun literal v h => ?_, fun v h => convert_of_accepts h,
    fun hc n hn => convert_decimal hc (inRange_iff.mpr hn), fun v h => convert_plain_of_accepts h⟩
  have haccepts := accepts_of_convert h
  exact ⟨haccepts, convert_of_accepts haccepts⟩

/-- A negative zero among blanks, the least integer, an integer as a text, and a text of blanks and
digits. -/
theorem convert_retraction_samples :
    let age : Column := ⟨"age", .integer, false, false⟩
    let name : Column := ⟨"name", .text, false, false⟩
    (age.convert (.text "\t-00 ") = .ok (.int 0) ∧ age.accepts (.int 0) = true ∧
      age.convert (.int 0) = .ok (.int 0)) ∧
    (age.type = .integer ∧ (Value.minInt ≤ Value.minInt ∧ Value.minInt ≤ Value.maxInt) ∧
      Text.decimal Value.minInt = "-9223372036854775808" ∧
      age.convert (.text (Text.decimal Value.minInt)) = .ok (.int Value.minInt)) ∧
    (name.convert (.int 7) = .ok (.text "7") ∧ name.accepts (.text "7") = true ∧
      name.convert (.text "7") = .ok (.text "7")) ∧
    name.accepts (.text " 12 ") = true ∧ name.convert (.text " 12 ") = .ok (.text " 12 ") ∧
      name.convert (.text (Value.text " 12 ").plain) = .ok (.text " 12 ") := by
  intro age name
  obtain ⟨hage, -, hdecimal, -⟩ := convert_retraction age
  obtain ⟨hname, hkept, -, hplain⟩ := convert_retraction name
  have hzero : age.convert (.text "\t-00 ") = .ok (.int 0) := by decide
  have hseven : name.convert (.int 7) = .ok (.text "7") := by decide
  have hbounds : Value.minInt ≤ Value.minInt ∧ Value.minInt ≤ Value.maxInt := by decide
  exact ⟨⟨hzero, hage _ _ hzero⟩, ⟨rfl, hbounds, by decide, hdecimal rfl _ hbounds⟩,
    ⟨hseven, hname _ _ hseven⟩, rfl, hkept _ rfl, hplain _ rfl⟩

end Column
end Tabulary
