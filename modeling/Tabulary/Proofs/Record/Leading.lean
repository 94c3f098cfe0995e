import Tabulary.Proofs.Record.Cut

/-!
The complete records at the front of any bytes.  Reading finds all of them and no more, and what it
says of the bytes behind them is that they are none, the beginning of one more record, or a record
that is damaged.
-/

namespace Tabulary
namespace Record

/-- The bytes begin with exactly these records: they lie one after another from the start, and no
further record follows them whole. -/
structure Leads (s : Schema) (bytes kept : List UInt8) (records : List Stored) : Prop where
  laid : Laid s 0 records kept
  front : kept <+: bytes
  last : ∀ r own, Image s r own → ¬own <+: bytes.drop kept.length

/-- Behind the complete records stands one with a flag that no record has, or with a text that is
none. -/
def Damaged (s : Schema) (bytes : List UInt8) (e : RecordError) : Prop :=
  ∃ kept records, Leads s bytes kept records ∧
    ((Decoder.record s).run ⟨kept.length, bytes.drop kept.length⟩).1 = .error e ∧
    ((∃ flag, 1 < flag ∧ flag < 256 ∧ e = .unknownFlag flag kept.length) ∨
      ∃ c ∈ s.dataColumns, c.type = .text ∧ e = .notUtf8 c.name kept.length)

variable {s : Schema} {bytes front rest : List UInt8} {records : List Stored}

/-- Where a reading ends with some records, nothing is read from behind them. -/
theorem Laid.scan_behind (h : Laid s 0 records front)
    (hall : (Record.scan s none ⟨0, front ++ rest⟩).records = records) :
    (Record.scan s none ⟨front.length, rest⟩).records = [] ∧
      (Record.scan s none ⟨0, front ++ rest⟩).failure =
        (Record.scan s none ⟨front.length, rest⟩).failure := by
  have happend := h.scan_append none (fun n hn => nomatch hn) rest
  rw [Nat.zero_add] at happend
  rw [happend] at hall ⊢
  exact ⟨List.append_right_eq_self.mp hall, rfl⟩

theorem no_image_of_scan {start : Nat} (h : (scan s none ⟨start, rest⟩).records = []) {r : Row}
    {own : List UInt8} (image : Image s r own) : ¬own <+: rest := by
  intro hp
  obtain ⟨more, rfl⟩ := hp
  rw [scan_of_some (by simp) (image.run_record start more)] at h
  cases h

theorem run_record_of_scan {start : Nat} {e : RecordError}
    (h : (scan s none ⟨start, rest⟩).records = [])
    (hfail : (scan s none ⟨start, rest⟩).failure = some e) :
    ((Decoder.record s).run ⟨start, rest⟩).1 = .error e := by
  have hgo : ¬(none : Option Nat).any (· ≤ start) = true := by simp
  cases hrun : (Decoder.record s).run ⟨start, rest⟩ with
  | mk result c =>
    match result with
    | .error e' =>
      rw [scan_of_error hgo hrun] at hfail
      cases hfail
      rfl
    | .ok none =>
      rw [scan_of_none hgo hrun] at hfail
      cases hfail
    | .ok (some x) =>
      rw [scan_of_some hgo hrun] at h
      cases h

/-- Reading any bytes gives the complete records at their front, and where it meets damage, the
damage stands behind them. -/
theorem leads_scan (s : Schema) (bytes : List UInt8) :
    (∃ kept, Leads s bytes kept (scan s none ⟨0, bytes⟩).records) ∧
      ∀ e, (scan s none ⟨0, bytes⟩).corruption = some e → Damaged s bytes e := by
  obtain ⟨front, rest, rfl, hlaid, hend⟩ := laid_scan s 0 bytes
  obtain ⟨hnone, hfailure⟩ := hlaid.scan_behind rfl
  have hdrop : (front ++ rest).drop front.length = rest := List.drop_left
  have hleads : Leads s (front ++ rest) front (scan s none ⟨0, front ++ rest⟩).records := by
    refine ⟨hlaid, List.prefix_append front rest, fun r own image => ?_⟩
    rw [hdrop]
    exact no_image_of_scan hnone image
  refine ⟨⟨front, hleads⟩, fun e hbad => ?_⟩
  obtain ⟨hfail, hkind⟩ := Option.filter_eq_some_iff.mp hbad
  have hrun := run_record_of_scan hnone (hfailure ▸ hfail)
  rw [hfail, Nat.zero_add] at hend
  obtain ⟨-, harises⟩ := hend
  refine ⟨front, _, hleads, hdrop.symm ▸ hrun, ?_⟩
  cases e with
  | truncated expected found => cases hkind
  | nothing => cases hkind
  | unknownFlag flag offset =>
    obtain ⟨rfl, hflag, hlt⟩ := harises
    exact Or.inl ⟨flag, hflag, hlt, rfl⟩
  | notUtf8 column offset =>
    obtain ⟨rfl, c, hc, rfl, htext⟩ := harises
    exact Or.inr ⟨c, hc, htext, rfl⟩

end Record
end Tabulary
