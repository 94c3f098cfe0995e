import Tabulary.Operator.Cursor

/-!
What operators deliver as a whole.  A scan delivers its rows, a filter those of its child that pass,
and a join pairs each row of its left side with the agreeing rows of its right side.
-/

namespace Tabulary
namespace Cursor

variable {c c' : Cursor} {r : ResultRow} {rows inner : List ResultRow}

theorem drain_of_row (h : c.step = .row r c') : c.drain = c'.drain.map (r :: ·) := by
  rw [drain]
  split <;> simp_all

theorem drain_of_skip (h : c.step = .skip c') : c.drain = c'.drain := by
  rw [drain]
  split <;> simp_all

theorem drain_of_done (h : c.step = .done) : c.drain = .ok [] := by
  rw [drain]
  split <;> simp_all

theorem drain_of_failed {e : Fault} (h : c.step = .failed e c') : c.drain = .error e := by
  rw [drain]
  split <;> simp_all

theorem drain_scan (table : String) (qualify : Bool) (rows : List ResultRow) :
    (scan table qualify rows).drain = .ok rows := by
  induction rows with
  | nil => exact drain_of_done rfl
  | cons r rows ih =>
    have hstep : (scan table qualify (r :: rows)).step = .row r (scan table qualify rows) := rfl
    rw [drain_of_row hstep, ih]
    rfl

theorem drain_lookup (table : String) (id : Value) (row : Option ResultRow) :
    (lookup table id row).drain = .ok row.toList := by
  cases row with
  | none => exact drain_of_done rfl
  | some r =>
    have hstep : (lookup table id (some r)).step = .row r (lookup table id none) := rfl
    rw [drain_of_row hstep, drain_of_done rfl]
    rfl

/-- What is delivered first, and what then. -/
theorem drain_eq_ok_of_row (h : c.step = .row r c') (hd : c.drain = .ok rows) :
    ∃ rest, c'.drain = .ok rest ∧ rows = r :: rest := by
  rw [drain_of_row h] at hd
  cases hrest : c'.drain with
  | error e =>
    rw [hrest] at hd
    cases hd
  | ok rest =>
    rw [hrest] at hd
    cases hd
    exact ⟨rest, rfl, rfl⟩

theorem drain_filter {column : String} {value : Value} {keep : ResultRow → Bool}
    (hd : c.drain = .ok rows) (hk : ∀ r ∈ rows, matches? r column value = .ok (keep r)) :
    (filter c column value).drain = .ok (rows.filter keep) := by
  induction c using drain.induct generalizing rows with
  | case1 c r c' hstep ih =>
    obtain ⟨rest, hrest, rfl⟩ := drain_eq_ok_of_row hstep hd
    have hr := hk r List.mem_cons_self
    have htail := ih hrest fun x hx => hk x (List.mem_cons_of_mem r hx)
    cases hkeep : keep r with
    | true =>
      have hnext : (filter c column value).step = .row r (filter c' column value) := by
        simp only [step, hstep, hr, hkeep]
      rw [drain_of_row hnext, htail, List.filter_cons_of_pos hkeep]
      rfl
    | false =>
      have hnext : (filter c column value).step = .skip (filter c' column value) := by
        simp only [step, hstep, hr, hkeep]
      rw [drain_of_skip hnext, htail, List.filter_cons_of_neg (by simp [hkeep])]
  | case2 c c' hstep ih =>
    rw [drain_of_skip hstep] at hd
    have hnext : (filter c column value).step = .skip (filter c' column value) := by
      simp only [step, hstep]
    rw [drain_of_skip hnext]
    exact ih hd hk
  | case3 c hstep =>
    rw [drain_of_done hstep, Except.ok.injEq] at hd
    obtain rfl := hd
    exact drain_of_done (by simp only [step, hstep])
  | case4 c e c' hstep =>
    rw [drain_of_failed hstep] at hd
    cases hd

section join

variable {left right : Cursor} {lc rc : String} {own other : ResultRow → Value}
  {pending : List ResultRow}

/-- A row of the left side is paired with each agreeing row that waits, before the next is taken. -/
theorem drain_join_some (hl : r.get lc = .ok (own r))
    (hr : ∀ x ∈ pending, x.get rc = .ok (other x)) :
    (join left right lc rc inner (some r) pending).drain =
      (join left right lc rc inner none []).drain.map
        (((pending.filter fun x => (own r).typedEq (other x)).map r.append) ++ ·) := by
  induction pending with
  | nil =>
    have hnext : (join left right lc rc inner (some r) []).step =
        .skip (join left right lc rc inner none []) := by
      simp only [step, hl]
    rw [drain_of_skip hnext]
    cases (join left right lc rc inner none []).drain <;> rfl
  | cons x pending ih =>
    have hx := hr x List.mem_cons_self
    have htail := ih fun y hy => hr y (List.mem_cons_of_mem x hy)
    by_cases heq : (own r).typedEq (other x) = true
    · have hnext : (join left right lc rc inner (some r) (x :: pending)).step =
          .row (r.append x) (join left right lc rc inner (some r) pending) := by
        simp only [step, hl, hx, heq, if_true]
      have hkept : (x :: pending).filter (fun x => (own r).typedEq (other x)) =
          x :: pending.filter fun x => (own r).typedEq (other x) := List.filter_cons_of_pos heq
      rw [drain_of_row hnext, htail, hkept]
      cases (join left right lc rc inner none []).drain <;> rfl
    · have hnext : (join left right lc rc inner (some r) (x :: pending)).step =
          .skip (join left right lc rc inner (some r) pending) := by
        simp only [step, hl, hx, if_neg heq]
      have hkept : (x :: pending).filter (fun x => (own r).typedEq (other x)) =
          pending.filter fun x => (own r).typedEq (other x) := List.filter_cons_of_neg heq
      rw [drain_of_skip hnext, htail, hkept]

theorem drain_join (hd : left.drain = .ok rows) (hl : ∀ r ∈ rows, r.get lc = .ok (own r))
    (hr : ∀ x ∈ inner, x.get rc = .ok (other x)) :
    (join left right lc rc inner none pending).drain =
      .ok (rows.flatMap fun r => (inner.filter fun x => (own r).typedEq (other x)).map
        r.append) := by
  induction left using drain.induct generalizing rows pending with
  | case1 left r left' hstep ih =>
    obtain ⟨rest, hrest, rfl⟩ := drain_eq_ok_of_row hstep hd
    have hnext : (join left right lc rc inner none pending).step =
        .skip (join left' right lc rc inner (some r) inner) := by
      simp only [step, hstep]
    rw [drain_of_skip hnext, drain_join_some (hl r List.mem_cons_self) hr,
      ih hrest fun x hx => hl x (List.mem_cons_of_mem r hx)]
    rfl
  | case2 left left' hstep ih =>
    rw [drain_of_skip hstep] at hd
    have hnext : (join left right lc rc inner none pending).step =
        .skip (join left' right lc rc inner none []) := by
      simp only [step, hstep]
    rw [drain_of_skip hnext]
    exact ih hd hl
  | case3 left hstep =>
    rw [drain_of_done hstep, Except.ok.injEq] at hd
    obtain rfl := hd
    exact drain_of_done (by simp only [step, hstep])
  | case4 left e left' hstep =>
    rw [drain_of_failed hstep] at hd
    cases hd

end join

end Cursor
end Tabulary
