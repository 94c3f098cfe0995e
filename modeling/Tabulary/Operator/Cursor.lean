import Tabulary.Operator.Plan
import Tabulary.Result.Row
import Tabulary.Store.Tables

/-!
Running plans.  Opening an operator reads the tables it needs; rows are then taken one at a time,
and later changes to the tables do not show.  A join reads its right side when it is opened and
pairs each row of its left side with the rows of the right side in order.
-/

namespace Tabulary

/-- An operator, and what it has yet to deliver. -/
inductive Cursor where
  | scan (table : String) (qualify : Bool) (pending : List ResultRow)
  | lookup (table : String) (id : Value) (pending : Option ResultRow)
  | filter (child : Cursor) (column : String) (value : Value)
  /-- While `outer` is set it is to be paired with the rows of `waiting`. -/
  | join (left right : Cursor) (leftColumn rightColumn : String) (inner : List ResultRow)
      (outer : Option ResultRow) (waiting : List ResultRow)
deriving DecidableEq, Repr

namespace Cursor

def ofPlan : Plan → Cursor
  | .scan table qualify => scan table qualify []
  | .lookup table id => lookup table id none
  | .filter child column value => filter (ofPlan child) column value
  | .join left right leftColumn rightColumn =>
    join (ofPlan left) (ofPlan right) leftColumn rightColumn [] none []

def close : Cursor → Cursor
  | scan table qualify _ => scan table qualify []
  | lookup table id _ => lookup table id none
  | filter child column value => filter child.close column value
  | join left right leftColumn rightColumn _ _ _ =>
    join left.close right leftColumn rightColumn [] none []

inductive Progress where
  | row (r : ResultRow) (next : Cursor)
  | skip (next : Cursor)
  | done
  | failed (e : Fault) (next : Cursor)

/-- Whether a row passes a filter: a column that is not there counts as holding `null`. -/
def matches? (r : ResultRow) (column : String) (value : Value) : Except Fault Bool := do
  return (← r.getOr column .null).typedEq value

/-- One step: at most one row is taken from below. -/
def step : Cursor → Progress
  | scan _ _ [] => .done
  | scan table qualify (r :: rest) => .row r (scan table qualify rest)
  | lookup _ _ none => .done
  | lookup table id (some r) => .row r (lookup table id none)
  | filter child column value =>
    match step child with
    | .done => .done
    | .skip child' => .skip (filter child' column value)
    | .failed e child' => .failed e (filter child' column value)
    | .row r child' =>
      match matches? r column value with
      | .error e => .failed e (filter child' column value)
      | .ok true => .row r (filter child' column value)
      | .ok false => .skip (filter child' column value)
  | join left right lc rc inner none _ =>
    match step left with
    | .done => .done
    | .skip left' => .skip (join left' right lc rc inner none [])
    | .failed e left' => .failed e (join left' right lc rc inner none [])
    | .row r left' => .skip (join left' right lc rc inner (some r) inner)
  | join left right lc rc inner (some outer) waiting =>
    match outer.get lc with
    | .error e => .failed e (join left right lc rc inner (some outer) waiting)
    | .ok key =>
      match waiting with
      | [] => .skip (join left right lc rc inner none [])
      | w :: rest =>
        match w.get rc with
        | .error e => .failed e (join left right lc rc inner (some outer) rest)
        | .ok v =>
          if key.typedEq v then .row (outer.append w)
            (join left right lc rc inner (some outer) rest)
          else .skip (join left right lc rc inner (some outer) rest)

/-- A bound on the steps that an operator can still take. -/
def weight : Cursor → Nat
  | scan _ _ pending => pending.length
  | lookup _ _ pending => if pending.isSome then 1 else 0
  | filter child _ _ => child.weight
  | join left _ _ _ inner outer waiting =>
    left.weight * (inner.length + 2) + match outer with
      | none => 0
      | some _ => waiting.length + 1

/-- A step that delivers a row or skips one makes progress. -/
theorem weight_step (c : Cursor) :
    (∀ r c', c.step = .row r c' → c'.weight < c.weight) ∧
      (∀ c', c.step = .skip c' → c'.weight < c.weight) := by
  induction c with
  | scan table qualify pending => cases pending <;> simp [step, weight]
  | lookup table id pending => cases pending <;> simp [step, weight]
  | filter child column value ih =>
    constructor
    · intro r c' h
      simp only [step] at h
      split at h <;> try cases h
      split at h <;> cases h
      simp only [weight]
      exact ih.1 _ _ (by assumption)
    · intro c' h
      simp only [step] at h
      split at h <;> try cases h
      · simp only [weight]
        exact ih.2 _ (by assumption)
      · split at h <;> cases h
        simp only [weight]
        exact ih.1 _ _ (by assumption)
  | join left right lc rc inner outer waiting ihl ihr =>
    cases outer with
    | none =>
      constructor
      · intro r c' h
        simp only [step] at h
        split at h <;> cases h
      · intro c' h
        simp only [step] at h
        split at h <;> cases h
        · have := ihl.2 _ (by assumption)
          simpa only [weight, Nat.add_zero] using
            Nat.mul_lt_mul_of_pos_right this (by omega)
        · have := ihl.1 _ _ (by assumption)
          simp only [weight, Nat.add_zero]
          calc _ < (_ + 1) * (inner.length + 2) := by rw [Nat.add_mul]; omega
            _ ≤ _ := Nat.mul_le_mul_right _ this
    | some outer =>
      constructor
      · intro r c' h
        simp only [step] at h
        split at h <;> try cases h
        split at h <;> try cases h
        split at h <;> try cases h
        split at h <;> cases h
        simp only [weight, List.length_cons]
        omega
      · intro c' h
        simp only [step] at h
        split at h <;> try cases h
        split at h
        · cases h
          simp only [weight]
          omega
        · split at h <;> try cases h
          split at h <;> cases h
          simp only [weight, List.length_cons]
          omega

def next (c : Cursor) : Except Fault (Option ResultRow) × Cursor :=
  match _h : c.step with
  | .row r c' => (.ok (some r), c')
  | .skip c' => next c'
  | .done => (.ok none, c)
  | .failed e c' => (.error e, c')
termination_by c.weight
decreasing_by exact (weight_step c).2 _ _h

/-- All rows that an operator delivers, up to its first failure. -/
def drain (c : Cursor) : Except Fault (List ResultRow) :=
  match _h : c.step with
  | .row r c' => (drain c').map (r :: ·)
  | .skip c' => drain c'
  | .done => .ok []
  | .failed e _ => .error e
termination_by c.weight
decreasing_by
  · exact (weight_step c).1 _ _ _h
  · exact (weight_step c).2 _ _h

/-- Opens an operator afresh.  The right side of a join is read to its end. -/
def openAll : Cursor → Work Tables Cursor
  | scan table qualify _ => do
    let schema := (← Tables.get table).schema
    let rows ← Tables.on table Store.selectAll
    return scan table qualify (rows.map (ResultRow.ofRow schema qualify))
  | lookup table id _ => do
    let schema := (← Tables.get table).schema
    let row ← Tables.on table (Store.select id)
    return lookup table id (row.map (ResultRow.ofRow schema false))
  | filter child column value => do
    return filter (← openAll child) column value
  | join left right lc rc _ _ _ => do
    let inner ← Attempt.ofExcept (drain (← openAll right))
    return join (← openAll left) right lc rc inner none []

end Cursor

/-- The rows of a plan. -/
def Plan.rows (p : Plan) : Work Tables (List ResultRow) := do
  Attempt.ofExcept (Cursor.drain (← Cursor.openAll (Cursor.ofPlan p)))

end Tabulary
