import Tabulary.Proofs.Operator.Opening
import Tabulary.Proofs.Store.Several

/-!
Taking rows from an operator while the tables below it change.  Main statement: whatever is asked of
the stores in between, an operator delivers the rows that its plan stood for when it was opened, one
after another, and after them nothing (`runAll_snapshot`).
-/

namespace Tabulary

namespace Tables

variable {m : Memory.Tables} {x : Tables × World}

/-- Stores that are in use answer as their tables say. -/
theorem serving_inUse : Serving InUse where
  get h ht := by
    obtain ⟨st, hst, handle, records, ho, -⟩ := h.exists_holds ht
    exact ⟨st, hst, ho.schema⟩
  read h ht α x g hx := by
    obtain ⟨y, hrun, hin, -⟩ := h.run_on (f := fun rows => .ok (g rows, rows)) ht hx
    rw [after, Keyed.set_of_lookup ht] at hin
    exact ⟨y, hrun, hin⟩

end Tables

namespace Cursor

/-- What can be asked for in the course of a query: of the operator, or of a table. -/
inductive Call where
  | start
  | next
  | close
  | ask (table : String) (op : Operation)
deriving DecidableEq, Repr

inductive Reply where
  | done
  | row (r : Option ResultRow)
  | answer (a : Answer)
deriving DecidableEq, Repr

namespace Call

def run (c : Cursor) (x : Tables × World) :
    Call → Except Fault Reply × Cursor × Tables × World
  | start => match (openAll c).run x with
    | (.ok c', x') => (.ok .done, c', x')
    | (.error e, x') => (.error e, c, x')
  | next => (c.next.1.map .row, c.next.2, x)
  | close => (.ok .done, c.close, x)
  | ask table op =>
    (((Tables.on table op.run).run x).1.map .answer, c, ((Tables.on table op.run).run x).2)

/-- What is replied to calls one after another. -/
def runAll (c : Cursor) (x : Tables × World) : List Call → List (Except Fault Reply)
  | [] => []
  | call :: calls =>
    (call.run c x).1 :: runAll (call.run c x).2.1 (call.run c x).2.2 calls

/-- The same call on the rows that are yet to be delivered and on the tables. -/
def onRows (p : Plan) (pending : List ResultRow) (m : Memory.Tables) :
    Call → Except Fault Reply × List ResultRow × Memory.Tables
  | start => (.ok .done, p.relation m, m)
  | next => (.ok (.row pending.head?), pending.tail, m)
  | close => (.ok .done, [], m)
  | ask table op => ((m.ask table op).1.map .answer, pending, (m.ask table op).2)

def replay (p : Plan) (pending : List ResultRow) (m : Memory.Tables) :
    List Call → List (Except Fault Reply)
  | [] => []
  | call :: calls =>
    (call.onRows p pending m).1 ::
      replay p (call.onRows p pending m).2.1 (call.onRows p pending m).2.2 calls

/-- The tables after calls. -/
def tables (m : Memory.Tables) : List Call → Memory.Tables
  | [] => m
  | ask table op :: calls => tables (m.ask table op).2 calls
  | _ :: calls => tables m calls

/-- The call neither opens nor closes the operator. -/
def Passing : Call → Prop
  | next => True
  | ask _ _ => True
  | _ => False

instance : DecidablePred Passing := fun call => by
  cases call <;> (unfold Passing; infer_instance)

/-- The rows among replies, and `none` for each call that there was no row for. -/
def rowsOf (replies : List (Except Fault Reply)) : List (Option ResultRow) :=
  replies.filterMap fun
    | .ok (.row r) => some r
    | _ => none

end Call

/-- The operator has these rows of its plan yet to deliver, over stores that show these tables. -/
structure Midway (p : Plan) (pending : List ResultRow) (m : Memory.Tables) (c : Cursor)
    (x : Tables × World) : Prop where
  plan : c.plan = p
  pending : c.drain = .ok pending
  tables : Tables.InUse m x
  sound : p.Sound m

variable {p : Plan} {pending : List ResultRow} {m : Memory.Tables} {c : Cursor}
  {x : Tables × World}

namespace Midway

/-- A call is answered as the rows and the tables say, and leaves the operator midway again. -/
theorem call (h : Midway p pending m c x) (call : Call) :
    (call.run c x).1 = (call.onRows p pending m).1 ∧
      Midway p (call.onRows p pending m).2.1 (call.onRows p pending m).2.2
        (call.run c x).2.1 (call.run c x).2.2 := by
  obtain ⟨hplan, hpending, htables, hsound⟩ := h
  cases call with
  | start =>
    obtain ⟨c', x', hrun, htables', hplan', hdrain⟩ :=
      run_openAll Tables.serving_inUse c htables (hplan ▸ hsound)
    unfold Call.run
    rw [hrun]
    exact ⟨rfl, hplan'.trans hplan, hplan ▸ hdrain, htables', hsound⟩
  | next =>
    obtain ⟨c', hnext, hdrain, hplan'⟩ := next_of_drain hpending
    unfold Call.run
    rw [hnext]
    exact ⟨rfl, hplan'.trans hplan, hdrain, htables, hsound⟩
  | close => exact ⟨rfl, (plan_close c).trans hplan, drain_close c, htables, hsound⟩
  | ask table op =>
    obtain ⟨ts, w⟩ := x
    obtain ⟨x', hrun, htables', -⟩ := htables.run_ask table op
    have hcall : (Call.ask table op).run c (ts, w) = ((m.ask table op).1.map .answer, c, x') := by
      simp only [Call.run, hrun]
    rw [hcall]
    exact ⟨rfl, hplan, hpending, htables', hsound.congr (m.schema_ask table op)⟩

theorem runAll (h : Midway p pending m c x) (calls : List Call) :
    Call.runAll c x calls = Call.replay p pending m calls := by
  induction calls generalizing pending m c x with
  | nil => rfl
  | cons call calls ih =>
    obtain ⟨hreply, hmidway⟩ := h.call call
    exact congrArg₂ List.cons hreply (ih hmidway)

end Midway

namespace Call

theorem rowsOf_append (xs ys : List (Except Fault Reply)) :
    rowsOf (xs ++ ys) = rowsOf xs ++ rowsOf ys :=
  List.filterMap_append

/-- As long as the operator is neither opened nor closed, the calls for a row give the pending rows
in order, and then there is no row any more. -/
theorem rowsOf_replay (p : Plan) (pending : List ResultRow) (m : Memory.Tables) {calls : List Call}
    (h : ∀ call ∈ calls, call.Passing) :
    rowsOf (replay p pending m calls) =
      (List.range (calls.count .next)).map fun k => pending[k]? := by
  induction calls generalizing pending m with
  | nil => rfl
  | cons call calls ih =>
    have hrest := fun call hc => h call (List.mem_cons_of_mem _ hc)
    cases call with
    | start => exact (h _ List.mem_cons_self).elim
    | close => exact (h _ List.mem_cons_self).elim
    | ask table op =>
      have hfirst : replay p pending m (.ask table op :: calls) =
          (m.ask table op).1.map .answer :: replay p pending (m.ask table op).2 calls := rfl
      rw [List.count_cons_of_ne (by simp), ← ih pending (m.ask table op).2 hrest, hfirst]
      cases (m.ask table op).1 <;> rfl
    | next =>
      have hfirst : rowsOf (replay p pending m (.next :: calls)) =
          pending.head? :: rowsOf (replay p pending.tail m calls) := rfl
      rw [hfirst, ih pending.tail m hrest, List.count_cons_self, List.range_succ_eq_map,
        List.map_cons, List.map_map, List.head?_eq_getElem?]
      refine congrArg (List.cons _) (List.map_congr_left fun k _ => ?_)
      rw [List.getElem?_tail]
      rfl

/-- What comes after some calls depends on them through the tables and the rows that are left. -/
theorem exists_replay_append (p : Plan) (pending : List ResultRow) (m : Memory.Tables)
    (calls calls' : List Call) :
    ∃ left, replay p pending m (calls ++ calls') =
      replay p pending m calls ++ replay p left (tables m calls) calls' := by
  induction calls generalizing pending m with
  | nil => exact ⟨pending, rfl⟩
  | cons call calls ih =>
    obtain ⟨left, hleft⟩ := ih (call.onRows p pending m).2.1 (call.onRows p pending m).2.2
    refine ⟨left, ?_⟩
    rw [List.cons_append, replay, hleft]
    cases call <;> rfl

end Call

/-- Calls of an operator over stores of any past are answered as the rows of its plan say, so that
it goes through the rows that the plan had at its last opening, one for each call, and then through
none, and through none either once it is closed, whatever the stores are asked for meanwhile. -/
theorem runAll_snapshot {p : Plan} {m : Memory.Tables} {x : Tables × World}
    (h : Tables.Reached m x) (hp : p.Sound m) (calls later : List Call)
    (hl : ∀ call ∈ later, call.Passing) :
    Call.runAll (ofPlan p) x calls = Call.replay p [] m calls ∧
    Call.rowsOf (Call.runAll (ofPlan p) x (calls ++ .start :: later)) =
      Call.rowsOf (Call.runAll (ofPlan p) x calls) ++
        (List.range (later.count .next)).map (fun k => (p.relation (Call.tables m calls))[k]?) ∧
    Call.rowsOf (Call.runAll (ofPlan p) x (calls ++ .close :: later)) =
      Call.rowsOf (Call.runAll (ofPlan p) x calls) ++ List.replicate (later.count .next) none := by
  have hnew : (ofPlan p).drain = .ok [] := close_ofPlan p ▸ drain_close (ofPlan p)
  have hmidway : Midway p [] m (ofPlan p) x := ⟨plan_ofPlan p, hnew, h.inUse.1, hp⟩
  refine ⟨hmidway.runAll calls, ?_, ?_⟩
  · obtain ⟨left, hleft⟩ := Call.exists_replay_append p [] m calls (.start :: later)
    rw [hmidway.runAll, hmidway.runAll, hleft, Call.rowsOf_append]
    exact congrArg (_ ++ ·) (Call.rowsOf_replay p _ _ hl)
  · obtain ⟨left, hleft⟩ := Call.exists_replay_append p [] m calls (.close :: later)
    rw [hmidway.runAll, hmidway.runAll, hleft, Call.rowsOf_append]
    have hnone : (List.range (later.count .next)).map (fun k => ([] : List ResultRow)[k]?) =
        List.replicate (later.count .next) none := by simp
    exact congrArg (_ ++ ·) ((Call.rowsOf_replay p _ _ hl).trans hnone)

end Cursor

namespace Sample

/-- Pairs of people of one age, of whom the first is called Ann. -/
def peers : Plan :=
  .join (.filter (.scan "people" true) "people.name" (.text "ann"))
    (.scan "people" false) "people.age" "age"

def peer (a b : Row) : ResultRow := (ResultRow.ofRow people true a).append
    (ResultRow.ofRow people false b)

/-- Rows are taken while others come and go. -/
def survey : List Cursor.Call :=
  [.ask "people" (.insert (person 1 "ann" 30)), .ask "people" (.insert (person 2 "bo" 30)), .next,
    .start, .ask "people" (.delete (.int 2)), .next, .ask "people" (.insert (person 3 "cy" 30)),
    .next, .next]

def revision : List Cursor.Call := [.next, .ask "people" .selectAll, .next, .next]

end Sample

namespace Cursor

open Sample Call

theorem runAll_snapshot_survey :
    ∃ x, Tables.Reached [("people", ⟨people, []⟩)] x ∧
      peers.Sound [("people", ⟨people, []⟩)] ∧
      (∀ call ∈ revision, call.Passing) ∧
      rowsOf (Call.runAll (ofPlan peers) x survey) =
        [none, some (peer (person 1 "ann" 30) (person 1 "ann" 30)),
          some (peer (person 1 "ann" 30) (person 2 "bo" 30)), none] ∧
      rowsOf (Call.runAll (ofPlan peers) x (survey ++ .start :: revision)) =
        [none, some (peer (person 1 "ann" 30) (person 1 "ann" 30)),
          some (peer (person 1 "ann" 30) (person 2 "bo" 30)), none,
          some (peer (person 1 "ann" 30) (person 1 "ann" 30)),
          some (peer (person 1 "ann" 30) (person 3 "cy" 30)), none] ∧
      rowsOf (Call.runAll (ofPlan peers) x (survey ++ .close :: revision)) =
        [none, some (peer (person 1 "ann" 30) (person 1 "ann" 30)),
          some (peer (person 1 "ann" 30) (person 2 "bo" 30)), none, none, none, none] := by
  obtain ⟨st, w, -, hreached⟩ :=
    Tables.exists_reached people vacant (Files.sane_empty "/srv/") "people"
  have hsound : peers.Sound [("people", ⟨people, []⟩)] := by decide
  have hpassing : ∀ call ∈ revision, call.Passing := by decide
  obtain ⟨hall, hstart, hclose⟩ := runAll_snapshot hreached hsound survey _ hpassing
  have hrows : rowsOf (replay peers [] [("people", ⟨people, []⟩)] survey) =
      [none, some (peer (person 1 "ann" 30) (person 1 "ann" 30)),
        some (peer (person 1 "ann" 30) (person 2 "bo" 30)), none] := by decide
  rw [hall, hrows] at hstart hclose
  exact ⟨_, hreached, hsound, hpassing, hall ▸ hrows, hstart, hclose⟩

end Cursor
end Tabulary
