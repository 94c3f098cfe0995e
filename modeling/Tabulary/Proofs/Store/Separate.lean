import Tabulary.Proofs.Store.Lifecycle
import Tabulary.Proofs.Table.Separate

/-!
Changes of different columns, made in a store.  Each of the two calls reads the row, checks it whole
and writes it behind all others, so the two orders write different bytes and leave different records
behind; what the table shows at the end does not depend on the order.

Main statement: for every store that calls lead to, two changes of one row that share no column end
alike in either order and leave stores that answer alike (`updateValues_separate`).
-/

namespace Tabulary
namespace Store

open Attempt Record

variable {s : Schema} {path : Path} {st st' : Store} {h h' : Handle} {w w' : World}
  {records records' : List Stored} {id : Value} {A B : List (String × Value)}

/-! ## Stores that calls lead to -/

/-- What a store is between two calls: in use on the records of its file, or closed. -/
inductive Standing (s : Schema) (path : Path) : Store × World → Prop
  | opened {st : Store} {w : World} {h : Handle} {records : List Stored}
      (opened : Opened s path st h w.files records) : Standing s path (st, w)
  | idle {st : Store} {w : World} (closed : st.handle = none) : Standing s path (st, w)

/-- A drop, whatever it comes to, leaves the store closed. -/
theorem handle_of_drop (hdropped : st.dropped = true → st.handle = none) :
    (drop.run (st, w)).2.1.handle = none := by
  obtain ⟨w₁, hclose, -⟩ := run_close st w
  unfold drop
  rw [run_bind_of_ok (Work.run_state _)]
  dsimp only
  split
  · rename_i hd
    exact hdropped hd
  · rw [run_bind_of_ok hclose, run_bind, Work.run_change]
    dsimp only
    split
    · rename_i hgone
      split at hgone
      · cases hgone
        rfl
      · cases hgone
    · rename_i hfail
      split at hfail
      · cases hfail
      · cases hfail
        rfl

theorem Standing.call {y : Store × World} (hy : Standing s path y) (c : Call) :
    Standing s path (c.run.run y).2 := by
  cases hy with
  | @opened st w h records ho =>
    cases c with
    | ask op own =>
      have hends := Operation.run_ends_onFile ho op
      show Standing s path (op.run.run (st, w)).2
      generalize op.run.run (st, w) = ending at hends ⊢
      generalize op.onFile s (liveRows records) = expected at hends
      cases hends with
      | error ho' _ => exact .opened ho'
      | ok ho' _ => exact .opened ho'
    | close =>
      obtain ⟨w₁, hclose, -⟩ := run_close st w
      unfold Call.run
      rw [run_bind_of_ok hclose]
      exact .idle rfl
    | drop =>
      unfold Call.run
      rw [snd_run_andReturn]
      exact .idle (handle_of_drop fun hdropped => absurd hdropped
        (by rw [ho.dropped]; exact Bool.false_ne_true))
  | @idle st w hclosed =>
    obtain ⟨e, hidle⟩ := idle?_of_closed hclosed
    by_cases hdrop : c = .drop
    · subst hdrop
      unfold Call.run
      rw [snd_run_andReturn]
      exact .idle (handle_of_drop fun _ => hclosed)
    · rw [run_call_of_idle hidle hclosed fun heq => absurd heq hdrop]
      exact .idle hclosed

theorem Standing.calls {y : Store × World} (hy : Standing s path y) (calls : List Call) :
    Standing s path ((Call.runAll calls).run y).2 := by
  induction calls generalizing y with
  | nil => exact hy
  | cons c calls ih =>
    unfold Call.runAll at ih ⊢
    have hc : c.run.outcome.run y = (.ok (c.run.run y).1, (c.run.run y).2) := rfl
    rw [List.mapM_cons, run_bind_of_ok hc, snd_run_andReturn]
    exact ih (hy.call c)

/-- A store that begins with a missing or empty file, and what is done with it: operations, among
which the table may be opened again, and then calls, after some of which it is closed or dropped. -/
def Reached (s : Schema) (path : Path) (y : Store × World) : Prop :=
  ∃ (w : World) (z : Store × World) (ops : List Operation) (calls : List Call),
    w.files.Vacant path ∧ (openFile s path : Work Unit Store).run ((), w) =
    (.ok z.1, ((), z.2)) ∧ y = ((Call.runAll calls).run ((Operation.runAll ops).run z).2).2

theorem Reached.standing {y : Store × World} (h : Reached s path y) : Standing s path y := by
  obtain ⟨w, ⟨st, w₁⟩, ops, calls, hv, hopen, rfl⟩ := h
  obtain ⟨st', h, w', hopen', ho⟩ := exists_opened s hv
  cases hopen.symm.trans hopen'
  obtain ⟨answers, st₂, h₂, w₂, records, hrun, ho₂⟩ := Operation.runAll_opened ho ops
  rw [hrun]
  exact (Standing.opened ho₂).calls calls

/-! ## One change, and what a store shows -/

theorem Opened.kept (ho : Opened s path st h w.files records) : Rows.Kept s (liveRows records) := by
  have hschema : st.table.schema = s := ho.schema
  have hlaid := ho.holds.laid
  have hdistinct := ho.holds.distinct
  rw [hschema] at hlaid hdistinct
  refine ⟨hdistinct, fun x hx => ?_, fun x hx => ?_⟩ <;> obtain ⟨r, hr, rfl⟩ :=
    List.mem_map.mp hx
  · have hlive := (List.mem_filter.mp hr).2
    simpa [Stored.isLive] using hlive
  · exact hlaid.image_of_mem (List.mem_of_mem_filter hr)

/-- A change of values ends as it does on the rows of the file. -/
theorem Opened.run_updateValues (ho : Opened s path st h w.files records) (id : Value)
    (changes : List (String × Value)) :
    ∃ st' h' w' records', (updateValues id changes).run (st, w) =
        (((liveRows records).amend s id changes).map (·.1), (st', w')) ∧
      Opened s path st' h' w'.files records' ∧
      liveRows records' = (liveRows records).after ((liveRows records).amend s id changes) := by
  have hends := ho.updateValues_ends id changes
  change Ends s path w.files records _ ((liveRows records).amend s id changes) at hends
  generalize (updateValues id changes).run (st, w) = ending at hends ⊢
  generalize (liveRows records).amend s id changes = expected at hends ⊢
  cases hends with
  | error ho' _ => exact ⟨_, _, _, records, rfl, ho', rfl⟩
  | ok ho' _ => exact ⟨_, _, _, _, rfl, ho', rfl⟩

/-- Two stores give the same row of a key, the same rows and their count, and have the same values
in use. -/
structure ShowAlike (id : Value) (y z : Store × World) : Prop where
  select : ((select id).run y).1 = ((select id).run z).1
  selectAll : (selectAll.run y).1 = (selectAll.run z).1
  rowCount : y.1.rowCount = z.1.rowCount
  used : y.1.index.used = z.1.index.used

theorem Opened.used_eq (ho : Opened s path st h w.files records) :
    st.index.used = s.uniqueColumns.map fun c =>
    (c.name, (liveRows records).map (·.held c.name)) := by
  have hindex := ho.holds.index
  rw [show st.table.schema = s from ho.schema] at hindex
  rw [index, hindex, Index.ofLive]
  refine List.map_congr_left fun c _ => ?_
  rw [liveRows, List.map_map]
  rfl

theorem Opened.showAlike (ho : Opened s path st h w.files records)
    (ho' : Opened s path st' h' w'.files records')
    (hrows : liveRows records = liveRows records') (id : Value) :
    ShowAlike id (st, w) (st', w') where
  select := by rw [(ho.select_ends id).result_eq, (ho'.select_ends id).result_eq, hrows]
  selectAll := by rw [ho.selectAll_ends.result_eq, ho'.selectAll_ends.result_eq, hrows]
  rowCount := by
    show st.rowCount = st'.rowCount
    rw [ho.rowCount_eq, ho'.rowCount_eq, hrows]
  used := by
    show st.index.used = st'.index.used
    rw [ho.used_eq, ho'.used_eq, hrows]

/-! ## Two changes -/

/-- Two changes of a row, one after the other, whatever each of them comes to. -/
def updateInTurn (id : Value) (A B : List (String × Value)) :
    Work Store (Except Fault Row × Except Fault Row) := do
  let a ← (updateValues id A).outcome
  let b ← (updateValues id B).outcome
  return (a, b)

/-- What two changes come to on a store in use. -/
theorem Opened.run_updateInTurn (ho : Opened s path st h w.files records) (id : Value)
    (A B : List (String × Value)) :
    let rows := liveRows records
    let first := rows.after (rows.amend s id A)
    ∃ st' h' w' records', (updateInTurn id A B).run (st, w) =
        (.ok ((rows.amend s id A).map (·.1), (first.amend s id B).map (·.1)), (st', w')) ∧
      Opened s path st' h' w'.files records' ∧ liveRows records' = rows.amendTwice s id A B := by
  obtain ⟨st₁, h₁, w₁, records₁, hA, ho₁, hrows₁⟩ := ho.run_updateValues id A
  obtain ⟨st₂, h₂, w₂, records₂, hB, ho₂, hrows₂⟩ := ho₁.run_updateValues id B
  rw [hrows₁] at hB hrows₂
  refine ⟨st₂, h₂, w₂, records₂, ?_, ho₂, hrows₂⟩
  have houtcome {changes : List (String × Value)} {y y' : Store × World}
      {result : Except Fault Row} (hrun : (updateValues id changes).run y = (result, y')) :
      (updateValues id changes).outcome.run y = (.ok result, y') := by
    show (Except.ok ((updateValues id changes).run y).1, ((updateValues id changes).run y).2) = _
    rw [hrun]
  unfold updateInTurn
  rw [run_bind_of_ok (houtcome hA), run_bind_of_ok (houtcome hB)]
  rfl

/-- For every store that calls lead to, every key and any two changes that share no column and leave
the key alone: each of the calls ends alike in either order, with success or with the same error,
the two stores show the same row of the key, the same rows, count and values in use, and what a call
that succeeded wrote is there. -/
theorem updateValues_separate {y : Store × World} (hy : Reached s path y) (id : Value)
    (hAB : Separate A B) : ∃ a b z a' b' z', (updateInTurn id A B).run y = (.ok (a, b), z) ∧
      (updateInTurn id B A).run y = (.ok (b', a'), z') ∧
      a.map (fun _ => ()) = a'.map (fun _ => ()) ∧ b.map (fun _ => ()) = b'.map (fun _ => ()) ∧
      ShowAlike id z z' ∧
      (∀ r, a = .ok r → ∀ name v, (name, v) ∈ A →
        ∃ x, ((select id).run z).1 = .ok (some x) ∧ x.value? name = some v) ∧
      ∀ r, b = .ok r → ∀ name v, (name, v) ∈ B →
        ∃ x, ((select id).run z).1 = .ok (some x) ∧ x.value? name = some v := by
  cases hy.standing with
  | @opened st w h records ho =>
    obtain ⟨st₂, h₂, w₂, records₂, hrun, ho₂, hrows⟩ := ho.run_updateInTurn id A B
    obtain ⟨st₃, h₃, w₃, records₃, hrun', ho₃, hrows'⟩ := ho.run_updateInTurn id B A
    obtain ⟨hA, htwice, hfound⟩ := Rows.amend_separate ho.kept hAB id
    obtain ⟨hB, -, hfound'⟩ := Rows.amend_separate ho.kept hAB.symm id
    have hvoid (result : Except Fault (Row × Rows)) :
        (result.map (·.1)).map (fun _ => ()) = result.map fun _ => () :=
        Operation.map_map result _ _
    have hselect : ((select id).run (st₂, w₂)).1 =
        .ok (((liveRows records).amendTwice s id A B).find id) := by
      rw [(ho₂.select_ends id).result_eq, hrows]
      rfl
    refine ⟨_, _, _, _, _, _, hrun, hrun', ?_, ?_,
      ho₂.showAlike ho₃ (hrows.trans (htwice.trans hrows'.symm)) id,
      fun r hr name v hmem => ?_, fun r hr name v hmem => ?_⟩
    · rw [hvoid, hvoid, hB]
    · rw [hvoid, hvoid, hA]
    · obtain ⟨a, ha, -⟩ := of_map_ok hr
      obtain ⟨x, hfind, hvalue⟩ := hfound a ha name v hmem
      exact ⟨x, by rw [hselect, hfind], hvalue⟩
    · obtain ⟨b, hb, -⟩ := of_map_ok hr
      rw [hb] at hA
      obtain ⟨b', hb', -⟩ := of_map_ok hA.symm
      obtain ⟨x, hfind, hvalue⟩ := hfound' b' hb' name v hmem
      exact ⟨x, by rw [hselect, htwice, hfind], hvalue⟩
  | @idle st w hclosed =>
    obtain ⟨e, hidle⟩ := idle?_of_closed hclosed
    have hrefused (changes : List (String × Value)) :
        (updateValues id changes).outcome.run (st, w) = (.ok (.error e), (st, w)) := by
      show (Except.ok ((updateValues id changes).run (st, w)).1,
        ((updateValues id changes).run (st, w)).2) = _
      unfold updateValues updateValuesWith
      rw [run_bind_of_error (run_ensureOpen_of_idle hidle)]
    have hrun (A B : List (String × Value)) :
        (updateInTurn id A B).run (st, w) = (.ok (.error e, .error e), (st, w)) := by
      unfold updateInTurn
      rw [run_bind_of_ok (hrefused A), run_bind_of_ok (hrefused B)]
      rfl
    exact ⟨_, _, _, _, _, _, hrun A B, hrun B A, rfl, rfl,
      ⟨rfl, rfl, rfl, rfl⟩, nofun, nofun⟩

/-- A new name and a new age for one of two people. -/
theorem updateValues_separate_people :
    ∃ y z z', Reached Sample.people Sample.table y ∧
      Separate [("name", .text "cy")] [("age", .int 31)] ∧
      (updateInTurn (.int 1) [("name", .text "cy")] [("age", .int 31)]).run y =
        (.ok (.ok (Sample.person 1 "cy" 30), .ok (Sample.person 1 "cy" 31)), z) ∧
      (updateInTurn (.int 1) [("age", .int 31)] [("name", .text "cy")]).run y =
        (.ok (.ok (Sample.person 1 "ann" 31), .ok (Sample.person 1 "cy" 31)), z') ∧
      ShowAlike (.int 1) z z' := by
  let ops : List Operation := [.insert (Sample.person 1 "ann" 30), .insert (Sample.person 2 "bo" 5)]
  have hs : ∀ op ∈ ops, op.Short := by decide
  have hAB : Separate [("name", .text "cy")] [("age", .int 31)] := ⟨by decide, by decide⟩
  obtain ⟨st, h, w, hopen, ho⟩ := exists_opened Sample.people Sample.vacant
  obtain ⟨st', h', w', records, hrun, ho', hrows⟩ := Operation.runAll_ends ho hs
  have hreached : Reached Sample.people Sample.table (st', w') :=
    ⟨Sample.world, (st, w), ops, [], Sample.vacant, hopen, by rw [hrun]; rfl⟩
  replace hrows : liveRows records = [Sample.person 1 "ann" 30, Sample.person 2 "bo" 5] :=
    hrows.trans (by decide)
  obtain ⟨st₁, -, w₁, -, hAB₁, -, -⟩ :=
    ho'.run_updateInTurn (.int 1) [("name", .text "cy")] [("age", .int 31)]
  obtain ⟨st₂, -, w₂, -, hBA₂, -, -⟩ :=
    ho'.run_updateInTurn (.int 1) [("age", .int 31)] [("name", .text "cy")]
  obtain ⟨a, b, z, a', b', z', hA, hB, -, -, halike, -, -⟩ :=
    updateValues_separate hreached (.int 1) hAB
  rw [hrows] at hAB₁ hBA₂
  cases hA.symm.trans hAB₁
  cases hB.symm.trans hBA₂
  refine ⟨_, _, _, hreached, hAB, hA.trans (Prod.ext (congrArg Except.ok ?_) rfl),
    hB.trans (Prod.ext (congrArg Except.ok ?_) rfl), halike⟩
  · decide +kernel
  · decide +kernel

end Store
end Tabulary
