import Mathlib.Data.List.Find
import Mathlib.Data.List.Induction
import Tabulary.Proofs.Attempt
import Tabulary.Proofs.Record.Image
import Tabulary.Proofs.Table.Rows

/-!
Changes of different columns.  Whether a row can be changed depends on the values that are written
over it and on the other rows: the values that stay are accepted already, are nowhere else in the
table, and have had a record.  So of two changes that share no column each fares the same before the
other and after it.

Main statement: in either order both calls end alike, and the rows at the end are the same
(`Rows.amend_separate`).
-/

namespace Tabulary

open Record

/-! ## Fields after changes -/

section overwrite

variable {fields fields' changes : List (String × Value)} {name : String} {v : Value}

/-- Fields with one change written over them. -/
def writeOver (fields : List (String × Value)) (c : String × Value) : List (String × Value) :=
  if fields.any (·.1 == c.1) then fields.map fun f => if f.1 == c.1 then c else f
  else fields ++ [c]

theorem overwrite_concat (fields changes : List (String × Value)) (c : String × Value) :
    overwrite fields (changes ++ [c]) = writeOver (overwrite fields changes) c := by
  unfold overwrite
  rw [List.foldl_append]
  rfl

theorem any_key_eq (fields : List (String × Value)) (name : String) :
    fields.any (·.1 == name) = decide (name ∈ Keyed.keys fields) := by
  rw [Bool.eq_iff_iff, List.any_eq_true, decide_eq_true_iff, Keyed.keys, List.mem_map]
  simp only [beq_iff_eq]

theorem keys_writeOver (fields : List (String × Value)) (c : String × Value) :
    Keyed.keys (writeOver fields c) =
      if c.1 ∈ Keyed.keys fields then Keyed.keys fields else Keyed.keys fields ++ [c.1] := by
  unfold writeOver
  rw [any_key_eq]
  by_cases hc : c.1 ∈ Keyed.keys fields
  · rw [if_pos (decide_eq_true hc), if_pos hc, Keyed.keys, Keyed.keys, List.map_map]
    refine List.map_congr_left fun f _ => ?_
    by_cases hf : (f.1 == c.1) = true
    · simp only [Function.comp_apply, hf, if_true]
      exact (eq_of_beq hf).symm
    · simp only [Function.comp_apply, if_neg hf]
  · rw [if_neg (by simpa using hc), if_neg hc, Keyed.keys, List.map_append]
    rfl

theorem lookup_map_change (fields : List (String × Value)) (c : String × Value) (name : String) :
    (fields.map fun f => if f.1 == c.1 then c else f).lookup name =
      if name = c.1 ∧ c.1 ∈ Keyed.keys fields then some c.2 else fields.lookup name := by
  induction fields with
  | nil => simp [Keyed.keys]
  | cons f fields ih =>
    obtain ⟨k, v⟩ := f
    rw [List.map_cons]
    by_cases hk : k = c.1
    · subst hk
      rw [if_pos (beq_self_eq_true _), Keyed.lookup_cons_eq, Keyed.lookup_cons_eq, ih]
      by_cases hname : name = c.1
      · simp [hname, Keyed.keys]
      · simp [hname]
    · have hmem : c.1 ∈ Keyed.keys ((k, v) :: fields) ↔ c.1 ∈ Keyed.keys fields :=
        List.mem_cons.trans (or_iff_right (Ne.symm hk))
      rw [if_neg (by simpa using hk), Keyed.lookup_cons_eq, Keyed.lookup_cons_eq, ih]
      simp only [hmem]
      by_cases hname : name = k
      · subst hname
        simp [hk]
      · simp [hname]

theorem lookup_writeOver (fields : List (String × Value)) (c : String × Value) (name : String) :
    (writeOver fields c).lookup name = if name = c.1 then some c.2 else fields.lookup name := by
  unfold writeOver
  rw [any_key_eq]
  by_cases hc : c.1 ∈ Keyed.keys fields
  · rw [if_pos (decide_eq_true hc), lookup_map_change]
    simp only [hc, and_true]
  · have hone : [c].lookup name = if name = c.1 then some c.2 else none := by
      rw [← Prod.eta c, Keyed.lookup_cons_eq]
      simp
    rw [if_neg (by simpa using hc), List.lookup_append, hone]
    by_cases hname : name = c.1
    · rw [if_pos hname, if_pos hname, hname, Keyed.lookup_eq_none _ _ hc, Option.none_or]
    · rw [if_neg hname, if_neg hname, Option.or_none]

/-- Which fields there are after changes, and in which order, depends on the names of the fields. -/
theorem keys_overwrite_congr (h : Keyed.keys fields = Keyed.keys fields') :
    Keyed.keys (overwrite fields changes) = Keyed.keys (overwrite fields' changes) := by
  induction changes using List.reverseRecOn with
  | nil => exact h
  | append_singleton changes c ih =>
    rw [overwrite_concat, overwrite_concat, keys_writeOver, keys_writeOver, ih]

/-- A field holds the last value that the changes have for it, or else what it held. -/
theorem lookup_overwrite (fields changes : List (String × Value)) (name : String) :
    (overwrite fields changes).lookup name = (changes.reverse.lookup name).or
    (fields.lookup name) := by
  induction changes using List.reverseRecOn with
  | nil => rfl
  | append_singleton changes c ih =>
    rw [overwrite_concat, lookup_writeOver, ih, List.reverse_append]
    show _ = (((c.1, c.2) :: changes.reverse).lookup name).or _
    rw [Keyed.lookup_cons_eq]
    by_cases hname : name = c.1
    · simp [hname]
    · simp [hname]

end overwrite

namespace Row

variable {s : Schema} {others : Rows} {x y : Row} {changes : List (String × Value)} {name : String}
  {v : Value}

theorem value?_changed (x : Row) (changes : List (String × Value)) (name : String) :
    (x.changed changes).value? name = (changes.reverse.lookup name).or (x.value? name) :=
  lookup_overwrite x.values changes name

theorem value?_changed_of_not_mem (x : Row) (h : name ∉ Keyed.keys changes) :
    (x.changed changes).value? name = x.value? name := by
  have hnone : changes.reverse.lookup name = none := by
    refine Keyed.lookup_eq_none _ _ ?_
    rwa [Keyed.keys, List.map_reverse, List.mem_reverse]
  rw [value?_changed, hnone, Option.none_or]

/-- A change of a map of changes is what the row holds afterwards. -/
theorem value?_changed_of_mem (x : Row) (hd : (Keyed.keys changes).Nodup)
    (h : (name, v) ∈ changes) : (x.changed changes).value? name = some v := by
  have hreverse : (Keyed.keys changes.reverse).Nodup := by
    rwa [Keyed.keys, List.map_reverse, List.nodup_reverse]
  rw [value?_changed, Keyed.lookup_of_mem hreverse (List.mem_reverse.mpr h), Option.some_or]

theorem held_changed_of_not_mem (x : Row) (h : name ∉ Keyed.keys changes) :
    (x.changed changes).held name = x.held name := by
  rw [held, value?_changed_of_not_mem x h, held]

/-- What is written over a column does not depend on the row. -/
theorem held_changed_of_mem (x y : Row) (h : name ∈ Keyed.keys changes) :
    (x.changed changes).held name = (y.changed changes).held name := by
  have hmem : name ∈ Keyed.keys changes.reverse := by
    rwa [Keyed.keys, List.map_reverse, List.mem_reverse]
  obtain ⟨v, hv⟩ := Keyed.exists_lookup hmem
  rw [held, held, value?_changed, value?_changed, hv]
  rfl

/-! ## What a change of a row depends on -/

/-- A row as a table keeps it, whose unique values are in none of the other rows. -/
structure Settled (s : Schema) (others : Rows) (x : Row) : Prop where
  image : ∃ bytes, Image s x bytes
  live : x.deleted = false
  free : others.taken? s x = none

namespace Settled

theorem fits (h : x.Settled s others) : x.Fits s := h.image.choose_spec.fits

theorem stored_eq (h : x.Settled s others) : x.stored s false = x :=
  h.live ▸ h.image.choose_spec.arranged

theorem keys_eq (h : x.Settled s others) : Keyed.keys x.values = s.columnNames := by
  rw [← h.stored_eq, keys_stored]

theorem id_eq (h : x.Settled s others) : x.id = x.held Value.keyColumn := by
  have hid := congrArg (·.id) h.stored_eq
  exact hid.symm

theorem not_taken (h : x.Settled s others) {c : Column} (hc : c ∈ s.uniqueColumns) :
    (others.any fun y => y.held c.name = x.held c.name) = false := by
  have hfree := h.free
  rw [Rows.taken?, Option.map_eq_none_iff, List.find?_eq_none] at hfree
  exact Bool.eq_false_iff.mpr (hfree c hc)

end Settled

theorem eq_none_of_refuse {found : Option EngineError} (h : refuse found = .ok ()) :
    found = none := by
  cases found with
  | none => rfl
  | some e => cases h

/-- The first element that has a property, and what is said of it, where both can be told by
others. -/
theorem map_find?_congr {α β : Type} {l : List α} {p q : α → Bool} {f g : α → β}
    (hp : ∀ a ∈ l, p a = q a) (hf : ∀ a ∈ l, p a = true → f a = g a) :
    (l.find? p).map f = (l.find? q).map g := by
  rw [List.find?_congr hp]
  cases hfind : l.find? q with
  | none => rfl
  | some a =>
    have hmem := List.mem_of_find?_eq_some hfind
    exact congrArg some (hf a hmem ((hp a hmem).trans (List.find?_some hfind)))

variable (hx : x.Settled s others) (hy : y.Settled s others) (changes : List (String × Value))
include hx hy

/-- A column in which the row breaks a rule after the changes is one that they are about. -/
theorem fault?_changed : (x.changed changes).fault? s = (y.changed changes).fault? s := by
  have hkeys : Keyed.keys (x.changed changes).values = Keyed.keys (y.changed changes).values :=
    keys_overwrite_congr (hx.keys_eq.trans hy.keys_eq.symm)
  have hkey (z : Row) : ((z.changed changes).held Value.keyColumn).looseEq (z.changed changes).id =
      true :=
    Value.looseEq_refl _
  unfold fault?
  rw [hkeys, hkey x, hkey y]
  have haccepts (z : Row) (hz : z.Settled s others) (c : Column) (hc : c ∈ s.columns)
      (hout : c.name ∉ Keyed.keys changes) : c.accepts ((z.changed changes).held c.name) =
      true := by
    rw [held_changed_of_not_mem z hout]
    exact hz.fits.accepted c hc
  have htypes : (s.columns.find? fun c => !c.accepts ((x.changed changes).held c.name)).map
        (fun c => EngineError.typeMismatch c.name ((x.changed changes).held c.name) c.type) =
      (s.columns.find? fun c => !c.accepts ((y.changed changes).held c.name)).map
        fun c => EngineError.typeMismatch c.name ((y.changed changes).held c.name) c.type := by
    refine map_find?_congr (fun c hc => ?_) fun c hc hfound => ?_
    · by_cases hin : c.name ∈ Keyed.keys changes
      · rw [held_changed_of_mem x y hin]
      · rw [haccepts x hx c hc hin, haccepts y hy c hc hin]
    · by_cases hin : c.name ∈ Keyed.keys changes
      · rw [held_changed_of_mem x y hin]
      · rw [haccepts x hx c hc hin] at hfound
        cases hfound
  rw [htypes, if_neg Bool.true_eq_false.mp, if_neg Bool.true_eq_false.mp]

/-- A value that stands in the way of the changed row is one of the changes. -/
theorem taken?_changed : others.taken? s (x.changed changes) =
    others.taken? s (y.changed changes) := by
  have hfree (z : Row) (hz : z.Settled s others) (c : Column) (hc : c ∈ s.uniqueColumns)
      (hout : c.name ∉ Keyed.keys changes) :
      (others.any fun y => y.held c.name = (z.changed changes).held c.name) = false := by
    rw [held_changed_of_not_mem z hout]
    exact hz.not_taken hc
  refine map_find?_congr (fun c hc => ?_) fun c hc hfound => ?_
  · by_cases hin : c.name ∈ Keyed.keys changes
    · rw [held_changed_of_mem x y hin]
    · rw [hfree x hx c hc hin, hfree y hy c hc hin]
  · by_cases hin : c.name ∈ Keyed.keys changes
    · rw [held_changed_of_mem x y hin]
    · rw [hfree x hx c hc hin] at hfound
      cases hfound

omit hx hy in
/-- Columns can be written alike where two rows hold one value, or each a short one. -/
theorem outcome_encodeColumns {r r' : Row} {cs : List Column}
    (h : ∀ c ∈ cs, c.accepts (r.held c.name) = true ∧ c.accepts (r'.held c.name) = true ∧
      (r.held c.name = r'.held c.name ∨ (r.held c.name).Short ∧ (r'.held c.name).Short)) :
    (encodeColumns r cs).map (fun _ => ()) = (encodeColumns r' cs).map fun _ => () := by
  induction cs with
  | nil => rfl
  | cons c rest ih =>
    obtain ⟨hr, hr', hheld⟩ := h c List.mem_cons_self
    have hrest := ih fun d hd => h d (List.mem_cons_of_mem c hd)
    have hvalue : (encodeValue c.type (r.held c.name)).map (fun _ => ()) =
        (encodeValue c.type (r'.held c.name)).map fun _ => () := by
      rcases hheld with hsame | ⟨hshort, hshort'⟩
      · rw [hsame]
      · obtain ⟨xs, hxs, -⟩ := Decoder.reads_column 0 hr hshort
        obtain ⟨ys, hys, -⟩ := Decoder.reads_column 0 hr' hshort'
        rw [hxs, hys]
        rfl
    rw [encodeColumns, encodeColumns, get_eq_ok_held hr, get_eq_ok_held hr']
    simp only [bind, Except.bind]
    generalize encodeValue c.type (r.held c.name) = a at hvalue ⊢
    generalize encodeValue c.type (r'.held c.name) = b at hvalue ⊢
    generalize encodeColumns r rest = a' at hrest ⊢
    generalize encodeColumns r' rest = b' at hrest ⊢
    cases a <;> cases b <;> cases hvalue
    · rfl
    · cases a' <;> cases b' <;> cases hrest <;> rfl

omit hx hy in
theorem recorded_eq {r : Row} (hr : r.Fits s) :
    r.recorded s () = (encodeColumns r s.dataColumns).map fun _ => () := by
  obtain ⟨n, hheld, hrange⟩ := hr.key_eq_int
  obtain ⟨m, hheld', hid⟩ := hr.id_key?
  obtain rfl : n = m := Value.int.inj (hheld.symm.trans hheld')
  unfold recorded encode
  rw [encodeInt_eq_ok hid hrange]
  cases encodeColumns r s.dataColumns <;> rfl

/-- A changed row lacks a record only if a text among the changes is too long. -/
theorem recorded_changed (hfx : (x.changed changes).Fits s) (hfy : (y.changed changes).Fits s) :
    (x.changed changes).recorded s () = (y.changed changes).recorded s () := by
  rw [recorded_eq hfx, recorded_eq hfy]
  refine outcome_encodeColumns fun c hc => ?_
  have hmem := s.mem_columns_of_data hc
  refine ⟨hfx.accepted c hmem, hfy.accepted c hmem, ?_⟩
  by_cases hin : c.name ∈ Keyed.keys changes
  · exact Or.inl (held_changed_of_mem x y hin)
  · rw [held_changed_of_not_mem x hin, held_changed_of_not_mem y hin]
    exact Or.inr ⟨held_short hx.image.choose_spec.short _,
      held_short hy.image.choose_spec.short _⟩

omit hx hy in
/-- Whether a row can be changed among others, and what stands in the way. -/
def verdict (s : Schema) (others : Rows) (x : Row) (changes : List (String × Value)) :
    Except Fault Unit := do
  refuse ((x.changed changes).fault? s)
  refuse (others.taken? s (x.changed changes))
  (x.changed changes).recorded s ()

/-- The verdict on changes is the same whichever settled row they are for. -/
theorem verdict_eq : x.verdict s others changes = y.verdict s others changes := by
  have hfault := fault?_changed hx hy changes
  unfold verdict
  rw [taken?_changed hx hy]
  cases hy' : (y.changed changes).fault? s with
  | some e => rw [hfault, hy']; rfl
  | none =>
    have hx' := hfault.trans hy'
    rw [hx', recorded_changed hx hy changes (fits_iff_fault?.mpr hx') (fits_iff_fault?.mpr hy')]

omit hy in
theorem id_changed (hkey : Value.keyColumn ∉ Keyed.keys changes) :
    (x.changed changes).id = x.id := by
  have hheld := held_changed_of_not_mem x hkey
  rw [hx.id_eq, ← hheld]
  rfl

omit hy in
theorem change_eq (hkey : Value.keyColumn ∉ Keyed.keys changes) :
    x.change s changes = (refuse ((x.changed changes).fault? s)).map fun _ =>
    x.changed changes := by
  unfold change
  dsimp only
  rw [id_changed hx changes hkey, Value.looseEq_refl]
  cases (x.changed changes).fault? s <;> rfl

omit hx hy in
theorem fits_of_verdict (h : x.verdict s others changes = .ok ()) : (x.changed changes).Fits s := by
  obtain ⟨⟨⟩, hfault, -⟩ := Attempt.of_bind_ok h
  rw [fits_iff_fault?]
  exact eq_none_of_refuse hfault

omit hx hy in
/-- A row that has been changed is settled among the same others. -/
theorem settled_of_verdict (h : x.verdict s others changes = .ok ()) :
    ((x.changed changes).stored s false).Settled s others := by
  have hfits := fits_of_verdict changes h
  obtain ⟨_, -, h⟩ := Attempt.of_bind_ok h
  obtain ⟨⟨⟩, htaken, h⟩ := Attempt.of_bind_ok h
  obtain ⟨bytes, henc, -⟩ := Attempt.of_bind_ok h
  refine ⟨⟨bytes, image_of_encode hfits henc⟩, rfl,
    (Eq.symm ?_).trans (eq_none_of_refuse htaken)⟩
  refine map_find?_congr (fun c hc => ?_) fun c hc _ => ?_
  · rw [held_stored s _ false (List.mem_map_of_mem (s.mem_columns_of_unique hc))]
  · rw [held_stored s _ false (List.mem_map_of_mem (s.mem_columns_of_unique hc))]

end Row

/-! ## A change among rows -/

/-- Two maps of changes that share no column, and do not touch the key. -/
structure Separate (A B : List (String × Value)) : Prop where
  distinct : (Keyed.keys (A ++ B)).Nodup
  noKey : Value.keyColumn ∉ Keyed.keys (A ++ B)

namespace Separate

variable {A B : List (String × Value)} {name : String}

theorem symm (h : Separate A B) : Separate B A := by
  have hperm : (Keyed.keys (B ++ A)).Perm (Keyed.keys (A ++ B)) := List.perm_append_comm.map _
  exact ⟨hperm.nodup_iff.mpr h.distinct, fun hmem => h.noKey (hperm.mem_iff.mp hmem)⟩

theorem nodup (h : Separate A B) : (Keyed.keys A).Nodup := by
  have hdistinct := h.distinct
  rw [Keyed.keys, List.map_append] at hdistinct
  exact (List.nodup_append.mp hdistinct).1

theorem noKey_left (h : Separate A B) : Value.keyColumn ∉ Keyed.keys A := by
  have hkey := h.noKey
  rw [Keyed.keys, List.map_append, List.mem_append, not_or] at hkey
  exact hkey.1

theorem not_mem (h : Separate A B) (hname : name ∈ Keyed.keys A) : name ∉ Keyed.keys B := by
  have hdistinct := h.distinct
  rw [Keyed.keys, List.map_append] at hdistinct
  exact fun hB => (List.nodup_append.mp hdistinct).2.2 name hname name hB rfl

end Separate

namespace Rows

variable {s : Schema} {rows others : Rows} {x : Row} {id : Value} {A B : List (String × Value)}

/-- A change of the values of a row that has a record then. -/
def amend (s : Schema) (rows : Rows) (id : Value) (changes : List (String × Value)) :
    Except Fault (Row × Rows) :=
  rows.updateValues s id changes >>= fun x => x.1.recorded s x

/-- The rows after an operation, which a failure leaves as they are. -/
def after (rows : Rows) : Except Fault (Row × Rows) → Rows
  | .ok a => a.2
  | .error _ => rows

/-- The rows after two changes, of which either may fail. -/
def amendTwice (s : Schema) (rows : Rows) (id : Value) (A B : List (String × Value)) : Rows :=
  let first := rows.after (rows.amend s id A)
  first.after (first.amend s id B)

/-- Some rows, and behind them a changed one as storage gives it back. -/
def behind (s : Schema) (others : Rows) (x : Row) (changes : List (String × Value)) : Rows :=
  others ++ [(x.changed changes).stored s false]

/-- The rows have one of this key, beside some others. -/
structure Lone (s : Schema) (id : Value) (rows others : Rows) (x : Row) : Prop where
  get : rows.get id = .ok x
  without : rows.without x = others
  settled : x.Settled s others

/-- The rows of a table: they are distinct, and all of them live rows that have records. -/
structure Kept (s : Schema) (rows : Rows) : Prop where
  distinct : Distinct s rows
  live : ∀ x ∈ rows, x.deleted = false
  image : ∀ x ∈ rows, ∃ bytes, Image s x bytes

theorem Kept.lone (h : Kept s rows) (hget : rows.get id = .ok x) :
    Lone s id rows (rows.without x) x := by
  obtain ⟨hx, -⟩ := get_eq_ok hget
  refine ⟨hget, rfl, h.image x hx, h.live x hx, ?_⟩
  rw [taken?, Option.map_eq_none_iff, List.find?_eq_none]
  intro c hc htaken
  obtain ⟨y, hy, hsame⟩ := List.any_eq_true.mp htaken
  obtain ⟨hmem, hother⟩ := List.mem_filter.mp hy
  rw [List.inj_on_of_nodup_map (h.distinct.values c hc) hmem hx (of_decide_eq_true hsame),
    Value.looseEq_refl] at hother
  cases hother

namespace Lone

theorem amend_eq (h : Lone s id rows others x) (hkey : Value.keyColumn ∉ Keyed.keys A) :
    rows.amend s id A = (x.verdict s others A).map fun _ => (x.changed A, behind s others x A) := by
  unfold amend updateValues append Row.verdict
  rw [h.get]
  simp only [bind, Except.bind]
  rw [Row.change_eq h.settled A hkey, h.without]
  cases (x.changed A).fault? s with
  | some e => rfl
  | none =>
    simp only [refuse, Except.map]
    cases others.taken? s (x.changed A) with
    | some e => rfl
    | none =>
      exact (Row.map_recorded s (x.changed A) () fun _ => (x.changed A, behind s others x A)).symm

/-- After a change the row is again alone beside the same others. -/
theorem next (h : Lone s id rows others x) (hkey : Value.keyColumn ∉ Keyed.keys A)
    (hA : x.verdict s others A = .ok ()) :
    Lone s id (behind s others x A) others ((x.changed A).stored s false) := by
  have hid : ((x.changed A).stored s false).id = x.id := by
    rw [Row.id_stored, ← Row.id_changed h.settled A hkey]
    rfl
  have hasked := (get_eq_ok h.get).2
  have hother : ∀ y ∈ others, y.id.looseEq id = false := fun y hy =>
    (mem_without (h.without.symm ▸ hy) hasked).2
  refine ⟨?_, ?_, Row.settled_of_verdict A hA⟩
  · have hnone : others.find? (fun y => y.id.looseEq id) = none :=
      List.find?_eq_none.mpr fun y hy => by rw [hother y hy]; exact Bool.false_ne_true
    unfold Rows.get Rows.find behind
    rw [List.find?_append, hnone, List.find?_cons, hid, hasked]
    rfl
  · have hkeep : others.filter (fun y => !y.id.looseEq x.id) = others := by
      rw [← h.without, Rows.without, List.filter_filter]
      simp only [Bool.and_self]
    have hself : ¬(!((x.changed A).stored s false).id.looseEq x.id) = true := by
      rw [hid, Value.looseEq_refl]
      exact Bool.false_ne_true
    rw [Rows.without, behind, hid, List.filter_append, hkeep,
      List.filter_cons_of_neg (p := fun y : Row => !y.id.looseEq x.id) hself]
    exact List.append_nil _

/-- What a change comes to, and what the rows are after it, while the others stay the same. -/
theorem after_eq (h : Lone s id rows others x) (hkey : Value.keyColumn ∉ Keyed.keys A) :
    (x.verdict s others A = .ok () ∧ rows.amend s id A =
      .ok (x.changed A, behind s others x A) ∧
      rows.after (rows.amend s id A) = behind s others x A) ∨
    ∃ e, x.verdict s others A = .error e ∧ rows.amend s id A = .error e ∧
      rows.after (rows.amend s id A) = rows := by
  rw [h.amend_eq hkey]
  cases hA : x.verdict s others A with
  | error e => exact Or.inr ⟨e, rfl, rfl, rfl⟩
  | ok => exact Or.inl ⟨rfl, rfl, rfl⟩

/-- In either order the row ends with the same values. -/
theorem stored_separate (x : Row) (hAB : Separate A B) :
    (((x.changed A).stored s false).changed B).stored s false =
      (((x.changed B).stored s false).changed A).stored s false := by
  have hheld : ∀ name ∈ s.columnNames, (((x.changed A).stored s false).changed B).held name =
      (((x.changed B).stored s false).changed A).held name := by
    intro name hname
    by_cases hA : name ∈ Keyed.keys A
    · rw [Row.held_changed_of_not_mem _ (hAB.not_mem hA), Row.held_stored s _ false hname,
        Row.held_changed_of_mem x _ hA]
    · rw [Row.held_changed_of_not_mem ((x.changed B).stored s false) hA,
        Row.held_stored s (x.changed B) false hname]
      by_cases hB : name ∈ Keyed.keys B
      · exact Row.held_changed_of_mem _ x hB
      · rw [Row.held_changed_of_not_mem _ hB, Row.held_changed_of_not_mem _ hB,
          Row.held_stored s _ false hname, Row.held_changed_of_not_mem _ hA]
  have hvalues := List.map_congr_left fun name hname => congrArg (Prod.mk name) (hheld name hname)
  unfold Row.stored at hheld hvalues ⊢
  rw [hheld _ (Row.keyColumn_mem s), hvalues]

/-- A change ends after a separate one as it would have ended before it. -/
theorem outcome_after (h : Lone s id rows others x) (hAB : Separate A B) :
    ((rows.after (rows.amend s id A)).amend s id B).map (fun _ => ()) =
      (rows.amend s id B).map fun _ => () := by
  rcases h.after_eq hAB.noKey_left with ⟨hA, -, hafter⟩ | ⟨e, -, -, hafter⟩
  · have hnext := h.next hAB.noKey_left hA
    rw [hafter, hnext.amend_eq hAB.symm.noKey_left, h.amend_eq hAB.symm.noKey_left,
      Row.verdict_eq hnext.settled h.settled]
    cases x.verdict s others B <;> rfl
  · rw [hafter]

theorem amendTwice_eq (h : Lone s id rows others x) (hAB : Separate A B) :
    rows.amendTwice s id A B = rows.amendTwice s id B A := by
  have hBA := hAB.symm
  -- a change that is refused beside the other rows is refused again after the other change
  have hrefused {C D : List (String × Value)} (hCD : Separate C D) {e : Fault}
      (hC : x.verdict s others C = .ok ()) (hD : x.verdict s others D = .error e) :
      (behind s others x C).after ((behind s others x C).amend s id D) = behind s others x C := by
    have hnext := h.next hCD.noKey_left hC
    rw [hnext.amend_eq hCD.symm.noKey_left, Row.verdict_eq hnext.settled h.settled, hD]
    rfl
  unfold amendTwice
  dsimp only
  rcases h.after_eq hAB.noKey_left with ⟨hA, -, hafterA⟩ | ⟨e, hA, -, hafterA⟩
  · rcases h.after_eq hBA.noKey_left with ⟨hB, -, hafterB⟩ | ⟨e', hB, -, hafterB⟩
    · have hnextA := h.next hAB.noKey_left hA
      have hnextB := h.next hBA.noKey_left hB
      have hB' := (Row.verdict_eq hnextA.settled h.settled B).trans hB
      have hA' := (Row.verdict_eq hnextB.settled h.settled A).trans hA
      rw [hafterA, hafterB, hnextA.amend_eq hBA.noKey_left, hnextB.amend_eq hAB.noKey_left, hA',
        hB']
      show others ++ [_] = others ++ [_]
      rw [stored_separate x hAB]
    · rw [hafterA, hafterB, hrefused hAB hA hB, hafterA]
  · rcases h.after_eq hBA.noKey_left with ⟨hB, -, hafterB⟩ | ⟨e', -, -, hafterB⟩
    · rw [hafterA, hafterB, hrefused hBA hB hA]
    · rw [hafterA, hafterB, hafterA]

/-- What a change that succeeded wrote is there after a separate one. -/
theorem exists_find (h : Lone s id rows others x) (hAB : Separate A B) {a : Row × Rows}
    (hA : rows.amend s id A = .ok a) {name : String} {v : Value} (hmem : (name, v) ∈ A) :
    ∃ z, (rows.amendTwice s id A B).find id = some z ∧ z.value? name = some v := by
  have hname : name ∉ Keyed.keys B := hAB.not_mem (List.mem_map_of_mem hmem)
  have hfind {rows : Rows} {z : Row} (hlone : Lone s id rows others z) : rows.find id = some z := by
    have hget := hlone.get
    unfold Rows.get at hget
    split at hget
    · rename_i hfound
      rw [hfound, Except.ok.inj hget]
    · cases hget
  rcases h.after_eq hAB.noKey_left with ⟨hverdict, -, hafterA⟩ | ⟨e, -, herror, -⟩
  · have hnext := h.next hAB.noKey_left hverdict
    have hvalue : ((x.changed A).stored s false).value? name = some v := by
      rw [(Row.fits_of_verdict A hverdict).value?_stored_eq,
        Row.value?_changed_of_mem x hAB.nodup hmem]
    unfold amendTwice
    dsimp only
    rw [hafterA]
    rcases hnext.after_eq hAB.symm.noKey_left with ⟨hB, -, hafterB⟩ | ⟨e, -, -, hafterB⟩
    · rw [hafterB]
      refine ⟨_, hfind (hnext.next hAB.symm.noKey_left hB), ?_⟩
      rw [(Row.fits_of_verdict B hB).value?_stored_eq, Row.value?_changed_of_not_mem _ hname]
      exact hvalue
    · rw [hafterB]
      exact ⟨_, hfind hnext, hvalue⟩
  · rw [herror] at hA
    cases hA

end Lone

/-- Two changes of a row that share no column and do not touch its key: whichever comes first, each
of them ends as the other way round, the rows at the end are the same, and what a change that
succeeded wrote is there at the end. -/
theorem amend_separate (h : Kept s rows) (hAB : Separate A B) (id : Value) :
    ((rows.after (rows.amend s id A)).amend s id B).map (fun _ => ()) =
      (rows.amend s id B).map (fun _ => ()) ∧
    rows.amendTwice s id A B = rows.amendTwice s id B A ∧
    ∀ a, rows.amend s id A = .ok a → ∀ name v, (name, v) ∈ A →
      ∃ z, (rows.amendTwice s id A B).find id = some z ∧ z.value? name = some v := by
  cases hget : rows.get id with
  | ok x =>
    have hlone := h.lone hget
    exact ⟨hlone.outcome_after hAB, hlone.amendTwice_eq hAB,
      fun a ha name v hmem => hlone.exists_find hAB ha hmem⟩
  | error e =>
    have hamend (changes : List (String × Value)) : rows.amend s id changes = .error e := by
      unfold amend updateValues
      rw [hget]
      rfl
    unfold amendTwice
    simp only [hamend, after]
    exact ⟨trivial, trivial, nofun⟩

end Rows
end Tabulary
