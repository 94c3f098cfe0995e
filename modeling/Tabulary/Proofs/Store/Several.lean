import Tabulary.Proofs.Catalog.Table
import Tabulary.Proofs.Files.Bare

/-!
Several stores beside each other, each with a file of its own.  They may be anywhere.  What one of
them writes does not show in the others, so each goes on as its own rows say, whatever is asked of
all of them.
-/

namespace Tabulary

open Record Files

namespace Store

variable {fs fs' : Files} {s : Schema} {path other : Path} {st : Store} {h : Handle}
  {records : List Stored} {node : Nat}

/-- Writing moves no file. -/
theorem Rewrites.openFile_eq (hr : Rewrites fs path fs') (p : Path) :
    fs'.openFile p = fs.openFile p := by
  cases hr with
  | same => rfl
  | written bytes opened => exact openFile_setNode bytes

/-- Writing to one file leaves the bytes of all others. -/
theorem Rewrites.nodeBytes_eq (hr : Rewrites fs path fs') (hopen : fs.openFile other = .ok node)
    (hne : fs.openFile other ≠ fs.openFile path) : fs'.nodeBytes node = fs.nodeBytes node := by
  cases hr with
  | same => rfl
  | written bytes opened =>
    refine nodeBytes_setNode_ne (fun heq => hne ?_) bytes
    rw [hopen, opened, heq]

theorem Rewrites.sane (hr : Rewrites fs path fs') (hs : fs.Sane) : fs'.Sane := by
  cases hr with
  | same => exact hs
  | written bytes opened => exact ⟨fun he => hs.used he, fun he he' => hs.own he he'⟩

/-- A store does not notice what is written to another file. -/
theorem Opened.beside (ho : Opened s other st h fs records) (hr : Rewrites fs path fs')
    (hne : fs.openFile other ≠ fs.openFile path) : Opened s other st h fs' records :=
  ho.congr ((hr.openFile_eq other).trans ho.opened) (hr.nodeBytes_eq ho.opened hne)

/-- A store does not notice files that are made. -/
theorem Opened.grown (ho : Opened s other st h fs records) (hg : Grown fs fs') :
    Opened s other st h fs' records :=
  ho.congr (hg.openFile ho.opened).1 (hg.openFile ho.opened).2

end Store

namespace Tables

/-- Each table is that of an open store, and no two stores have one file. -/
structure InUse (m : Memory.Tables) (x : Tables × World) : Prop where
  holds : Keyed.Match (fun _ st t => Store.Holds x.2.files st t) x.1 m
  names : (Keyed.keys m).Nodup
  apart : (x.1.map fun t => x.2.files.openFile t.2.path).Nodup

variable {m : Memory.Tables} {ts : Tables} {w w' : World} {name table : String} {t : Memory.Table}
  {st st' : Store} {α : Type}

namespace InUse

theorem exists_holds (h : InUse m (ts, w)) (ht : m.lookup table = some t) :
    ∃ st, ts.lookup table = some st ∧ Store.Holds w.files st t := by
  rcases h.holds.lookup table with ⟨-, hnone⟩ | ⟨st, t', hst, ht', hholds⟩
  · rw [hnone] at ht
    cases ht
  · rw [ht'] at ht
    cases ht
    exact ⟨st, hst, hholds⟩

theorem holds_of_mem (h : InUse m (ts, w)) {x : String × Store} (hx : x ∈ ts) :
    ∃ t, Store.Holds w.files x.2 t := by
  have hlookup : ts.lookup x.1 = some x.2 := Keyed.lookup_of_mem (h.holds.keys_eq ▸ h.names) hx
  rcases h.holds.lookup x.1 with ⟨hnone, -⟩ | ⟨st, t, hst, -, hholds⟩
  · rw [hlookup] at hnone
    cases hnone
  · rw [hlookup] at hst
    cases hst
    exact ⟨t, hholds⟩

theorem lookup_none (h : InUse m (ts, w)) (ht : m.lookup table = none) :
    ts.lookup table = none := by
  rcases h.holds.lookup table with ⟨hnone, -⟩ | ⟨st, t', -, ht', -⟩
  · exact hnone
  · rw [ht'] at ht
    cases ht

/-- No other store has the file of a store. -/
theorem openFile_ne (h : InUse m (ts, w)) (hst : ts.lookup table = some st) {other : String}
    {st' : Store} (hmem : (other, st') ∈ ts) (hne : other ≠ table) :
    w.files.openFile st'.path ≠ w.files.openFile st.path := by
  obtain ⟨xs, ys, hts, -⟩ := List.lookup_eq_some_iff.mp hst
  have hown : (table, st) ∈ ts := by
    rw [hts]
    simp
  intro heq
  exact hne (congrArg Prod.fst (List.inj_on_of_nodup_map h.apart hmem hown heq))

/-- One store is replaced after it has written its file. -/
theorem set (h : InUse m (ts, w)) (hst : ts.lookup table = some st) (ht : m.lookup table = some t)
    (hr : Store.Rewrites w.files st.path w'.files) {rows : Rows} (hpath : st'.path = st.path)
    (hst' : Store.Holds w'.files st' { t with rows }) :
    InUse (Keyed.set table { t with rows } m) (Keyed.set table st' ts, w') where
  holds := by
    refine h.holds.update (h.holds.keys_eq ▸ h.names) hst' fun other st'' t' hmem hne hholds => ?_
    obtain ⟨handle, records, ho, hrows⟩ := hholds
    exact ⟨handle, records, ho.beside hr (h.openFile_ne hst hmem hne), hrows⟩
  names := by
    rw [Keyed.keys_set_of_mem (Keyed.mem_keys_of_lookup ht)]
    exact h.names
  apart := by
    have hsame : (Keyed.set table st' ts).map (fun t => w'.files.openFile t.2.path) =
        ts.map fun t => w.files.openFile t.2.path := by
      simp only [hr.openFile_eq]
      refine Keyed.map_set _ (fun old hold => ?_) (Keyed.mem_keys_of_lookup hst)
      obtain rfl : st = old := Option.some.inj (hst.symm.trans hold)
      rw [hpath]
    rw [hsame]
    exact h.apart

/-- Work on one of the stores comes to what it comes to on the rows of its table. -/
theorem run_on (h : InUse m (ts, w)) (ht : m.lookup table = some t) {x : Work Store α}
    {f : Rows → Except Fault (α × Rows)}
    (hx : ∀ {path st h w records}, Store.Opened t.schema path st h w.files records →
      Store.Ends t.schema path w.files records (x.run (st, w)) (f (liveRows records))) :
    ∃ y, (on table x).run (ts, w) = ((f t.rows).map Prod.fst, y) ∧
      InUse (after table t m (f t.rows)) y ∧ ∃ path, Store.Rewrites w.files path y.2.files := by
  obtain ⟨st, hst, handle, records, ho, hrows⟩ := h.exists_holds ht
  have hends := hx ho
  rw [hrows] at hends
  rw [Tables.run_on hst x]
  generalize x.run (st, w) = ending at hends ⊢
  generalize f t.rows = expected at hends ⊢
  cases hends with
  | @error e st' handle' w' ho' hfiles =>
    have hset : InUse (Keyed.set table { t with rows := t.rows } m) (Keyed.set table st' ts, w') :=
      h.set hst ht (hfiles.symm ▸ .same) ho'.place
        ⟨handle', records, ho'.place.symm ▸ ho', hrows⟩
    rw [Keyed.set_of_lookup ht] at hset
    exact ⟨_, rfl, hset, st.path, hfiles.symm ▸ .same⟩
  | @ok a st' handle' w' records' ho' hrewrites =>
    have hset := h.set hst ht hrewrites ho'.place
      ⟨handle', records', ho'.place.symm ▸ ho', rfl⟩
    exact ⟨_, rfl, hset, st.path, hrewrites⟩

/-- One more store, whose file is not that of another one. -/
theorem concat (h : InUse m (ts, w)) (hg : Grown w.files w'.files) (hnew : name ∉ Keyed.keys m)
    (hst : Store.Holds w'.files st t)
    (hown : ∀ t ∈ ts, w'.files.openFile t.2.path ≠ w'.files.openFile st.path) :
    InUse (m ++ [(name, t)]) (ts ++ [(name, st)], w') where
  holds := by
    refine Keyed.Match.concat (h.holds.mono fun _ _ _ _ hholds => ?_) hst
    obtain ⟨handle, records, ho, hrows⟩ := hholds
    exact ⟨handle, records, ho.grown hg, hrows⟩
  names := by
    rw [Keyed.keys, List.map_append]
    exact h.names.append (List.nodup_singleton _) (List.disjoint_singleton.mpr hnew)
  apart := by
    rw [List.map_append, List.nodup_append]
    refine ⟨?_, List.nodup_singleton _, ?_⟩
    · have hsame : ts.map (fun t => w'.files.openFile t.2.path) =
          ts.map fun t => w.files.openFile t.2.path := by
        refine List.map_congr_left fun x hx => ?_
        obtain ⟨t', handle, records, ho, -⟩ := h.holds_of_mem hx
        rw [(hg.openFile ho.opened).1, ho.opened]
      rw [hsame]
      exact h.apart
    · intro a ha b hb
      obtain ⟨x, hx, rfl⟩ := List.mem_map.mp ha
      rw [List.map_singleton, List.mem_singleton] at hb
      rw [hb]
      exact hown x hx

end InUse

/-! ## What can be asked of them -/

end Tables

/-- An operation on the rows of a table, which a failure leaves as they are. -/
def Memory.Tables.ask (table : String) (op : Operation) (m : Memory.Tables) :
    Except Fault Answer × Memory.Tables :=
  match m.lookup table with
  | some t => ((op.onFile t.schema t.rows).map Prod.fst,
      Tabulary.Tables.after table t m (op.onFile t.schema t.rows))
  | none => (.error (.engine (.noTable table)), m)

namespace Memory.Tables

/-- No operation changes a schema. -/
theorem schema_ask (table : String) (op : Operation) (m : Memory.Tables) (name : String) :
    ((m.ask table op).2.lookup name).map (·.schema) = (m.lookup name).map (·.schema) := by
  unfold ask
  cases ht : m.lookup table with
  | none => rfl
  | some t =>
    dsimp only
    generalize op.onFile t.schema t.rows = result
    cases result with
    | error e => rfl
    | ok x =>
      show ((Keyed.set table _ m).lookup name).map _ = _
      rw [Keyed.lookup_set]
      split
      · rename_i heq
        rw [eq_of_beq heq, ht]
        rfl
      · rfl

end Memory.Tables

namespace Tables

variable {m : Memory.Tables} {ts : Tables} {w w' : World} {name table : String}
  {x : Tables × World}

theorem InUse.run_ask (h : InUse m (ts, w)) (table : String) (op : Operation) :
    ∃ y, (on table op.run).run (ts, w) = ((m.ask table op).1, y) ∧
      InUse (m.ask table op).2 y ∧
      ∃ path, Store.Rewrites w.files path y.2.files := by
  unfold Memory.Tables.ask
  cases ht : m.lookup table with
  | none =>
    exact ⟨(ts, w), Attempt.run_bind_of_error (Tables.run_get_none (h.lookup_none ht)), h, [],
      .same⟩
  | some t =>
    exact h.run_on (f := fun rows => op.onFile t.schema rows) ht fun ho =>
      Operation.run_ends_onFile ho op

/-- Stores that have been opened one after another, each on a file that was missing or empty and
that no other store has, and been asked for anything in between; and the tables that they show. -/
inductive Reached : Memory.Tables → Tables × World → Prop
  | none {w : World} (sane : w.files.Sane) : Reached [] ([], w)
  | opened {m : Memory.Tables} {ts : Tables} {w w' : World} {name : String} {path : Path}
      {s : Schema} {st : Store} (reached : Reached m (ts, w)) (new : name ∉ Keyed.keys m)
      (vacant : w.files.Vacant path)
      (run : (Store.openFile s path : Work Unit Store).run ((), w) = (.ok st, ((), w')))
      (own : ∀ t ∈ ts, w'.files.openFile t.2.path ≠ w'.files.openFile path) :
      Reached (m ++ [(name, ⟨s, []⟩)]) (ts ++ [(name, st)], w')
  | asked {m : Memory.Tables} {x : Tables × World} (reached : Reached m x) (table : String)
      (op : Operation) : Reached (m.ask table op).2 ((on table op.run).run x).2

theorem Reached.inUse (h : Reached m x) : InUse m x ∧ x.2.files.Sane := by
  induction h with
  | none sane => exact ⟨⟨.nil, List.nodup_nil, List.nodup_nil⟩, sane⟩
  | @opened m ts w w' name path s st reached new vacant run own ih =>
    obtain ⟨hin, hs⟩ := ih
    obtain ⟨fs, node, hreadies, hopen, hempty⟩ := vacant.readies
    have hlaid : Laid s 0 [] (fs.nodeBytes node) := hempty ▸ Laid.nil 0
    obtain ⟨w₁, hrun, hfiles, ho⟩ :=
      Store.run_openFile () hreadies hopen hlaid (Table.holds_empty s).distinct
    rw [run] at hrun
    cases hrun
    have hgrown : Grown w.files w'.files := hfiles ▸ hreadies.grown hs
    exact ⟨hin.concat hgrown new ⟨_, [], ho, rfl⟩ own, hgrown.sane⟩
  | @asked m x reached table op ih =>
    obtain ⟨ts, w⟩ := x
    obtain ⟨y, hrun, hin, path, hrewrites⟩ := ih.1.run_ask table op
    rw [hrun]
    exact ⟨hin, hrewrites.sane ih.2⟩

theorem Reached.exists_asked (h : Reached m x) (table : String) (ops : List Operation) :
    ∃ x', Reached (ops.foldl (fun m op => (m.ask table op).2) m) x' := by
  induction ops generalizing m x with
  | nil => exact ⟨x, h⟩
  | cons op ops ih => exact ih (h.asked table op)

/-- A first store. -/
theorem exists_reached (s : Schema) {path : Path} (hv : w.files.Vacant path) (hs : w.files.Sane)
    (name : String) :
    ∃ st w', (Store.openFile s path : Work Unit Store).run ((), w) = (.ok st, ((), w')) ∧
      Reached [(name, ⟨s, []⟩)] ([(name, st)], w') := by
  obtain ⟨st, h, w', hrun, -⟩ := Store.exists_opened s hv
  exact ⟨st, w', hrun,
    .opened (.none hs) List.not_mem_nil hv hrun fun _ ht => absurd ht List.not_mem_nil⟩

end Tables
end Tabulary
