import Tabulary.Proofs.Record.RoundTrip
import Tabulary.Proofs.Store.Reading
import Tabulary.Proofs.Store.Writing

/-!
Runs of operations on a store.  Main statements: from a missing or empty file, whatever the
operations are and whichever of them fail, the file and the index agree (`runAll_sound`), and
every operation answers as it would on the list of the rows (`runAll_answers`).
-/

namespace Tabulary

open Record Store

/-- What can be asked of a store. -/
inductive Operation where
  | insert (r : Row)
  | update (r : Row)
  | updateValues (id : Value) (changes : List (String × Value))
  | delete (id : Value)
  | select (id : Value)
  | selectAll
  | rowCount
  | rebuild
  | reopen
deriving DecidableEq, Repr

inductive Answer where
  | done
  | row (r : Row)
  | found (r : Option Row)
  | rows (rows : List Row)
  | count (n : Nat)
deriving DecidableEq, Repr

namespace Operation

/-- All texts that come with the operation are short. -/
def Short : Operation → Prop
  | insert r => r.Short
  | update r => r.Short
  | updateValues _ changes => ∀ f ∈ changes, f.2.Short
  | _ => True

instance (op : Operation) : Decidable op.Short := by
  cases op <;> (unfold Short; infer_instance)

def run : Operation → Work Store Answer
  | insert r => do Store.insert r; return .done
  | update r => do Store.update r; return .done
  | updateValues id changes => do return .row (← Store.updateValues id changes)
  | delete id => do Store.delete id; return .done
  | select id => do return .found (← Store.select id)
  | selectAll => do return .rows (← Store.selectAll)
  | rowCount => do return .count (← Work.state).rowCount
  | rebuild => do Store.rebuild; return .done
  | reopen => do Store.reopen; return .done

/-- The same operation on the list of the rows. -/
def onRows (s : Schema) (rows : Rows) : Operation → Except Fault (Answer × Rows)
  | insert r => (rows.insert s r).map fun rows => (.done, rows)
  | update r => (rows.update s r).map fun rows => (.done, rows)
  | updateValues id changes => (rows.updateValues s id changes).map fun x => (.row x.1, x.2)
  | delete id => (rows.delete id).map fun rows => (.done, rows)
  | select id => .ok (.found (rows.find id), rows)
  | selectAll => .ok (.rows rows, rows)
  | rowCount => .ok (.count rows.length, rows)
  | rebuild => .ok (.done, rows)
  | reopen => .ok (.done, rows)

/-- Operations one after another, each with its result or its failure. -/
def runAll (ops : List Operation) : Work Store (List (Except Fault Answer)) :=
  ops.mapM fun op => op.run.outcome

/-- The results of operations on a list of rows, which a failure leaves as it is, and the rows at
the end. -/
def replay (s : Schema) (rows : Rows) : List Operation → List (Except Fault Answer) × Rows
  | [] => ([], rows)
  | op :: ops =>
    match op.onRows s rows with
    | .ok (a, rows') => (.ok a :: (replay s rows' ops).1, (replay s rows' ops).2)
    | .error e => (.error e :: (replay s rows ops).1, (replay s rows ops).2)

variable {s : Schema} {path : Path} {st : Store} {h : Handle} {w : World} {records : List Stored}

theorem map_map {ε α β γ : Type} (x : Except ε α) (f : α → β) (g : β → γ) :
    (x.map f).map g = x.map fun a => g (f a) := by
  cases x <;> rfl

/-! ## One operation -/

/-- The same operation on the rows of a file, which holds no row that has no record. -/
def onFile (s : Schema) (rows : Rows) : Operation → Except Fault (Answer × Rows)
  | insert r => (rows.insert s r >>= r.recorded s).map fun rows => (.done, rows)
  | update r => (rows.update s r >>= r.recorded s).map fun rows => (.done, rows)
  | updateValues id changes =>
    (rows.updateValues s id changes >>= fun x => x.1.recorded s x).map fun x => (.row x.1, x.2)
  | op => op.onRows s rows

/-- Every operation ends as on the rows of the file. -/
theorem run_ends_onFile (ho : Opened s path st h w.files records) (op : Operation) :
    Ends s path w.files records (op.run.run (st, w)) (op.onFile s (liveRows records)) := by
  cases op with
  | insert r =>
    have hends := (ho.insert_ends r).andReturn fun _ => Answer.done
    rw [map_map] at hends
    exact hends
  | update r =>
    have hends := (ho.update_ends r).andReturn fun _ => Answer.done
    rw [map_map] at hends
    exact hends
  | updateValues id changes => exact (ho.updateValues_ends id changes).andReturn Answer.row
  | delete id =>
    have hends := (ho.delete_ends id).andReturn fun _ => Answer.done
    rw [map_map] at hends
    exact hends
  | select id => exact (ho.select_ends id).andReturn Answer.found
  | selectAll => exact ho.selectAll_ends.andReturn Answer.rows
  | rowCount =>
    show Ends s path w.files records (.ok (Answer.count st.rowCount), (st, w)) _
    rw [ho.rowCount_eq]
    exact Ends.ok ho Rewrites.same
  | rebuild => exact ho.rebuild_ends.andReturn fun _ => Answer.done
  | reopen => exact ho.reopen_ends.andReturn fun _ => Answer.done

theorem changed_short {x : Row} (hx : x.Short) {changes : List (String × Value)}
    (hs : ∀ f ∈ changes, f.2.Short) : (x.changed changes).Short := by
  intro f hf
  rcases Table.mem_or_mem_of_overwrite hf with hf | hf
  · exact hx f hf
  · exact hs f hf

theorem bind_recorded {α : Type} {x : Except Fault α} (f : α → Row)
    (h : ∀ a, x = .ok a → (f a).Fits s ∧ (f a).Short) : (x >>= fun a => (f a).recorded s a) =
    x := by
  cases x with
  | error e => rfl
  | ok a =>
    obtain ⟨hf, hs⟩ := h a rfl
    obtain ⟨tail, henc, -⟩ := exists_encode hf hs
    show (f a).recorded s a = _
    unfold Row.recorded
    rw [henc]
    rfl

/-- Rows of short texts have records. -/
theorem onFile_eq_onRows {rows : Rows} (hrows : ∀ x ∈ rows, x.Short) {op : Operation}
    (hs : op.Short) : op.onFile s rows = op.onRows s rows := by
  cases op with
  | insert r =>
    refine congrArg (Except.map _) (bind_recorded (fun _ => r) fun rows' h => ⟨?_, hs⟩)
    exact Rows.fits_of_insert h
  | update r =>
    refine congrArg (Except.map _) (bind_recorded (fun _ => r) fun rows' h => ⟨?_, hs⟩)
    exact Rows.fits_of_update h
  | updateValues id changes =>
    refine congrArg (Except.map _) (bind_recorded Prod.fst fun a h => ?_)
    obtain ⟨x, hx, heq, hfits⟩ := Rows.exists_of_updateValues h
    exact ⟨hfits, heq ▸ changed_short (hrows x hx) hs⟩
  | delete id => rfl
  | select id => rfl
  | selectAll => rfl
  | rowCount => rfl
  | rebuild => rfl
  | reopen => rfl

/-- Every operation ends as on the list of the rows. -/
theorem run_ends (ho : Opened s path st h w.files records) {op : Operation} (hs : op.Short) :
    Ends s path w.files records (op.run.run (st, w)) (op.onRows s (liveRows records)) := by
  have hrows : ∀ x ∈ liveRows records, x.Short := by
    intro x hx
    obtain ⟨y, hy, rfl⟩ := List.mem_map.mp hx
    exact ho.holds.laid.short_of_mem (List.mem_of_mem_filter hy)
  rw [← onFile_eq_onRows hrows hs]
  exact run_ends_onFile ho op

/-! ## Runs -/

theorem run_runAll_cons {op : Operation} {ops : List Operation} {y y' y'' : Store × World}
    {result : Except Fault Answer} {answers : List (Except Fault Answer)}
    (h : op.run.run y = (result, y')) (hrest : (runAll ops).run y' = (.ok answers, y'')) :
    (runAll (op :: ops)).run y = (.ok (result :: answers), y'') := by
  have hop : op.run.outcome.run y = (.ok result, y') := by
    show (Except.ok (op.run.run y).1, (op.run.run y).2) = _
    rw [h]
  unfold runAll at hrest ⊢
  rw [List.mapM_cons, Attempt.run_bind_of_ok hop, Attempt.run_bind_of_ok hrest]
  rfl

/-- Operations one after another answer as on the list of the rows, and leave the store fit for
more. -/
theorem runAll_ends (ho : Opened s path st h w.files records) {ops : List Operation}
    (hs : ∀ op ∈ ops, op.Short) :
    ∃ st' h' w' records',
      (runAll ops).run (st, w) = (.ok (replay s (liveRows records) ops).1, (st', w')) ∧
      Opened s path st' h' w'.files records' ∧
      liveRows records' = (replay s (liveRows records) ops).2 := by
  induction ops generalizing st h w records with
  | nil => exact ⟨st, h, w, records, rfl, ho, rfl⟩
  | cons op ops ih =>
    have hends := run_ends ho (hs op List.mem_cons_self)
    have hrest : ∀ op ∈ ops, op.Short := fun op' hop => hs op' (List.mem_cons_of_mem op hop)
    unfold replay
    generalize hresult : op.run.run (st, w) = result at hends
    generalize op.onRows s (liveRows records) = expected at hends ⊢
    cases hends with
    | @error e st' h' w' ho' hfiles =>
      obtain ⟨st'', h'', w'', records'', hrun, ho'', hrows⟩ := ih ho' hrest
      exact ⟨st'', h'', w'', records'', run_runAll_cons hresult hrun, ho'', hrows⟩
    | @ok a st' h' w' records' ho' hfiles =>
      obtain ⟨st'', h'', w'', records'', hrun, ho'', hrows⟩ := ih ho' hrest
      exact ⟨st'', h'', w'', records'', run_runAll_cons hresult hrun, ho'', hrows⟩

/-- Whatever operations are run, and whichever fail, the store stays one in use. -/
theorem runAll_opened (ho : Opened s path st h w.files records) (ops : List Operation) :
    ∃ answers st' h' w' records', (runAll ops).run (st, w) = (.ok answers, (st', w')) ∧
      Opened s path st' h' w'.files records' := by
  induction ops generalizing st h w records with
  | nil => exact ⟨[], st, h, w, records, rfl, ho⟩
  | cons op ops ih =>
    have hends := run_ends_onFile ho op
    generalize hresult : op.run.run (st, w) = result at hends
    generalize op.onFile s (liveRows records) = expected at hends
    cases hends with
    | @error e st' h' w' ho' hfiles =>
      obtain ⟨answers, st'', h'', w'', records'', hrun, ho''⟩ := ih ho'
      exact ⟨_, st'', h'', w'', records'', run_runAll_cons hresult hrun, ho''⟩
    | @ok a st' h' w' records' ho' hfiles =>
      obtain ⟨answers, st'', h'', w'', records'', hrun, ho''⟩ := ih ho'
      exact ⟨_, st'', h'', w'', records'', run_runAll_cons hresult hrun, ho''⟩

end Operation

/-! ## A store from its first opening on -/

/-- The file is the encodings of its records, the index maps the key of each live record to its
first byte and has in use what the live rows hold in the unique columns, and the live rows are
distinct. -/
structure Store.Sound (s : Schema) (st : Store) (file : Bytes) (records : List Stored) : Prop where
  pieces : ∃ pieces, records.mapM (fun x => encode s x.row x.row.deleted) = .ok pieces ∧
    pieces.flatten = file ∧ place 0 (records.map (·.row)) pieces = records
  stop : st.index.stop = file.length
  keys : (Keyed.keys st.index.offsets).Nodup
  offsets : ∀ k offset, (k, offset) ∈ st.index.offsets ↔
    ∃ x ∈ live records, x.row.id = .int k ∧ x.offset = offset
  ids : ((live records).map (·.row.id)).Nodup
  columns : Keyed.keys st.index.used = s.uniqueColumns.map (·.name)
  used : ∀ c ∈ s.uniqueColumns, ∀ v, v ∈ st.index.usedIn c.name ↔
    ∃ x ∈ live records, x.row.value? c.name = some v
  unique : ∀ c ∈ s.uniqueColumns, ((live records).map (·.row.value? c.name)).Nodup

section

variable {s : Schema} {path : Path} {st : Store} {h : Handle} {w : World} {records : List Stored}

theorem Store.Opened.id_of_live (ho : Opened s path st h w.files records) {x : Stored}
    (hx : x ∈ live records) : x.row.id = .int x.row.key := by
  obtain ⟨own, image⟩ := ho.holds.laid.image_of_mem (List.mem_of_mem_filter hx)
  obtain ⟨n, hid, -⟩ := image.id_eq_int
  rw [Row.key, hid]
  rfl

theorem Store.Opened.value?_of_live (ho : Opened s path st h w.files records) {x : Stored}
    (hx : x ∈ live records) {c : Column} (hc : c ∈ s.uniqueColumns) :
    x.row.value? c.name = some (x.row.held c.name) := by
  have hfits := ho.holds.fits_of_live hx
  rw [show st.table.schema = s from ho.schema] at hfits
  exact Row.value?_eq_some_held (hfits.accepted c (s.mem_columns_of_unique hc))

theorem Store.Opened.sound (ho : Opened s path st h w.files records) :
    Sound s st (w.files.nodeBytes h.node) records := by
  have hschema : st.table.schema = s := ho.schema
  have hindex : st.index = Index.ofLive s (live records) (w.files.nodeBytes h.node).length := by
    rw [← hschema]
    exact ho.holds.index
  have hdistinct := ho.holds.distinct
  have hlaid := ho.holds.laid
  rw [hschema] at hdistinct hlaid
  have hkeys : (live records).map (·.row.id) = ((liveRows records).map (·.key)).map
      Value.int := by
    rw [liveRows, List.map_map, List.map_map]
    exact List.map_congr_left fun x hx => ho.id_of_live hx
  exact {
    pieces := hlaid.exists_pieces
    stop := by rw [hindex]; rfl
    keys := by
      rw [hindex, Index.keys_offsets_ofLive]
      exact hdistinct.keys
    offsets := fun k offset => by
      rw [hindex, Index.ofLive, List.mem_map]
      constructor
      · rintro ⟨x, hx, heq⟩
        cases heq
        exact ⟨x, hx, ho.id_of_live hx, rfl⟩
      · rintro ⟨x, hx, hid, rfl⟩
        rw [ho.id_of_live hx] at hid
        exact ⟨x, hx, by rw [Value.int.inj hid]⟩
    ids := by
      rw [hkeys]
      exact hdistinct.keys.map fun m n heq => Value.int.inj heq
    columns := by
      rw [hindex, Keyed.keys, Index.ofLive, List.map_map]
      rfl
    used := fun c hc v => by
      rw [hindex, Index.usedIn_ofLive hc, List.mem_map]
      constructor
      · rintro ⟨x, hx, rfl⟩
        exact ⟨x, hx, ho.value?_of_live hx hc⟩
      · rintro ⟨x, hx, hv⟩
        rw [ho.value?_of_live hx hc] at hv
        exact ⟨x, hx, Option.some.inj hv⟩
    unique := fun c hc => by
      have hvalues : (live records).map (·.row.value? c.name) =
          ((liveRows records).map (·.held c.name)).map some := by
        rw [liveRows, List.map_map, List.map_map]
        exact List.map_congr_left fun x hx => ho.value?_of_live hx hc
      rw [hvalues]
      exact (hdistinct.values c hc).map fun a b heq => Option.some.inj heq }

/-- Opening a table for the first time succeeds, and gives a store without rows. -/
theorem Store.exists_opened (s : Schema) (hv : w.files.Vacant path) :
    ∃ st h w', (openFile s path : Work Unit Store).run ((), w) = (.ok st, ((), w')) ∧
      Opened s path st h w'.files [] := by
  obtain ⟨fs, node, hreadies, hopen, hempty⟩ := hv.readies
  have hl : Laid s 0 [] (fs.nodeBytes node) := hempty ▸ Laid.nil 0
  have hd : Rows.Distinct s (liveRows []) := (Table.holds_empty s).distinct
  obtain ⟨w', hrun, -, ho⟩ := run_openFile () hreadies hopen hl hd
  exact ⟨_, _, w', hrun, ho⟩

end

namespace Sample

/-- A table that is not there yet, in an empty file system. -/
def world : World := World.empty "/srv/"

def table : Path := ["people.tbl"]

theorem vacant : world.files.Vacant table :=
  ⟨world.files, by rw [Files.ensureDirectory]; rfl, Or.inl ⟨rfl, _, rfl⟩⟩

/-- A value that is taken and then given up, a key that is used again, and a second opening. -/
def errands : List Operation :=
  [.insert (person 1 "ann" 30), .insert (person 2 "ann" 5),
    .updateValues (.int 1) [("name", .text "bo")], .insert (person 2 "ann" 5), .delete (.int 1),
    .reopen, .insert (person 1 "bo" 7), .selectAll]

end Sample

namespace Operation

/-- Whatever operations are run on a table that begins with a missing or empty file, and whichever
of them fail, the file and the index agree at the end. -/
theorem runAll_sound (s : Schema) (path : Path) (w : World) (hv : w.files.Vacant path)
    (ops : List Operation) (hs : ∀ op ∈ ops, op.Short) :
    ∃ st w₁ answers st' w' file records,
      (openFile s path : Work Unit Store).run ((), w) = (.ok st, ((), w₁)) ∧
      (runAll ops).run (st, w₁) = (.ok answers, (st', w')) ∧
      w'.files.read path = .ok file ∧ Sound s st' file records := by
  obtain ⟨st, h, w₁, hopen, ho⟩ := Store.exists_opened s hv
  obtain ⟨st', h', w', records, hrun, ho', -⟩ := runAll_ends ho hs
  have hread := ho'.read_eq
  rw [ho'.place] at hread
  exact ⟨st, w₁, _, st', w', _, records, hopen, hrun, hread, ho'.sound⟩

theorem runAll_sound_errands :
    Sample.world.files.Vacant Sample.table ∧ (∀ op ∈ Sample.errands, op.Short) ∧
    ∃ st w₁ answers st' w' file records,
      (openFile Sample.people Sample.table : Work Unit Store).run ((), Sample.world) =
        (.ok st, ((), w₁)) ∧
      (runAll Sample.errands).run (st, w₁) = (.ok answers, (st', w')) ∧
      w'.files.read Sample.table = .ok file ∧ Sound Sample.people st' file records := by
  have hs : ∀ op ∈ Sample.errands, op.Short := by decide
  exact ⟨Sample.vacant, hs,
    runAll_sound Sample.people Sample.table Sample.world Sample.vacant Sample.errands hs⟩

/-- Every operation on such a table answers as it would on the list of the rows.  Errors are raised
by one rule on both sides: one that is to show an integer too long to be written is raised as that
failure. -/
theorem runAll_answers (s : Schema) (path : Path) (w : World) (hv : w.files.Vacant path)
    (ops : List Operation) (hs : ∀ op ∈ ops, op.Short) :
    ∃ st w₁ st' w',
      (openFile s path : Work Unit Store).run ((), w) = (.ok st, ((), w₁)) ∧
      (runAll ops).run (st, w₁) = (.ok (replay s [] ops).1, (st', w')) := by
  obtain ⟨st, h, w₁, hopen, ho⟩ := Store.exists_opened s hv
  obtain ⟨st', h', w', records, hrun, -, -⟩ := runAll_ends ho hs
  exact ⟨st, w₁, st', w', hopen, hrun⟩

theorem runAll_answers_errands :
    Sample.world.files.Vacant Sample.table ∧ (∀ op ∈ Sample.errands, op.Short) ∧
    ∃ st w₁ st' w',
      (openFile Sample.people Sample.table : Work Unit Store).run ((), Sample.world) =
        (.ok st, ((), w₁)) ∧
      (runAll Sample.errands).run (st, w₁) =
        (.ok [.ok .done, .error (.engine (.valueTaken "name" (.text "ann"))),
          .ok (.row (Sample.person 1 "bo" 30)), .ok .done, .ok .done, .ok .done, .ok .done,
          .ok (.rows [Sample.person 2 "ann" 5, Sample.person 1 "bo" 7])], (st', w')) := by
  have hs : ∀ op ∈ Sample.errands, op.Short := by decide
  have hreplay : (replay Sample.people [] Sample.errands).1 =
      [.ok .done, .error (.engine (.valueTaken "name" (.text "ann"))),
        .ok (.row (Sample.person 1 "bo" 30)), .ok .done, .ok .done, .ok .done, .ok .done,
        .ok (.rows [Sample.person 2 "ann" 5, Sample.person 1 "bo" 7])] := by decide
  have hrun := runAll_answers Sample.people Sample.table Sample.world Sample.vacant
    Sample.errands hs
  rw [hreplay] at hrun
  exact ⟨Sample.vacant, hs, hrun⟩

end Operation
end Tabulary
