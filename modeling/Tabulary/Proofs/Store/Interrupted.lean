import Tabulary.Proofs.Store.Commit
import Tabulary.Proofs.Store.Torn

/-!
Operations that are interrupted while they write.

`Stage` lists the bytes that a file passes through while a record is taken out of it and a row is
appended to it, each with the live records that it stands for.  These are the points that the
patches of a change go through, and opening the table on any of them gives a sound store of exactly
these live records (`interrupted`): the new row is there once the last byte of its record is, and no
row but the one that the operation was about has moved or changed.
-/

namespace Tabulary
namespace Store

open Record

/-- The record of a row behind a file, once all of its bytes are there. -/
def arrived (s : Schema) (file : Bytes) (r : Row) (bytes : Bytes) (k : Nat) : List Stored :=
  if bytes.length ≤ k then [⟨file.length, bytes.length, r.stored s false⟩] else []

/-- What a file passes through while a record is taken out of it and a row is appended to it, with
the live records at each point. -/
inductive Stage (s : Schema) (file : Bytes) (before : List Stored) :
    Option Stored → Option Row → Bytes → List Stored → Prop
  | untouched (old : Option Stored) (new : Option Row) : Stage s file before old new file before
  | appended {r : Row} {bytes : Bytes} (encoded : encode s r false = .ok bytes) (k : Nat) :
      Stage s file before none (some r) (file ++ bytes.take k) (before ++ arrived s file r bytes k)
  | deleted (x : Stored) :
      Stage s file before (some x) none (file.set x.offset 1) (before.filter (· ≠ x))
  | replaced (x : Stored) {r : Row} {bytes : Bytes} (encoded : encode s r false = .ok bytes)
      (k : Nat) :
      Stage s file before (some x) (some r) (file.set x.offset 1 ++ bytes.take k)
        (before.filter (· ≠ x) ++ arrived s file r bytes k)

variable {s : Schema} {path : Path} {st : Store} {h : Handle} {w : World}
  {records xs ys : List Stored} {x : Stored} {r : Row} {file : Bytes}

/-! ## Opening a file at a point between -/

/-- The records that lie whole within a file that grows by a record. -/
theorem whole_arrived {bytes : Bytes} (hl : Laid s 0 records file) (k : Nat) :
    whole (records ++ [⟨file.length, bytes.length, r.stored s false⟩]) (file.length + k) =
      records ++ arrived s file r bytes k := by
  have hall : whole records (file.length + k) = records := by
    refine List.filter_eq_self.mpr fun x hx => ?_
    have hstop := (hl.encode_of_mem hx []).1
    rw [decide_eq_true_eq]
    omega
  have hone : whole [⟨file.length, bytes.length, r.stored s false⟩] (file.length + k) =
      arrived s file r bytes k := by
    unfold whole arrived Stored.stop
    by_cases hk : bytes.length ≤ k
    · rw [if_pos hk, List.filter_cons_of_pos (by simpa using hk)]
      rfl
    · rw [if_neg hk, List.filter_cons_of_neg (by simpa using hk)]
      rfl
  rw [whole, List.filter_append]
  exact congrArg₂ (· ++ ·) hall hone

theorem live_arrived (s : Schema) (file : Bytes) (r : Row) (bytes : Bytes) (k : Nat) :
    live (arrived s file r bytes k) = arrived s file r bytes k := by
  unfold arrived
  by_cases hk : bytes.length ≤ k
  · rw [if_pos hk]
    rfl
  · rw [if_neg hk]
    rfl

/-- A file holds the records of one reading only. -/
theorem laid_unique {records' : List Stored} (hl : Laid s 0 records file)
    (hl' : Laid s 0 records' file) : records = records' := by
  have hscan := hl.scan
  rw [hl'.scan] at hscan
  exact (congrArg Scan.records hscan).symm

/-- Of live records that are distinct, all but one are those before it and those behind it. -/
theorem live_without {t : Table} (h : t.Holds (xs ++ x :: ys) file) (hx : x.row.deleted = false) :
    (live (xs ++ x :: ys)).filter (· ≠ x) = live xs ++ live ys := by
  have hkeys := h.distinct.keys
  have hsplit : live (xs ++ x :: ys) = live xs ++ x :: live ys := by
    rw [live_append, live_cons_of_live hx]
  rw [liveRows, hsplit, List.map_map] at hkeys
  have hnodup : (live xs ++ x :: live ys).Nodup := List.Nodup.of_map _ hkeys
  obtain ⟨-, hys, hxs⟩ := List.nodup_append.mp hnodup
  have hfront : (live xs).filter (· ≠ x) = live xs := by
    refine List.filter_eq_self.mpr fun y hy => ?_
    simpa using hxs y hy x List.mem_cons_self
  have hback : (live ys).filter (· ≠ x) = live ys := by
    refine List.filter_eq_self.mpr fun y hy => ?_
    have hne : y ≠ x := fun heq => (List.nodup_cons.mp hys).1 (heq ▸ hy)
    simpa using hne
  rw [hsplit, List.filter_append, List.filter_cons_of_neg (by simp), hfront, hback]

/-- Opening the table on some files gives a sound store of exactly these live records. -/
def Reopens (s : Schema) (path : Path) (u : World) (torn : Files) (after : List Stored) : Prop :=
  ∃ st u₁ kept records,
    (openFile s path : Work Unit Store).run ((), { u with files := torn }) =
    (.ok st, ((), u₁)) ∧
    u₁.files.read path = .ok kept ∧ Sound s st kept records ∧ live records = after ∧
    (selectAll.run (st, u₁)).1 = .ok (after.map (·.row))

theorem reopens_cut (hl : Laid s 0 records file) (hd : Rows.Distinct s (liveRows records)) (k : Nat)
    {u : World} {torn : Files} (hw : u.files.write path (file.take k) = .ok torn) :
    Reopens s path u torn (live (whole records k)) := by
  obtain ⟨st, u₁, clean, u₂, hopen, hread, hsound, hselect, -⟩ := recovers_cut hl hd k hw
  exact ⟨st, u₁, _, _, hopen, hread, hsound, rfl, hselect⟩

/-- A file that ends with its last record is opened with all its records. -/
theorem reopens_laid (hl : Laid s 0 records file) (hd : Rows.Distinct s (liveRows records))
    {u : World} {torn : Files} (hw : u.files.write path file = .ok torn) :
    Reopens s path u torn (live records) := by
  rw [← List.take_length (l := file)] at hw
  have hcut := reopens_cut hl hd file.length hw
  rwa [whole, List.filter_eq_self.mpr] at hcut
  intro x hx
  rw [decide_eq_true_eq]
  exact (hl.encode_of_mem hx []).1

/-- A file to which a row is being appended is opened with the row once its record is complete. -/
theorem reopens_appended {bytes : Bytes} (hl : Laid s 0 records file) (hr : r.Fits s)
    (henc : encode s r false = .ok bytes) {all : List Stored} (hall : Laid s 0 all (file ++ bytes))
    (hd : Rows.Distinct s (liveRows all)) (k : Nat) {u : World} {torn : Files}
    (hw : u.files.write path (file ++ bytes.take k) = .ok torn) :
    Reopens s path u torn (live records ++ arrived s file r bytes k) := by
  have hone := Laid.singleton (0 + file.length) (image_of_encode hr henc)
  have hboth := hl.append hone
  rw [Nat.zero_add] at hboth
  obtain rfl := laid_unique hall hboth
  have htake : (file ++ bytes).take (file.length + k) = file ++ bytes.take k := by
    rw [List.take_append, List.take_of_length_le (Nat.le_add_right _ k), Nat.add_sub_cancel_left]
  rw [← htake] at hw
  have hcut := reopens_cut hboth hd (file.length + k) hw
  rwa [whole_arrived hl, live_append, live_arrived] at hcut

/-! ## The points of a change -/

section stages

variable {t : Table} {c : Change} {image : Bytes} {before : List Stored}

theorem stop_eq_length (h : t.Holds records file) : t.index.stop = file.length := by
  rw [h.index]
  rfl

theorem passes_add (h : t.Holds records file) (hadd : t.add r = .ok c) :
    Patch.Passes c.patches file image ↔
      ∃ after, Stage t.schema file before none (some r) image after := by
  obtain ⟨bytes, henc, hpatches⟩ := Table.add_eq_ok hadd
  rw [hpatches, stop_eq_length h, Patch.passes_end]
  constructor
  · intro hpass
    obtain ⟨k, rfl⟩ := hpass
    exact ⟨_, Stage.appended henc k⟩
  · intro hstage
    obtain ⟨after, hstage⟩ := hstage
    cases hstage with
    | untouched => exact ⟨0, by rw [List.take_zero, List.append_nil]⟩
    | appended henc' k =>
      rw [henc] at henc'
      cases henc'
      exact ⟨k, rfl⟩

theorem passes_delete (h : t.Holds (xs ++ x :: ys) file) (hx : x.row.deleted = false)
    (hdelete : t.delete x.row = .ok c) :
    Patch.Passes c.patches file image ↔
      ∃ after, Stage t.schema file before (some x) none image after := by
  obtain ⟨offset, hoffset, hpatches⟩ := Table.delete_eq_ok hdelete
  rw [h.offset?_self hx] at hoffset
  cases hoffset
  rw [hpatches, Patch.passes_flag h.laid.offset_lt, Patch.passes_nil]
  constructor
  · intro hpass
    rcases hpass with rfl | rfl
    · exact ⟨_, Stage.untouched (some x) none⟩
    · exact ⟨_, Stage.deleted x⟩
  · intro hstage
    obtain ⟨after, hstage⟩ := hstage
    cases hstage with
    | untouched => exact Or.inl rfl
    | deleted => exact Or.inr rfl

theorem passes_replace (h : t.Holds (xs ++ x :: ys) file) (hx : x.row.deleted = false)
    (hreplace : t.replace x.row r = .ok c) :
    Patch.Passes c.patches file image ↔
      ∃ after, Stage t.schema file before (some x) (some r) image after := by
  obtain ⟨offset, bytes, hoffset, henc, hpatches⟩ := Table.replace_eq_ok hreplace
  rw [h.offset?_self hx] at hoffset
  cases hoffset
  have hlength : (file.set x.offset 1).length = file.length := List.length_set
  rw [hpatches, Patch.passes_flag h.laid.offset_lt, stop_eq_length h, ← hlength, Patch.passes_end]
  constructor
  · intro hpass
    rcases hpass with rfl | ⟨k, rfl⟩
    · exact ⟨_, Stage.untouched (some x) (some r)⟩
    · exact ⟨_, Stage.replaced x henc k⟩
  · intro hstage
    obtain ⟨after, hstage⟩ := hstage
    cases hstage with
    | untouched => exact Or.inl rfl
    | replaced _ henc' k =>
      rw [henc] at henc'
      cases henc'
      exact Or.inr ⟨k, rfl⟩

/-- Setting the flag of a live record leaves the others as they are. -/
theorem marked_laid (h : t.Holds (xs ++ x :: ys) file) (hx : x.row.deleted = false) :
    ∃ marked, Laid t.schema 0 marked (file.set x.offset 1) ∧
      Rows.Distinct t.schema (liveRows marked) ∧
      live marked = (live (xs ++ x :: ys)).filter (· ≠ x) := by
  obtain ⟨y, hy, hmarked, -⟩ := h.mark hx
  have hlaid := hmarked.laid
  rw [Patch.apply_flag h.laid.offset_lt] at hlaid
  refine ⟨xs ++ y :: ys, hlaid, hmarked.distinct, ?_⟩
  rw [live_without h hx, live_append, live_cons_of_deleted hy]

end stages

section committed

variable {op : Operation} {a : Answer} {old : Option Stored} {new : Option Row} {c : Change}
  {y y' : Store × World} {image : Bytes} {after : List Stored}

/-- A record that is taken out is one of the live ones. -/
theorem Committed.old_split (hc : Committed s y h records op a old new c y') (hx : x ∈ old) :
    ∃ xs ys, records = xs ++ x :: ys ∧ x.row.deleted = false := by
  have hmem : x ∈ live records := by
    have hcommits := hc.commits
    rw [Option.mem_def] at hx
    cases hcommits with
    | insert => cases hx
    | delete mem => exact Option.some.inj hx ▸ mem
    | update mem => exact Option.some.inj hx ▸ mem
    | updateValues mem => exact Option.some.inj hx ▸ mem
  exact split_of_mem_live hmem

theorem Committed.passes_iff (hc : Committed s (st, w) h records op a old new c y')
    (ho : Opened s path st h w.files records) :
    Patch.Passes c.patches (w.files.nodeBytes h.node) image ↔
      ∃ after, Stage s (w.files.nodeBytes h.node) (live records) old new image after := by
  have hsch : st.table.schema = s := ho.schema
  have hold := fun x (hx : x ∈ old) => hc.old_split hx
  have hcommits := hc.commits
  rw [← hsch]
  cases hcommits with
  | insert change => exact passes_add ho.holds change
  | @delete _ x _ _ _ change =>
    obtain ⟨xs, ys, rfl, hx⟩ := hold x rfl
    exact passes_delete ho.holds hx change
  | @update _ x _ _ _ change =>
    obtain ⟨xs, ys, rfl, hx⟩ := hold x rfl
    exact passes_replace ho.holds hx change
  | @updateValues _ _ x _ _ _ _ _ change =>
    obtain ⟨xs, ys, rfl, hx⟩ := hold x rfl
    exact passes_replace ho.holds hx change

/-- The file after an added row ends with its record. -/
theorem applyAll_add {t : Table} {file bytes : Bytes} (h : t.Holds records file)
    (hadd : t.add r = .ok c) (henc : encode t.schema r false = .ok bytes) :
    Patch.applyAll c.patches file = file ++ bytes := by
  obtain ⟨bytes', henc', hpatches⟩ := Table.add_eq_ok hadd
  rw [henc] at henc'
  cases henc'
  rw [hpatches, stop_eq_length h]
  exact Patch.apply_end file bytes

theorem applyAll_replace {t : Table} {file bytes : Bytes} (h : t.Holds (xs ++ x :: ys) file)
    (hx : x.row.deleted = false) (hreplace : t.replace x.row r = .ok c)
    (henc : encode t.schema r false = .ok bytes) :
    Patch.applyAll c.patches file = file.set x.offset 1 ++ bytes := by
  obtain ⟨offset, bytes', hoffset, henc', hpatches⟩ := Table.replace_eq_ok hreplace
  rw [h.offset?_self hx] at hoffset
  cases hoffset
  rw [henc] at henc'
  cases henc'
  have hlength : (file.set x.offset 1).length = file.length := List.length_set
  rw [hpatches, stop_eq_length h, ← hlength]
  show Patch.apply _ ((Table.flag x.offset true).apply file) = _
  rw [Patch.apply_flag h.laid.offset_lt, Patch.apply_end]

/-- Only replacing takes out one record and appends another. -/
theorem Committed.replace_eq_ok (hc : Committed s y h records op a (some x) (some r) c y') :
    y.1.table.replace x.row r = .ok c := by
  have hcommits := hc.commits
  cases hcommits with
  | update _ _ change => exact change
  | updateValues _ _ _ change => exact change

/-- What a change brings the file to on its way is opened as the store of its live records. -/
theorem Committed.reopens (hc : Committed s (st, w) h records op a old new c y')
    (ho : Opened s path st h w.files records)
    (hstage : Stage s (w.files.nodeBytes h.node) (live records) old new image after) {u : World}
    {torn : Files} (hw : u.files.write path image = .ok torn) : Reopens s path u torn after := by
  have hsch : st.table.schema = s := ho.schema
  have hlaid := ho.holds.laid
  have hdistinct := ho.holds.distinct
  rw [hsch] at hlaid hdistinct
  obtain ⟨all, hschema, hall⟩ := hc.holds
  have hlaid' := hall.laid
  have hdistinct' := hall.distinct
  rw [hschema] at hlaid' hdistinct'
  cases hstage with
  | untouched => exact reopens_laid hlaid hdistinct hw
  | @appended r bytes henc k =>
    have hcommits := hc.commits
    cases hcommits with
    | insert change =>
      rw [applyAll_add ho.holds change (hsch.symm ▸ henc)] at hlaid'
      exact reopens_appended hlaid (hc.fits r rfl) henc hlaid' hdistinct' k hw
  | deleted x =>
    obtain ⟨xs, ys, rfl, hx⟩ := hc.old_split rfl
    obtain ⟨marked, hmarked, hd, hlive⟩ := marked_laid ho.holds hx
    rw [hsch] at hmarked hd
    rw [← hlive]
    exact reopens_laid hmarked hd hw
  | @replaced x r bytes henc k =>
    obtain ⟨xs, ys, rfl, hx⟩ := hc.old_split rfl
    obtain ⟨marked, hmarked, -, hlive⟩ := marked_laid ho.holds hx
    rw [hsch] at hmarked
    rw [applyAll_replace ho.holds hx hc.replace_eq_ok (hsch.symm ▸ henc)] at hlaid'
    have hreopens := reopens_appended hmarked (hc.fits r rfl) henc hlaid' hdistinct' k hw
    rwa [hlive, arrived, List.length_set] at hreopens

end committed

/-- Whatever operations brought a table from a missing or empty file to its state, an operation that
then changes a row passes through the points of one change, and opening the table on the bytes of
any of these points gives a sound store of the live records that belong to it. -/
theorem interrupted (s : Schema) (path : Path) (w : World) (hv : w.files.Vacant path)
    (ops : List Operation) (op : Operation) (htarget : op.target?.isSome) {st st' st'' : Store}
    {w₁ w' w'' : World} {answers : List (Except Fault Answer)} {a : Answer}
    (hopen : (openFile s path : Work Unit Store).run ((), w) = (.ok st, ((), w₁)))
    (hrun : (Operation.runAll ops).run (st, w₁) = (.ok answers, (st', w')))
    (hop : op.run.run (st', w') = (.ok a, (st'', w''))) :
    ∃ file records old new c,
      w'.files.read path = .ok file ∧ Sound s st' file records ∧
      op.Commits st'.table (live records) a old new c ∧ st''.table = c.table ∧
      w''.files.read path = .ok (Patch.applyAll c.patches file) ∧
      (∀ image, Patch.Passes c.patches file image ↔
        ∃ after, Stage s file (live records) old new image after) ∧
      ∀ image after, Stage s file (live records) old new image after →
        ∀ u torn, u.files.write path image = .ok torn → Reopens s path u torn after := by
  obtain ⟨st₀, h, w₀, hopen', ho⟩ := exists_opened s hv
  obtain ⟨rfl, -, rfl⟩ : st₀ = st ∧ () = () ∧ w₀ = w₁ := by
    rw [hopen] at hopen'
    cases hopen'
    exact ⟨rfl, rfl, rfl⟩
  obtain ⟨answers', st₁, h', w₂, records, hrun', ho'⟩ := Operation.runAll_opened ho ops
  rw [hrun] at hrun'
  cases hrun'
  obtain ⟨old, new, c, hc⟩ := ho'.commits htarget hop
  have hread := ho'.read_eq
  rw [ho'.place] at hread
  refine ⟨_, records, old, new, c, hread, ho'.sound, hc.commits, hc.written.table, ?_, ?_, ?_⟩
  · have hfile : w''.files.openFile path = .ok h'.node := by
      rw [hc.written.files, Files.openFile_setNode]
      exact ho'.opened
    rw [Files.read, hfile, hc.written.files]
    exact congrArg Except.ok (Files.nodeBytes_setNode _)
  · intro image
    exact hc.passes_iff ho'
  · intro image after hstage u torn hw
    exact hc.reopens ho' hstage hw

/-- An update that is interrupted in an empty file system, after a run in which others failed. -/
theorem interrupted_errands :
    let op := Operation.updateValues (.int 2) [("age", .int 6)]
    Sample.world.files.Vacant Sample.table ∧ op.target?.isSome ∧
    ∃ st w₁ answers st' w' st'' w'' file records old new c,
      (openFile Sample.people Sample.table : Work Unit Store).run ((), Sample.world) =
        (.ok st, ((), w₁)) ∧
      (Operation.runAll Sample.errands).run (st, w₁) = (.ok answers, (st', w')) ∧
      op.run.run (st', w') = (.ok (.row (Sample.person 2 "ann" 6)), (st'', w'')) ∧
      w'.files.read Sample.table = .ok file ∧ Sound Sample.people st' file records ∧
      op.Commits st'.table (live records) (.row (Sample.person 2 "ann" 6)) old new c ∧
      (∀ image, Patch.Passes c.patches file image ↔
        ∃ after, Stage Sample.people file (live records) old new image after) ∧
      ∀ image after, Stage Sample.people file (live records) old new image after →
        ∃ torn, Sample.world.files.write Sample.table image = .ok torn ∧
          Reopens Sample.people Sample.table Sample.world torn after := by
  intro op
  obtain ⟨st, h, w₁, hopen, ho⟩ := exists_opened Sample.people Sample.vacant
  obtain ⟨st', h', w', records, hrun, ho', hrows⟩ :=
    Operation.runAll_ends ho (show ∀ op ∈ Sample.errands, op.Short by decide)
  have hends := Operation.run_ends ho' (show op.Short by decide)
  have hanswer : op.onRows Sample.people (liveRows records) =
      .ok (.row (Sample.person 2 "ann" 6), [Sample.person 1 "bo" 7, Sample.person 2 "ann" 6]) := by
    rw [hrows]
    decide
  rw [hanswer] at hends
  have hresult := hends.result_eq
  generalize hop : op.run.run (st', w') = ending at hresult
  obtain ⟨result, st'', w''⟩ := ending
  obtain rfl : result = .ok (.row (Sample.person 2 "ann" 6)) := hresult
  obtain ⟨file, records', old, new, c, hread, hsound, hcommits, -, -, hpasses, hreopens⟩ :=
    interrupted Sample.people Sample.table Sample.world Sample.vacant Sample.errands op rfl hopen
      hrun hop
  refine ⟨Sample.vacant, rfl, st, w₁, _, st', w', st'', w'', file, records', old, new, c, hopen,
    hrun, hop, hread, hsound, hcommits, hpasses, ?_⟩
  intro image after hstage
  exact ⟨_, rfl, hreopens image after hstage Sample.world _ rfl⟩

end Store
end Tabulary
