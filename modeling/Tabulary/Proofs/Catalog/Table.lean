import Tabulary.Proofs.Files.Edit
import Tabulary.Proofs.Keyed
import Tabulary.Proofs.Memory.Basic
import Tabulary.Proofs.Store.Operation

/-!
The tables of a database among the files.  Each open store shows a table of rows, and an operation
on one of them changes that table as the list of its rows says, while all others show what they
showed.
-/

namespace Tabulary

open Record Files

variable {directory place : Path} {fs fs' : Files} {name table : String} {touched : Path → Prop}

namespace Name

theorem tableFile_inj {a b : String} : tableFile a = tableFile b ↔ sanitize a = sanitize b := by
  unfold tableFile
  constructor
  · intro h
    have hlist := congrArg String.toList h
    rw [String.toList_append, String.toList_append] at hlist
    exact String.toList_inj.mp (List.append_cancel_right hlist)
  · intro h
    rw [h]

/-- Different names stand for different files. -/
def Apart {α : Type} (m : List (String × α)) : Prop := ((Keyed.keys m).map sanitize).Nodup

namespace Apart

variable {α : Type} {m : List (String × α)} {a b name : String} {v : α}

theorem keys (h : Apart m) : (Keyed.keys m).Nodup := List.Nodup.of_map sanitize h

theorem eq (h : Apart m) (ha : a ∈ Keyed.keys m) (hb : b ∈ Keyed.keys m)
    (heq : sanitize a = sanitize b) : a = b := List.inj_on_of_nodup_map h ha hb heq

theorem file_ne (h : Apart m) (ha : a ∈ Keyed.keys m) (hb : b ∈ Keyed.keys m) (hne : a ≠ b) :
    tableFile a ≠ tableFile b := fun heq => hne (h.eq ha hb (tableFile_inj.mp heq))

theorem concat (h : Apart m) (hnew : ∀ other ∈ Keyed.keys m, sanitize other ≠ sanitize name) :
    Apart (m ++ [(name, v)]) := by
  unfold Apart
  rw [Keyed.keys, List.map_append, List.map_append, List.nodup_append]
  refine ⟨h, List.nodup_singleton _, ?_⟩
  intro a ha b hb
  obtain ⟨other, hother, rfl⟩ := List.mem_map.mp ha
  rw [List.mem_singleton.mp hb]
  exact hnew other hother

theorem erase (h : Apart m) (name : String) : Apart (Keyed.erase name m) := by
  unfold Apart
  rw [Keyed.keys_erase]
  exact h.sublist (List.filter_sublist.map _)

end Apart
end Name

namespace Store

/-- The store has the table's file in a directory open, and its rows are those of the table. -/
structure Shows (directory : Path) (fs : Files) (name : String) (st : Store) (t : Memory.Table) :
    Prop where
  named : t.schema.name = name
  plain : Plain (Name.tableFile name)
  normal : (Manifest.Table.ofSchema t.schema).toSchema = .ok t.schema
  opened : ∃ h records, Opened t.schema (directory ++ [Name.tableFile name]) st h fs records ∧
    liveRows records = t.rows

variable {st : Store} {t : Memory.Table}

theorem Opened.congr {s : Schema} {path : Path} {h : Handle} {records : List Stored}
    (ho : Opened s path st h fs records) (hopen : fs'.openFile path = .ok h.node)
    (hbytes : fs'.nodeBytes h.node = fs.nodeBytes h.node) : Opened s path st h fs' records where
  schema := ho.schema
  place := ho.place
  dropped := ho.dropped
  handle := ho.handle
  opened := hopen
  current := hbytes ▸ ho.current
  holds := hbytes ▸ ho.holds

theorem Shows.schema_eq (h : Shows directory fs name st t) : st.schema = t.schema := by
  obtain ⟨_, _, ho, -⟩ := h.opened
  exact ho.schema

theorem Shows.path_eq (h : Shows directory fs name st t) :
    st.path = directory ++ [Name.tableFile name] := by
  obtain ⟨_, _, ho, -⟩ := h.opened
  exact ho.place

/-- The open store of a table, and its rows. -/
def Holds (fs : Files) (st : Store) (t : Memory.Table) : Prop :=
  ∃ h records, Opened t.schema st.path st h fs records ∧ liveRows records = t.rows

theorem Shows.holds (h : Shows directory fs name st t) : Holds fs st t := by
  obtain ⟨handle, records, ho, hrows⟩ := h.opened
  exact ⟨handle, records, ho.place.symm ▸ ho, hrows⟩

theorem Holds.fits (h : Holds fs st t) {r : Row} (hr : r ∈ t.rows) : r.Fits t.schema := by
  obtain ⟨handle, records, ho, hrows⟩ := h
  rw [← hrows] at hr
  have hschema : st.table.schema = t.schema := ho.schema
  exact hschema ▸ ho.holds.fits_of_liveRows hr

theorem Holds.distinct (h : Holds fs st t) : Rows.Distinct t.schema t.rows := by
  obtain ⟨handle, records, ho, hrows⟩ := h
  have hschema : st.table.schema = t.schema := ho.schema
  rw [← hrows, ← hschema]
  exact ho.holds.distinct

/-- A change that leaves the file of the table alone leaves the table. -/
theorem Shows.edit (h : Shows directory fs name st t) (hr : Rooted fs directory place)
    (hr' : Rooted fs' directory place) (he : Edit touched fs fs')
    (hfree : ¬touched (place ++ [Name.tableFile name])) : Shows directory fs' name st t where
  named := h.named
  plain := h.plain
  normal := h.normal
  opened := by
    obtain ⟨handle, records, ho, hrows⟩ := h.opened
    have hentry := (hr.openFile_child h.plain).mp ho.opened
    have hentry' := (he.entry _ hfree).trans hentry
    exact ⟨handle, records,
      ho.congr ((hr'.openFile_child h.plain).mpr hentry') (he.bytes _ _ hfree hentry), hrows⟩

theorem Rewrites.edit (h : Rewrites fs (directory ++ [name]) fs') (hs : fs.Sane)
    (hr : Rooted fs directory place) (hn : Plain name) :
    Edit (· = place ++ [name]) fs fs' ∧ ∀ q, fs'.entry? q = fs.entry? q := by
  cases h with
  | same => exact ⟨Edit.refl hs, fun _ => rfl⟩
  | written bytes opened =>
    exact ⟨edit_setNode hs ((hr.openFile_child hn).mp opened) bytes, fun _ => rfl⟩

end Store

namespace Tables

/-- The stores show these tables, of these schemas.  Since the files were those at the start, only
the bytes of tables in this directory have changed. -/
structure At (directory place : Path) (start : Files) (schemas : List (String × Schema))
    (m : Memory.Tables) (x : Tables × World) : Prop where
  rooted : Rooted x.2.files directory place
  shows : Keyed.Match (Store.Shows directory x.2.files) x.1 m
  apart : Name.Apart m
  schemas : m.map (fun t => (t.1, t.2.schema)) = schemas
  entries : ∀ q, x.2.files.entry? q = start.entry? q
  edit : Edit (fun q => ∃ table, q = place ++ [Name.tableFile table]) start x.2.files

variable {start : Files} {schemas : List (String × Schema)} {m : Memory.Tables} {ts : Tables}
  {w : World} {t : Memory.Table}

theorem run_get {st : Store} (h : ts.lookup table = some st) :
    (get table).run (ts, w) = (.ok st, (ts, w)) := by
  unfold get
  rw [Attempt.run_bind_of_ok (Work.run_state _), h]
  rfl

theorem run_get_none (h : ts.lookup table = none) :
    (get table).run (ts, w) = (.error (.engine (.noTable table)), (ts, w)) := by
  unfold get
  rw [Attempt.run_bind_of_ok (Work.run_state _), h]
  rfl

theorem run_on {α : Type} {st : Store} (h : ts.lookup table = some st) (x : Work Store α) :
    (on table x).run (ts, w) =
      ((x.run (st, w)).1, (Keyed.set table (x.run (st, w)).2.1 ts, (x.run (st, w)).2.2)) := by
  unfold on
  rw [Attempt.run_bind_of_ok (run_get h), Attempt.run_bind_of_ok (Work.run_beside _ _ _)]
  rfl

/-- The store of a table that is there. -/
theorem At.exists_shows (h : At directory place start schemas m (ts, w))
    (ht : m.lookup table = some t) :
    ∃ st, ts.lookup table = some st ∧ Store.Shows directory w.files table st t := by
  rcases h.shows.lookup table with ⟨-, hnone⟩ | ⟨st, t', hst, ht', hshows⟩
  · rw [hnone] at ht
    cases ht
  · rw [ht'] at ht
    cases ht
    exact ⟨st, hst, hshows⟩

/-- The tables after an operation on one of them, which a failure leaves as they were. -/
def after {α : Type} (table : String) (t : Memory.Table) (m : Memory.Tables) :
    Except Fault (α × Rows) → Memory.Tables
  | .ok (_, rows) => Keyed.set table { t with rows } m
  | .error _ => m

/-- One table is replaced by what its store shows now. -/
theorem At.set (h : At directory place start schemas m (ts, w)) (ht : m.lookup table = some t)
    {st : Store} {w' : World} {rows : Rows}
    (hst : Store.Shows directory w'.files table st { t with rows })
    (hedit : Edit (· = place ++ [Name.tableFile table]) w.files w'.files)
    (hentries : ∀ q, w'.files.entry? q = w.files.entry? q) :
    At directory place start schemas (Keyed.set table { t with rows } m)
      (Keyed.set table st ts, w') := by
  have hkey : table ∈ Keyed.keys m := Keyed.mem_keys_of_lookup ht
  have hrooted : Rooted w'.files directory place :=
    h.rooted.congr fun q _ => hentries q
  refine ⟨hrooted, ?_, ?_, ?_, fun q => (hentries q).trans (h.entries q), ?_⟩
  · have hkeys := h.shows.keys_eq
    refine h.shows.update (hkeys ▸ h.apart.keys) hst fun other st' t' hmem hne hshows => ?_
    have hother : other ∈ Keyed.keys m := hkeys ▸ List.mem_map.mpr ⟨_, hmem, rfl⟩
    refine hshows.edit h.rooted hrooted hedit fun heq => ?_
    exact h.apart.file_ne hother hkey hne (child_inj.mp heq)
  · unfold Name.Apart
    rw [Keyed.keys_set_of_mem hkey]
    exact h.apart
  · rw [← h.schemas]
    refine Keyed.map_set _ (fun old hold => ?_) hkey
    rw [ht] at hold
    cases hold
    rfl
  · exact h.edit.trans (hedit.mono fun q hq => ⟨table, hq⟩)

/-- An operation on a table answers as on its rows, and what the table shows afterwards are the rows
after it. -/
theorem At.run_on (h : At directory place start schemas m (ts, w)) (ht : m.lookup table = some t)
    {α : Type} {x : Work Store α} {f : Rows → Except Fault (α × Rows)}
    (hx : ∀ {st h w records},
      Store.Opened t.schema (directory ++ [Name.tableFile table]) st h w.files records →
      Store.Ends t.schema (directory ++ [Name.tableFile table]) w.files records (x.run (st, w))
        (f (liveRows records))) :
    ∃ y, (on table x).run (ts, w) = ((f t.rows).map Prod.fst, y) ∧
      At directory place start schemas (after table t m (f t.rows)) y := by
  obtain ⟨st, hst, hshows⟩ := h.exists_shows ht
  obtain ⟨handle, records, ho, hrows⟩ := hshows.opened
  have hends := hx ho
  rw [hrows] at hends
  rw [Tables.run_on hst x]
  generalize x.run (st, w) = ending at hends ⊢
  generalize f t.rows = expected at hends ⊢
  cases hends with
  | @error e st' handle' w' ho' hfiles =>
    have hst' : Store.Shows directory w'.files table st' { t with rows := t.rows } :=
      ⟨hshows.named, hshows.plain, hshows.normal, handle', records, ho', hrows⟩
    have hsame : Edit (· = place ++ [Name.tableFile table]) w.files w'.files := by
      rw [hfiles]
      exact Edit.refl h.edit.sane
    have hset := h.set ht hst' hsame fun q => by rw [hfiles]
    rw [Keyed.set_of_lookup ht] at hset
    exact ⟨_, rfl, hset⟩
  | @ok a st' handle' w' records' ho' hrewrites =>
    have hst' : Store.Shows directory w'.files table st' { t with rows := liveRows records' } :=
      ⟨hshows.named, hshows.plain, hshows.normal, handle', records', ho', rfl⟩
    obtain ⟨hedit, hentries⟩ := hrewrites.edit h.edit.sane h.rooted hshows.plain
    exact ⟨_, rfl, h.set ht hst' hedit hentries⟩

/-- What only reads a table leaves all tables as they are. -/
theorem At.run_read (h : At directory place start schemas m (ts, w))
    (ht : m.lookup table = some t) {α : Type} {x : Work Store α} {g : Rows → α}
    (hx : ∀ {st h w records},
      Store.Opened t.schema (directory ++ [Name.tableFile table]) st h w.files records →
      Store.Ends t.schema (directory ++ [Name.tableFile table]) w.files records (x.run (st, w))
        (.ok (g (liveRows records), liveRows records))) :
    ∃ y, (on table x).run (ts, w) = (.ok (g t.rows), y) ∧
    At directory place start schemas m y := by
  obtain ⟨y, hrun, hat⟩ := h.run_on (f := fun rows => .ok (g rows, rows)) ht hx
  have hsame : after table t m (.ok (g t.rows, t.rows)) = m := Keyed.set_of_lookup ht
  rw [hsame] at hat
  exact ⟨y, hrun, hat⟩

end Tables
end Tabulary
