import Tabulary.Catalog.Registry
import Tabulary.Proofs.Execution

/-!
All databases below a data directory.  Each has a directory of its own, and what happens in one of
them leaves the others as they were.
-/

namespace Tabulary

open Files

/-! ## One database -/

namespace Database

variable {directory place root : Path} {fs start : Files} {name : String} {d : Database}
  {m : Memory.Tables} {ts : Tables} {w : World} {site : Memory.Site}

/-- The stores of some tables are dropped one after another. -/
theorem run_forM_drop {names : List String} (hd : names.Nodup)
    (hr : Rooted w.files directory place) (hs : w.files.Sane)
    (hapart : ∀ a ∈ names, ∀ b ∈ names, a ≠ b → Name.tableFile a ≠ Name.tableFile b)
    (hstores : ∀ table ∈ names, ∃ st t, ts.lookup table = some st ∧
      Store.Shows directory w.files table st t) :
    ∃ y, (names.forM fun table => Tables.on table Store.drop).run (ts, w) = (.ok (), y) ∧
      Edit (Below place) w.files y.2.files := by
  induction names generalizing ts w with
  | nil => exact ⟨(ts, w), rfl, Edit.refl hs⟩
  | cons table names ih =>
    obtain ⟨hnew, hd'⟩ := List.nodup_cons.mp hd
    obtain ⟨st, t, hst, hshows⟩ := hstores table List.mem_cons_self
    obtain ⟨handle, records, ho, -⟩ := hshows.opened
    obtain ⟨st', w₁, hdrop, hedit, -⟩ := ho.run_drop hr hs hshows.plain
    have hr₁ : Rooted w₁.files directory place := hedit.rooted_child hr
    have hon := Tables.run_on hst Store.drop (w := w)
    rw [hdrop] at hon
    have hapart' : ∀ a ∈ names, ∀ b ∈ names, a ≠ b →
        Name.tableFile a ≠ Name.tableFile b :=
      fun a ha b hb => hapart a (List.mem_cons_of_mem _ ha) b (List.mem_cons_of_mem _ hb)
    have hstores' : ∀ other ∈ names, ∃ st₂ t₂,
        (Keyed.set table st' ts).lookup other = some st₂ ∧
          Store.Shows directory w₁.files other st₂ t₂ := by
      intro other hother
      obtain ⟨st₂, t₂, hst₂, hshows₂⟩ := hstores other (List.mem_cons_of_mem _ hother)
      have hne : other ≠ table := fun heq => hnew (heq ▸ hother)
      refine ⟨st₂, t₂, ?_, hshows₂.edit hr hr₁ hedit fun heq => ?_⟩
      · rw [Keyed.lookup_set, if_neg (by simpa using hne), hst₂]
      · exact hapart other (List.mem_cons_of_mem _ hother) table List.mem_cons_self hne
          (child_inj.mp heq)
    obtain ⟨y, hrest, hedit'⟩ := ih hd' hr₁ hedit.sane hapart' hstores'
    refine ⟨y, ?_, ?_⟩
    · show (Tables.on table Store.drop >>= fun _ =>
        names.forM fun table => Tables.on table Store.drop).run (ts, w) = _
      rw [Attempt.run_bind_of_ok hon]
      exact hrest
    · exact Edit.trans (hedit.mono fun q hq => hq ▸ below_child _ _) hedit'

/-- A database that is destroyed leaves nothing in its directory, nor the directory. -/
theorem Shows.run_destroy (h : Shows directory place w.files name d m) (hs : w.files.Sane)
    (hne : place ≠ []) :
    ∃ y, destroy.run (d, w) = (.ok (), y) ∧ Edit (place <+: ·) w.files y.2.files ∧
      ∀ q, place <+: q → y.2.files.entry? q = none := by
  have hkeys := h.tables.keys_eq
  have hstores : ∀ table ∈ Keyed.keys d.tables, ∃ st t, d.tables.lookup table = some st ∧
      Store.Shows directory w.files table st t := by
    intro table hmem
    obtain ⟨st, hst⟩ := Keyed.exists_lookup hmem
    rcases h.tables.lookup table with ⟨hnone, -⟩ | ⟨st', t, hst', -, hshows⟩
    · rw [hst] at hnone
      cases hnone
    · exact ⟨st', t, hst', hshows⟩
  obtain ⟨⟨ts, w₁⟩, hdrop, hedit₁⟩ := run_forM_drop (hkeys ▸ h.apart.keys) h.rooted hs
    (hkeys ▸ fun a ha b hb hab => h.apart.file_ne ha hb hab) hstores
  have hr₁ : Rooted w₁.files directory place := hedit₁.rooted h.rooted fun q hq => hq
  obtain ⟨fs₂, hremove, hedit₂, hgone⟩ := hr₁.removeTree hedit₁.sane hne
  have htables : (onTables (Tables.onEach Store.drop)).run (d, w) =
      (.ok (), ({ d with tables := ts }, w₁)) := by
    have heach : (Tables.onEach Store.drop).run (d.tables, w) = (.ok (), (ts, w₁)) := hdrop
    show (((Tables.onEach Store.drop).run (d.tables, w)).1,
      ({ d with tables := ((Tables.onEach Store.drop).run (d.tables, w)).2.1 },
        ((Tables.onEach Store.drop).run (d.tables, w)).2.2)) = _
    rw [heach]
  refine ⟨({ d with tables := [] }, { w₁ with files := fs₂ }), ?_, ?_, hgone⟩
  · unfold destroy
    rw [Attempt.run_bind_of_ok htables, Attempt.run_bind_of_ok (run_setTables [])]
    simp only [Attempt.run_bind, Work.run_state, h.located, Work.run_change, hremove]
  · refine (hedit₁.mono ?_).trans hedit₂
    rintro q ⟨file, rest, rfl⟩
    exact List.prefix_append _ _

/-- A database is opened in a directory that has just been made: it has a manifest, and no
tables. -/
theorem run_openIn_new {σ : Type} (y : σ) (name : String)
    (hmake : w.files.ensureDirectory directory = (.ok (), fs)) (hr : Rooted fs directory place)
    (hs : fs.Sane) (hempty : ∀ file rest, fs.entry? (place ++ file :: rest) = none) :
    ∃ d w', (openIn name directory : Work σ Database).run (y, w) = (.ok d, (y, w')) ∧
      Edit (place <+: ·) fs w'.files ∧ Shows directory place w'.files name d [] := by
  let d : Database := ⟨name, directory, [], w.opened⟩
  let w₁ : World := ⟨fs, w.metrics, w.events, w.spans, w.database, w.opened + 1⟩
  have honly : Only fs place (fileNames []) := by
    intro file rest hsome
    rw [hempty] at hsome
    cases hsome
  have hmanifest : fs.entry? (place ++ [manifestName]) = none := hempty manifestName []
  have hfree : fs.entry? (place ++ [manifestName]) ≠ some .directory := by
    rw [hmanifest]
    exact nofun
  obtain ⟨fs₂, hsave, saved⟩ := run_saveManifest (d := d) (m := [])
    (w := w₁) rfl hr hs .nil honly List.mem_cons_self (draftName_not_mem []) hfree
  refine ⟨d, { w₁ with files := fs₂ }, ?_, saved.edit.mono fun q hq => hq.within, ?_⟩
  · have hmissing := hr.isThere_child plain_manifestName
    rw [hmanifest] at hmissing
    exact run_openIn_of_missing y hmake hmissing hsave
  · exact ⟨rfl, rfl, saved.rooted, saved.tables, List.nodup_nil, saved.manifest, saved.only⟩

end Database

/-! ## The registry -/

namespace Registry

/-- The database of a name has these tables, in the directory of the name. -/
abbrev Has (site : Memory.Site) (root : Path) (fs : Files) (name : String) (d : Database)
    (tables : Memory.Tables) : Prop :=
  Plain (Name.sanitize name) ∧
    Database.Shows (site.home name) (root ++ [Name.sanitize name]) fs name d tables

/-- The databases that are open are these, and the data directory holds their directories alone. -/
structure Shows (site : Memory.Site) (root : Path) (fs : Files) (r : Registry) (m : Memory) :
    Prop where
  located : r.dataDir = site.directory
  anchor : fs.anchor = site.anchor
  rooted : Rooted fs site.directory root
  sane : fs.Sane
  databases : Keyed.Match (Has site root fs) r.databases m
  apart : Name.Apart m
  only : ∀ directory rest, (fs.entry? (root ++ directory :: rest)).isSome →
    ∃ name ∈ Keyed.keys m, directory = Name.sanitize name

abbrev At (site : Memory.Site) (root : Path) (x : Registry × World) (m : Memory) : Prop :=
  Shows site root x.2.files x.1 m

variable {site : Memory.Site} {root : Path} {r : Registry} {fs fs' : Files} {w : World} {m : Memory}
  {name other : String} {d : Database} {tables tables' : Memory.Tables}

/-- No path leads into two directories of databases. -/
theorem eq_of_within {a b : String} {q : Path} (ha : root ++ [a] <+: q) (hb : root ++ [b] <+: q) :
    a = b := by
  have heq := List.prefix_of_prefix_length_le ha hb (by simp)
  have hlists := List.IsPrefix.eq_of_length heq (by simp)
  exact child_inj.mp hlists

theorem Shows.rooted_edit (h : Shows site root fs r m)
    (he : Edit (root ++ [Name.sanitize name] <+: ·) fs fs') : Rooted fs' site.directory root := by
  refine he.rooted h.rooted fun q hq => ?_
  obtain ⟨rest, rfl⟩ := hq
  exact ⟨Name.sanitize name, rest, by simp⟩

/-- A database shows what it showed after a change in the directory of another one. -/
theorem Shows.elsewhere (h : Shows site root fs r m)
    (he : Edit (root ++ [Name.sanitize name] <+: ·) fs fs')
    (hne : Name.sanitize other ≠ Name.sanitize name) (hd : Has site root fs other d tables) :
    Has site root fs' other d tables := by
  have hfree : ∀ q, root ++ [Name.sanitize name] <+: q →
      ¬root ++ [Name.sanitize other] <+: q :=
    fun q hq hq' => hne (eq_of_within hq' hq)
  have hthere : fs'.entry? (root ++ [Name.sanitize other]) = some .directory := by
    rw [he.entry _ fun hq => hfree _ hq (List.prefix_refl _)]
    exact hd.2.rooted.directory
  exact ⟨hd.1, hd.2.edit he ((h.rooted_edit he).child hd.1 hthere) hfree⟩

/-- After a change in the directory of one database there are the directories that there were. -/
theorem Shows.only_edit (h : Shows site root fs r m)
    (he : Edit (root ++ [Name.sanitize name] <+: ·) fs fs') (hname : name ∈ Keyed.keys m) :
    ∀ directory rest, (fs'.entry? (root ++ directory :: rest)).isSome →
      ∃ name ∈ Keyed.keys m, directory = Name.sanitize name := by
  intro directory rest hsome
  by_cases hq : root ++ [Name.sanitize name] <+: root ++ directory :: rest
  · have hq' : root ++ [directory] <+: root ++ directory :: rest := ⟨rest, by simp⟩
    exact ⟨name, hname, eq_of_within hq' hq⟩
  · rw [he.entry _ hq] at hsome
    exact h.only directory rest hsome

/-- One database is replaced by what it shows now. -/
theorem Shows.set (h : Shows site root fs r m) (hname : name ∈ Keyed.keys m)
    (hat : Database.At site (root ++ [Name.sanitize name]) fs name (d, w) tables) :
    Shows site root w.files { r with databases := Keyed.set name d r.databases }
      (Keyed.set name tables m) where
  located := h.located
  anchor := hat.edit.anchor.trans h.anchor
  rooted := h.rooted_edit hat.edit
  sane := hat.edit.sane
  databases := by
    have hkeys := h.databases.keys_eq
    refine h.databases.update (hkeys ▸ h.apart.keys) ⟨hat.plain, hat.shows⟩ ?_
    intro other d' tables' hmem hne hd'
    have hother : other ∈ Keyed.keys m := hkeys ▸ List.mem_map.mpr ⟨_, hmem, rfl⟩
    exact h.elsewhere hat.edit (fun heq => hne (h.apart.eq hother hname heq)) hd'
  apart := by
    unfold Name.Apart
    rw [Keyed.keys_set_of_mem hname]
    exact h.apart
  only := by
    rw [Keyed.keys_set_of_mem hname]
    exact h.only_edit hat.edit hname

theorem run_find (h : m.lookup name = some tables) :
    (Memory.find name).run m = (.ok tables, m) := by
  unfold Memory.find
  rw [Attempt.run_bind_of_ok (Attempt.run_get _), h]
  rfl

theorem run_find_none (h : m.lookup name = none) :
    (Memory.find name).run m = (.error (.engine (.noDatabase name)), m) := by
  unfold Memory.find
  rw [Attempt.run_bind_of_ok (Attempt.run_get _), h]
  rfl

theorem run_get (h : r.databases.lookup name = some d) :
    (get name).run (r, w) = (.ok d, (r, w)) := by
  unfold get
  rw [Attempt.run_bind_of_ok (Work.run_state _), h]
  rfl

theorem run_get_none (h : r.databases.lookup name = none) :
    (get name).run (r, w) = (.error (.engine (.noDatabase name)), (r, w)) := by
  unfold get
  rw [Attempt.run_bind_of_ok (Work.run_state _), h]
  rfl

theorem run_on (hd : r.databases.lookup name = some d) {α : Type} (x : Work Database α) :
    (on name x).run (r, w) = ((x.run (d, w)).1,
      ({ r with databases := Keyed.set name (x.run (d, w)).2.1 r.databases },
        (x.run (d, w)).2.2)) := by
  unfold on
  rw [Attempt.run_bind_of_ok (run_get hd), Attempt.run_bind_of_ok (Work.run_beside _ _ _)]
  rfl

theorem run_memory_on (hm : m.lookup name = some tables) {α : Type}
    (y : Attempt Fault Memory.Tables α) :
    (Memory.on name y).run m = ((y.run tables).1, Keyed.set name (y.run tables).2 m) := by
  unfold Memory.on
  rw [Attempt.run_bind_of_ok (run_find hm)]
  rfl

/-- A database that is open is one in memory. -/
theorem Shows.lookup (h : Shows site root w.files r m) (name : String) :
    r.databases.lookup name = none ∧ m.lookup name = none ∨
      ∃ d tables, r.databases.lookup name = some d ∧ m.lookup name = some tables ∧
        Database.At site (root ++ [Name.sanitize name]) w.files name (d, w) tables := by
  rcases h.databases.lookup name with hnone | ⟨d, tables, hd, hm, hn, hshows⟩
  · exact .inl hnone
  · exact .inr ⟨d, tables, hd, hm, hn, h.anchor, hshows, Edit.refl h.sane⟩

/-- Work on a database is work on its tables, as far as the results are looked at. -/
theorem Shows.run_on_map (h : Shows site root w.files r m) {α β γ : Type} {x : Work Database α}
    {y : Attempt Fault Memory.Tables β} {v : α → γ} {v' : β → γ}
    (hxy : ∀ start d tables w,
      Database.At site (root ++ [Name.sanitize name]) start name (d, w) tables →
        (x.run (d, w)).1.map v = (y.run tables).1.map v' ∧
          Database.At site (root ++ [Name.sanitize name]) start name (x.run (d, w)).2
            (y.run tables).2) :
    ((on name x).run (r, w)).1.map v = ((Memory.on name y).run m).1.map v' ∧
      At site root ((on name x).run (r, w)).2 ((Memory.on name y).run m).2 := by
  rcases h.lookup name with ⟨hd, hm⟩ | ⟨d, tables, hd, hm, hat⟩
  · have hon : (on name x).run (r, w) = (.error (.engine (.noDatabase name)), (r, w)) :=
      Attempt.run_bind_of_error (run_get_none hd)
    have hmemory : (Memory.on name y).run m = (.error (.engine (.noDatabase name)), m) :=
      Attempt.run_bind_of_error (run_find_none hm)
    rw [hon, hmemory]
    exact ⟨rfl, h⟩
  · obtain ⟨hresult, hat'⟩ := hxy w.files d tables w hat
    rw [run_on hd, run_memory_on hm]
    exact ⟨hresult, h.set (Keyed.mem_keys_of_lookup hm) hat'⟩

/-- Work on a database is work on its tables. -/
theorem simulates_on {α : Type} {x : Work Database α} {y : Attempt Fault Memory.Tables α}
    (hxy : ∀ start, Attempt.Simulates
      (Database.At site (root ++ [Name.sanitize name]) start name) x y) :
    Attempt.Simulates (At site root) (on name x) (Memory.on name y) := by
  rintro ⟨r, w⟩ m h
  have hid (result : Except Fault α) : result.map (fun a => a) = result := by cases result <;> rfl
  have hon : ((on name x).run (r, w)).1.map (fun a => a) =
        ((Memory.on name y).run m).1.map (fun a => a) ∧
      At site root ((on name x).run (r, w)).2 ((Memory.on name y).run m).2 := by
    refine h.run_on_map fun start d tables w hat => ?_
    rw [hid, hid]
    exact hxy start (d, w) tables hat
  rw [hid, hid] at hon
  exact hon

/-! ## Creating -/

theorem any_directory {ds : List (String × Database)} (h : Keyed.Match (Has site root fs) ds m)
    (name : String) :
    (ds.any fun d => d.2.directory = site.directory ++ [Name.sanitize name]) =
      m.any fun d => Name.sanitize d.1 = Name.sanitize name := by
  induction h with
  | nil => rfl
  | @cons x y ds m hxy _ ih =>
    obtain ⟨hkey, -, hshows⟩ := hxy
    have hsame : x.2.directory = site.directory ++ [Name.sanitize name] ↔
        Name.sanitize y.1 = Name.sanitize name := by
      rw [hshows.located, Memory.Site.home, child_inj, hkey]
    rw [List.any_cons, List.any_cons, decide_eq_decide.mpr hsame, ih]

/-- A storable name does not lead up. -/
theorem ne_up_of_storable {name : String} (h : Name.isStorable name = true) : name ≠ ".." := by
  rintro rfl
  revert h
  decide

theorem plain_of_permit {part : String} (hdown : part ≠ "..") (h : site.permit [part] = .ok ()) :
    Plain part := by
  have hfront : ∀ part ∈ ([] : Path), Plain part := fun part hpart => nomatch hpart
  have hpermits : site.Permits [] part := Memory.Site.permits hfront hdown
  cases hpermits with
  | hidden nul result => cases result.symm.trans h
  | long visible long result => cases result.symm.trans h
  | plain plain result => exact plain

/-- There is nothing yet where the directory of a new name would be. -/
theorem Shows.entry_new (h : Shows site root fs r m)
    (hnew : ∀ other ∈ Keyed.keys m, Name.sanitize other ≠ Name.sanitize name) (rest : Path) :
    fs.entry? (root ++ Name.sanitize name :: rest) = none := by
  rw [← Option.not_isSome_iff_eq_none]
  intro hsome
  obtain ⟨other, hother, heq⟩ := h.only _ rest hsome
  exact hnew other hother heq.symm

/-- A directory of a new name gets a database without tables. -/
theorem Shows.run_openIn {σ : Type} (h : Shows site root w.files r m) (y : σ)
    (hn : Plain (Name.sanitize name))
    (hnew : ∀ other ∈ Keyed.keys m, Name.sanitize other ≠ Name.sanitize name) :
    ∃ d w', (Database.openIn name (site.home name) : Work σ Database).run (y, w) =
        (.ok d, (y, w')) ∧
      Edit (root ++ [Name.sanitize name] <+: ·) w.files w'.files ∧
      Database.Shows (site.home name) (root ++ [Name.sanitize name]) w'.files name d [] := by
  have hnothing := h.entry_new hnew
  obtain ⟨fs₁, hmake, hedit₁, hthere⟩ :=
    h.rooted.ensureDirectory_child h.sane hn (hnothing [])
  have hempty (file : String) (rest : Path) :
      fs₁.entry? (root ++ [Name.sanitize name] ++ file :: rest) = none := by
    rw [hedit₁.entry _ (by simp), List.append_assoc]
    exact hnothing (file :: rest)
  have hr₁ : Rooted fs₁ (site.home name) (root ++ [Name.sanitize name]) :=
    (hedit₁.rooted_child h.rooted).child hn hthere
  obtain ⟨d, w', hopen, hedit₂, hd⟩ :=
    Database.run_openIn_new y name hmake hr₁ hedit₁.sane hempty
  have hfirst : Edit (root ++ [Name.sanitize name] <+: ·) w.files fs₁ :=
    hedit₁.mono fun q hq => hq ▸ List.prefix_refl _
  exact ⟨d, w', hopen, hfirst.trans hedit₂, hd⟩

/-- A name that leads to no directory makes no database. -/
theorem Shows.run_openIn_refused {σ : Type} (h : Shows site root w.files r m) (y : σ) {e : Fault}
    (hdown : Name.sanitize name ≠ "..")
    (hnone : w.files.entry? (root ++ [Name.sanitize name]) = none)
    (he : site.permit [Name.sanitize name] = .error e) :
    (Database.openIn name (site.home name) : Work σ Database).run (y, w) = (.error e, (y, w)) := by
  have hmake : w.files.ensureDirectory (site.home name) = (.error e, w.files) := by
    have hfront : ∀ part ∈ ([] : Path), Plain part := fun part hpart => nomatch hpart
    have hpermits : site.Permits [] (Name.sanitize name) := Memory.Site.permits hfront hdown
    cases hpermits with
    | hidden nul result =>
      obtain rfl : Fault.nulInPath = e := Except.error.inj (result.symm.trans he)
      exact h.rooted.ensureDirectory_child_hidden nul hdown hnone
    | long visible long result =>
      rw [Memory.Site.home, h.rooted.ensureDirectory_child_long visible long, h.anchor]
      have herror := Except.error.inj (result.symm.trans he)
      rw [List.append_nil] at herror
      rw [herror]
    | plain plain result => cases result.symm.trans he
  have hdirectory : (Work.ensureDirectory (site.home name) : Work σ Unit).run (y, w) =
      (.error e, (y, w)) := by
    rw [Work.run_ensureDirectory, hmake]
  exact Attempt.run_bind_of_error hdirectory

/-- A database without tables joins the others. -/
theorem Shows.concat (h : Shows site root fs r m)
    (he : Edit (root ++ [Name.sanitize name] <+: ·) fs fs')
    (hnew : ∀ other ∈ Keyed.keys m, Name.sanitize other ≠ Name.sanitize name)
    (hn : Plain (Name.sanitize name))
    (hd : Database.Shows (site.home name) (root ++ [Name.sanitize name]) fs' name d []) :
    Shows site root fs' { r with databases := Keyed.set name d r.databases }
    (m ++ [(name, [])]) where
  located := h.located
  anchor := he.anchor.trans h.anchor
  rooted := h.rooted_edit he
  sane := he.sane
  databases := by
    have hkeys := h.databases.keys_eq
    have hname : name ∉ Keyed.keys r.databases := fun hmem => hnew name (hkeys ▸ hmem) rfl
    rw [Keyed.set_of_not_mem hname]
    refine (h.databases.mono fun other d' tables' hmem hd' => ?_).concat ⟨hn, hd⟩
    have hother : other ∈ Keyed.keys m := hkeys ▸ List.mem_map.mpr ⟨_, hmem, rfl⟩
    exact h.elsewhere he (hnew other hother) hd'
  apart := h.apart.concat hnew
  only := by
    intro directory rest hsome
    have hkeys : Keyed.keys (m ++ [(name, [])]) = Keyed.keys m ++ [name] := List.map_append
    rw [hkeys]
    by_cases hq : root ++ [Name.sanitize name] <+: root ++ directory :: rest
    · have hq' : root ++ [directory] <+: root ++ directory :: rest := ⟨rest, by simp⟩
      exact ⟨name, by simp, eq_of_within hq' hq⟩
    · rw [he.entry _ hq] at hsome
      obtain ⟨other, hother, heq⟩ := h.only directory rest hsome
      exact ⟨other, List.mem_append_left _ hother, heq⟩

theorem simulates_createDatabase (name : String) :
    Attempt.Simulates (At site root) (createDatabase name) (Memory.createDatabase site name) := by
  rintro ⟨r, w⟩ m h
  unfold createDatabase Memory.createDatabase
  refine Attempt.agree_bind (Work.run_state _) (Attempt.run_get _) ?_
  dsimp only
  rw [h.databases.isSome_lookup, h.located, any_directory h.databases]
  split
  · exact ⟨rfl, h⟩
  · split
    · exact ⟨rfl, h⟩
    · rename_i hstorable
      split
      · exact ⟨rfl, h⟩
      · rename_i hany
        have hnew : ∀ other ∈ Keyed.keys m, Name.sanitize other ≠ Name.sanitize name := by
          intro other hother heq
          obtain ⟨x, hx, rfl⟩ := List.mem_map.mp hother
          exact hany (List.any_eq_true.mpr ⟨x, hx, decide_eq_true heq⟩)
        have hdown : Name.sanitize name ≠ ".." := ne_up_of_storable (by simpa using hstorable)
        cases hpermit : site.permit [Name.sanitize name] with
        | error e =>
          have hopen := h.run_openIn_refused (σ := Registry) r hdown (h.entry_new hnew []) hpermit
          exact Attempt.agree_bind_of_error hopen rfl h
        | ok _ =>
          have hn : Plain (Name.sanitize name) := plain_of_permit hdown hpermit
          obtain ⟨d, w', hopen, hedit, hd⟩ := h.run_openIn (σ := Registry) r hn hnew
          refine Attempt.agree_bind_left hopen ?_
          exact ⟨rfl, h.concat hedit hnew hn hd⟩

/-! ## Dropping -/

/-- A database leaves with everything that was in its directory. -/
theorem Shows.erase (h : Shows site root fs r m) (hname : name ∈ Keyed.keys m)
    (he : Edit (root ++ [Name.sanitize name] <+: ·) fs fs')
    (hgone : ∀ q, root ++ [Name.sanitize name] <+: q → fs'.entry? q = none) :
    Shows site root fs' { r with databases := Keyed.erase name r.databases }
      (Keyed.erase name m) where
  located := h.located
  anchor := he.anchor.trans h.anchor
  rooted := h.rooted_edit he
  sane := he.sane
  databases := by
    refine h.databases.erase fun other d' tables' hmem hne hd' => ?_
    have hother : other ∈ Keyed.keys m := h.databases.keys_eq ▸
      List.mem_map.mpr ⟨_, hmem, rfl⟩
    exact h.elsewhere he (fun heq => hne (h.apart.eq hother hname heq)) hd'
  apart := h.apart.erase name
  only := by
    intro directory rest hsome
    obtain ⟨other, hother, heq⟩ := h.only_edit he hname directory rest hsome
    refine ⟨other, Keyed.mem_keys_erase.mpr ⟨hother, ?_⟩, heq⟩
    rintro rfl
    rw [hgone _ ⟨rest, by simp [heq]⟩] at hsome
    cases hsome

/-- A database is dropped with its directory, or it is not there. -/
theorem Shows.run_dropDatabase (h : Shows site root w.files r m) (name : String) :
    m.lookup name = none ∧
        (dropDatabase name).run (r, w) = (.error (.engine (.noDatabase name)), (r, w)) ∨
      ∃ tables w', m.lookup name = some tables ∧ (dropDatabase name).run (r, w) =
          (.ok (), ({ r with databases := Keyed.erase name r.databases }, w')) ∧
        Edit (root ++ [Name.sanitize name] <+: ·) w.files w'.files ∧
        ∀ q, root ++ [Name.sanitize name] <+: q → w'.files.entry? q = none := by
  rcases h.databases.lookup name with ⟨hd, hm⟩ | ⟨d, tables, hd, hm, hn, hshows⟩
  · exact Or.inl ⟨hm, Attempt.run_bind_of_error (run_get_none hd)⟩
  · obtain ⟨y, hdestroy, hedit, hgone⟩ := hshows.run_destroy h.sane (child_ne_nil _ _)
    have hbeside := Work.run_beside d Database.destroy
      (({ r with databases := Keyed.erase name r.databases } : Registry), w)
    rw [hdestroy] at hbeside
    refine Or.inr ⟨tables, y.2.log .info "database_dropped" [("database", .text name)], hm, ?_,
      hedit, hgone⟩
    unfold dropDatabase
    rw [Attempt.run_bind_of_ok (run_get hd)]
    refine (Attempt.run_bind_of_ok (Work.run_state _)).trans ?_
    refine (Attempt.run_bind_of_ok rfl).trans ?_
    rw [Attempt.run_bind_of_ok hbeside]
    rfl

theorem simulates_dropDatabase (name : String) :
    Attempt.Simulates (At site root) (dropDatabase name) (Memory.dropDatabase name) := by
  rintro ⟨r, w⟩ m h
  rcases h.run_dropDatabase name with ⟨hm, hrun⟩ | ⟨tables, w', hm, hrun, hedit, hgone⟩
  · exact Attempt.agree_of_run hrun (Attempt.run_bind_of_error (run_find_none hm)) h
  · exact Attempt.agree_of_run hrun (Attempt.run_bind_of_ok (run_find hm))
      (h.erase (Keyed.mem_keys_of_lookup hm) hedit hgone)

end Registry
end Tabulary
