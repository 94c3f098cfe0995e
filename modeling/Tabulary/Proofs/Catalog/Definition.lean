import Tabulary.Proofs.Catalog.Database
import Tabulary.Proofs.Catalog.Manifest

/-!
Tables that come and go.  A new table gets an empty file and goes to the end of the manifest; a
dropped one leaves the manifest before its file is removed.
-/

namespace Tabulary

open Files

/-! ## Names that the file system refuses -/

namespace Memory

variable {site : Site} {front : Path} {name : String}

/-- What becomes of a name below a path of plain ones. -/
inductive Site.Permits (site : Site) (front : Path) (name : String) : Prop
  | hidden (nul : hasNul [name] = true) (result : site.permit (front ++ [name]) = .error .nulInPath)
  | long (visible : hasNul [name] = false) (long : maxName < (Text.toBytes name).length)
      (result : site.permit (front ++ [name]) = .error
        (.refused .nameTooLong ((site.directory ++ front ++ [name]).text site.anchor) none))
  | plain (plain : Plain name) (result : site.permit (front ++ [name]) = .ok ())

theorem Site.permits (hfront : ∀ part ∈ front, Plain part) (hdown : name ≠ "..") :
    site.Permits front name := by
  have hvisible : hasNul front = false := by
    refine List.any_eq_false.mpr fun part hpart => ?_
    have hpart' := (hfront part hpart).visible
    rwa [hasNul, List.any_cons, List.any_nil, Bool.or_false, Bool.eq_false_iff] at hpart'
  have hshort : (front.any fun part => maxName < (Text.toBytes part).length) = false := by
    refine List.any_eq_false.mpr fun part hpart => ?_
    have hpart' := (hfront part hpart).short
    rw [decide_eq_true_eq]
    omega
  by_cases hnul : hasNul [name] = true
  · refine .hidden hnul ?_
    rw [Site.permit, hasNul_append, hnul, Bool.or_true, if_pos rfl]
  · rw [Bool.not_eq_true] at hnul
    have hsees : hasNul (front ++ [name]) = false := by
      rw [hasNul_append, hvisible, hnul]
      rfl
    have hlast : ((front ++ [name]).any fun part => maxName < (Text.toBytes part).length) =
        decide (maxName < (Text.toBytes name).length) := by
      rw [List.any_append, hshort, List.any_cons, List.any_nil, Bool.or_false, Bool.false_or]
    by_cases hlong : maxName < (Text.toBytes name).length
    · refine .long hnul hlong ?_
      rw [Site.permit, hsees, hlast, if_neg Bool.false_ne_true, decide_eq_true hlong, if_pos rfl,
        List.append_assoc]
    · refine .plain ⟨hnul, hdown, Nat.not_lt.mp hlong⟩ ?_
      rw [Site.permit, hsees, hlast, if_neg Bool.false_ne_true, decide_eq_false hlong,
        if_neg Bool.false_ne_true]

end Memory

namespace Store

open Record

variable {directory place : Path} {w : World} {name : String} {σ : Type}

/-- A file of a hidden name cannot be opened. -/
theorem run_openFile_of_hidden (s : Schema) (y : σ) (hr : Rooted w.files directory place)
    (hn : hasNul [name] = true) :
    (openFile s (directory ++ [name]) : Work σ Store).run (y, w) =
    (.error .nulInPath, (y, w)) := by
  unfold openFile
  simp only [List.dropLast_concat, Attempt.run_bind, Work.run_ensureDirectory, hr.ensureDirectory,
    Work.run_query, Rooted.isThere_child_hidden directory hn, Bool.not_false, if_true,
    Work.run_change, Rooted.create_child_hidden directory hn, Except.map]

/-- The file of a new table is made empty. -/
theorem run_openFile_of_new (s : Schema) (y : σ) (hr : Rooted w.files directory place)
    (hs : w.files.Sane) (hn : Plain name) (hnone : w.files.entry? (place ++ [name]) = none) :
    ∃ st w', (openFile s (directory ++ [name]) : Work σ Store).run (y, w) = (.ok st, (y, w')) ∧
      Edit (· = place ++ [name]) w.files w'.files ∧
      ∃ h, Opened s (directory ++ [name]) st h w'.files [] := by
  obtain ⟨fs, hcreate, hedit, hentry, hempty⟩ := hr.create_child hs hn hnone
  have hr' : Rooted fs directory place := hedit.rooted_child hr
  have hopen := (hr'.openFile_child hn).mpr hentry
  have hdirectory : w.files.ensureDirectory (directory ++ [name]).dropLast = (.ok (), w.files) := by
    rw [List.dropLast_concat]
    exact hr.ensureDirectory
  have hmissing : w.files.isThere (directory ++ [name]) = .ok false := by
    rw [hr.isThere_child hn, hnone]
    rfl
  have hready : w.files.Readies (directory ++ [name]) fs := .made hdirectory hmissing hcreate
  have hlaid : Laid s 0 [] (fs.nodeBytes w.files.fresh) := by
    rw [hempty]
    exact Laid.nil 0
  obtain ⟨w', hrun, hfiles, ho⟩ :=
    run_openFile y hready hopen hlaid ⟨List.nodup_nil, fun _ _ => List.nodup_nil⟩
  exact ⟨_, w', hrun, hfiles.symm ▸ hedit, _, ho⟩

/-- The file of a table that is dropped goes. -/
theorem Opened.run_drop {s : Schema} {st : Store} {h : Handle} {records : List Stored}
    (ho : Opened s (directory ++ [name]) st h w.files records) (hr : Rooted w.files directory place)
    (hs : w.files.Sane) (hn : Plain name) :
    ∃ st' w', drop.run (st, w) = (.ok (), (st', w')) ∧
      Edit (· = place ++ [name]) w.files w'.files ∧
      w'.files.entry? (place ++ [name]) = none := by
  obtain ⟨fs, hremove, hedit, hnone⟩ :=
    hr.removeIfThere_child hs hn ((hr.openFile_child hn).mp ho.opened)
  unfold drop close closeWith
  simp only [Attempt.run_bind, Attempt.run_pure, Work.run_state, ho.dropped, Bool.false_eq_true,
    if_false, ho.handle, Work.run_setState, Work.run_addOpenTables, Work.run_change, ho.place,
    hremove]
  exact ⟨_, _, rfl, hedit, hnone⟩

end Store

namespace Database

variable {directory place : Path} {fs fs' start : Files} {touched : Path → Prop}
  {name table : String}
  {d : Database} {m m' : Memory.Tables} {ts : Tables} {w w' : World} {site : Memory.Site}
  {t : Memory.Table} {schema : Schema}

/-- The file of another table is found by the path, as its name is found by what it leaves of it. -/
theorem find?_collision (h : Keyed.Match (Store.Shows directory fs) ts m) (table : String) :
    ts.find? (fun x => x.2.path = directory ++ [Name.tableFile table]) = none ∧
        m.find? (fun x => Name.sanitize x.1 = Name.sanitize table) = none ∨
      ∃ x y, ts.find? (fun x => x.2.path = directory ++ [Name.tableFile table]) = some x ∧
        m.find? (fun x => Name.sanitize x.1 = Name.sanitize table) = some y ∧
        x.2.schema.name = y.1 := by
  induction h with
  | nil => exact Or.inl ⟨rfl, rfl⟩
  | @cons x y ts m hxy _ ih =>
    obtain ⟨hkey, hshows⟩ := hxy
    have hsame : x.2.path = directory ++ [Name.tableFile table] ↔
        Name.sanitize y.1 = Name.sanitize table := by
      rw [hshows.path_eq, child_inj, Name.tableFile_inj, hkey]
    rw [List.find?_cons, List.find?_cons, decide_eq_decide.mpr hsame]
    by_cases heq : Name.sanitize y.1 = Name.sanitize table
    · rw [decide_eq_true heq]
      refine Or.inr ⟨x, y, rfl, rfl, ?_⟩
      rw [hshows.schema_eq, hshows.named, hkey]
    · rw [decide_eq_false heq]
      exact ih

theorem ne_of_find?_none (h : m.find? (fun x => Name.sanitize x.1 = Name.sanitize table) = none) :
    ∀ other ∈ Keyed.keys m, Name.sanitize other ≠ Name.sanitize table := by
  intro other hmem
  obtain ⟨x, hx, rfl⟩ := List.mem_map.mp hmem
  have hno := List.find?_eq_none.mp h x hx
  rwa [decide_eq_true_eq] at hno

theorem tableFile_not_mem (h : m.find? (fun x => Name.sanitize x.1 = Name.sanitize table) = none) :
    Name.tableFile table ∉ fileNames m :=
  tableFile_not_mem_of_ne fun other hother heq =>
    ne_of_find?_none h other hother (Name.tableFile_inj.mp heq)

/-- The file of a new table stands beside those of the others. -/
theorem At.run_openFile_new (h : At site place start name (d, w) m)
    (hnew : m.find? (fun x => Name.sanitize x.1 = Name.sanitize schema.name) = none)
    (hn : Plain (Name.tableFile schema.name))
    (hnormal : (Manifest.Table.ofSchema schema).toSchema = .ok schema) :
    ∃ st w₁,
      (Store.openFile schema (site.home name ++ [Name.tableFile schema.name])).run (d, w) =
        (.ok st, (d, w₁)) ∧
      Edit (· = place ++ [Name.tableFile schema.name]) w.files w₁.files ∧
      Keyed.Match (Store.Shows (site.home name) w₁.files) (Keyed.set schema.name st d.tables)
        (m ++ [(schema.name, ⟨schema, []⟩)]) ∧
      Only w₁.files place (fileNames (m ++ [(schema.name, ⟨schema, []⟩)])) := by
  have hfile := tableFile_not_mem hnew
  have hr := h.shows.rooted
  obtain ⟨st, w₁, hopen, hedit, handle, ho⟩ :=
    Store.run_openFile_of_new schema d hr h.sane hn (h.shows.only.not_mem hfile)
  refine ⟨st, w₁, hopen, hedit, ?_, ?_⟩
  · have hkeys : schema.name ∉ Keyed.keys d.tables := by
      rw [h.shows.tables.keys_eq]
      exact fun hmem => hfile (tableFile_mem hmem)
    have hother : ∀ table ∈ Keyed.keys m,
        place ++ [Name.tableFile table] ≠ place ++ [Name.tableFile schema.name] :=
      fun table hmem heq => hfile (child_inj.mp heq ▸ tableFile_mem hmem)
    rw [Keyed.set_of_not_mem hkeys]
    refine (match_edit h.shows.tables hr (hedit.rooted_child hr) hedit hother).concat ?_
    exact ⟨rfl, hn, hnormal, handle, [], ho, rfl⟩
  · rw [fileNames_concat]
    refine (h.shows.only.mono (List.subset_append_left _ _)).edit hedit fun file rest hq => ?_
    obtain ⟨rfl, hrest⟩ := below_eq_child.mp hq
    exact Or.inr ⟨hrest, List.mem_append_right _ List.mem_cons_self⟩

/-- The places that are used when a table comes or goes: its file and those of the manifest. -/
def Defining (place : Path) (table : String) (q : Path) : Prop :=
  q = place ++ [Name.tableFile table] ∨ Saving place q

theorem Defining.within {q : Path} (h : Defining place table q) : place <+: q := by
  rcases h with rfl | h
  · exact List.prefix_append _ _
  · exact h.within

/-- A table with a file of its own joins the others. -/
theorem At.run_added (h : At site place start name (d, w) m)
    (hnew : m.find? (fun x => Name.sanitize x.1 = Name.sanitize schema.name) = none)
    (hn : Plain (Name.tableFile schema.name))
    (hnormal : (Manifest.Table.ofSchema schema).toSchema = .ok schema) :
    ∃ st w₁ w₂,
      (Store.openFile schema (site.home name ++ [Name.tableFile schema.name])).run (d, w) =
        (.ok st, (d, w₁)) ∧
      saveManifest.run ({ d with tables := Keyed.set schema.name st d.tables }, w₁) =
        (.ok (), ({ d with tables := Keyed.set schema.name st d.tables }, w₂)) ∧
      At site place start name ({ d with tables := Keyed.set schema.name st d.tables }, w₂)
        (m ++ [(schema.name, ⟨schema, []⟩)]) ∧
      Edit (Defining place schema.name) w.files w₂.files := by
  obtain ⟨st, w₁, hopen, hedit, htables, honly⟩ := h.run_openFile_new hnew hn hnormal
  have hlocated := h.shows.located
  have hmanifest : Lists w₁.files place name m :=
    h.shows.manifest.edit hedit fun heq => tableFile_ne_manifestName _ (child_inj.mp heq).symm
  obtain ⟨fs₂, hsave, saved⟩ :=
    run_saveManifest (d := { d with tables := Keyed.set schema.name st d.tables }) hlocated
      (hedit.rooted_child h.shows.rooted) hedit.sane htables honly List.mem_cons_self
      (draftName_not_mem _) hmanifest.not_directory
  have hwhole : Edit (Defining place schema.name) w.files fs₂ :=
    (hedit.mono fun q hq => Or.inl hq).trans (saved.edit.mono fun q hq => Or.inr hq)
  refine ⟨st, w₁, _, hopen, hsave, ⟨h.plain, h.anchor, ?_, ?_⟩, hwhole⟩
  · exact {
      named := h.shows.named
      located := hlocated
      rooted := saved.rooted
      tables := saved.tables
      apart := h.shows.apart.concat (ne_of_find?_none hnew)
      manifest := h.shows.named ▸ saved.manifest
      only := saved.only }
  · exact h.edit.trans (hwhole.mono fun q hq => hq.within)

theorem run_setTables (ts : Tables) :
    (setTables ts).run (d, w) = (.ok (), ({ d with tables := ts }, w)) := rfl

theorem At.permits (h : At site place start name (d, w) m) {file : String} (hdown : file ≠ "..") :
    site.Permits [Name.sanitize name] file := by
  refine Memory.Site.permits (fun part hpart => ?_) hdown
  rw [List.mem_singleton.mp hpart]
  exact h.plain

/-- A name that leads to no file makes no table. -/
theorem At.run_refused (h : At site place start name (d, w) m) (schema : Schema) {e : Fault}
    {file : String} (hdown : file ≠ "..")
    (he : site.permit [Name.sanitize name, file] = .error e) :
    w.files.isThere (site.home name ++ [file]) = .error e ∨
      w.files.isThere (site.home name ++ [file]) = .ok false ∧
        (Store.openFile schema (site.home name ++ [file])).run (d, w) = (.error e, (d, w)) := by
  have hr := h.shows.rooted
  cases h.permits hdown with
  | hidden nul result =>
    obtain rfl : Fault.nulInPath = e := Except.error.inj (result.symm.trans he)
    exact Or.inr ⟨Rooted.isThere_child_hidden _ nul,
      Store.run_openFile_of_hidden schema d hr nul⟩
  | long visible long result =>
    refine Or.inl ?_
    rw [hr.isThere_child_long visible long, h.edit.anchor, h.anchor]
    exact congrArg Except.error (Except.error.inj (result.symm.trans he))
  | plain plain result => cases result.symm.trans he

theorem tableFile_ne_up (table : String) : Name.tableFile table ≠ ".." :=
  tableFile_ne (by decide) table

/-- A table is made, or a refusal leaves everything as it is. -/
theorem At.createTable_of (h : At site place start name (d, w) m)
    (hnormal : (Manifest.Table.ofSchema schema).toSchema = .ok schema)
    {R : Database × World → Memory.Tables → Prop}
    (hR : (∀ other ∈ Keyed.keys m, Name.sanitize other ≠ Name.sanitize schema.name) →
      ∀ st w',
      At site place start name ({ d with tables := Keyed.set schema.name st d.tables }, w')
        (m ++ [(schema.name, ⟨schema, []⟩)]) →
        Edit (Defining place schema.name) w.files w'.files →
      R ({ d with tables := Keyed.set schema.name st d.tables }, w')
      (m ++ [(schema.name, ⟨schema, []⟩)])) :
    Attempt.AgreeOrStay R (d, w) m (Database.createTable schema)
      (Memory.Tables.createTable site name schema) := by
  unfold Database.createTable Memory.Tables.createTable
  refine .bind (Work.run_state _) (Attempt.run_get _) ?_
  dsimp only
  rw [h.shows.tables.isSome_lookup, h.shows.located]
  split
  · exact .stay rfl rfl
  · split
    · exact .stay rfl rfl
    · rcases find?_collision h.shows.tables schema.name with ⟨hnone, hnew⟩ |
        ⟨x, y, hx, hy, hname⟩
      · rw [hnone, hnew]
        dsimp only
        cases hpermit : site.permit [Name.sanitize name, Name.tableFile schema.name] with
        | error e =>
          refine .stay ?_ rfl
          rcases h.run_refused schema (tableFile_ne_up schema.name) hpermit with
            hthere | ⟨hthere, hopen⟩
          · exact Attempt.run_bind_of_error (congrArg (·, (d, w)) hthere)
          · rw [Attempt.run_bind_of_ok (congrArg (·, (d, w)) hthere)]
            exact Attempt.run_bind_of_error hopen
        | ok _ =>
          have hn : Plain (Name.tableFile schema.name) := by
            cases h.permits (tableFile_ne_up schema.name) with
            | hidden nul result => cases result.symm.trans hpermit
            | long visible long result => cases result.symm.trans hpermit
            | plain plain result => exact plain
          have hthere : w.files.isThere (site.home name ++ [Name.tableFile schema.name]) =
              .ok false := by
            rw [h.shows.rooted.isThere_child hn, h.shows.only.not_mem (tableFile_not_mem hnew)]
            rfl
          obtain ⟨st, w₁, w₂, hopen, hsave, hat, hedit⟩ := h.run_added hnew hn hnormal
          refine .agree rfl (Attempt.agree_bind_left (congrArg (·, (d, w)) hthere) ?_)
          refine Attempt.agree_bind_left hopen (Attempt.agree_bind_left (run_setTables _) ?_)
          refine Attempt.agree_bind_left (Attempt.run_tryCatch_of_ok hsave) ?_
          exact ⟨rfl, hR (ne_of_find?_none hnew) _ _ (hat.congr rfl) hedit⟩
      · rw [hx, hy]
        refine .stay ?_ rfl
        show (Except.error (Fault.engine (.schema (.fileCollision schema.name x.2.schema.name))),
          _) = _
        rw [hname]

theorem At.createTable (h : At site place start name (d, w) m)
    (hnormal : (Manifest.Table.ofSchema schema).toSchema = .ok schema) :
    Attempt.AgreeOrStay (At site place start name) (d, w) m (Database.createTable schema)
      (Memory.Tables.createTable site name schema) :=
  h.createTable_of hnormal fun _ _ _ hat _ => hat

/-! ## Dropping -/

theorem run_find (h : m.lookup table = some t) :
    (Memory.Tables.find table).run m = (.ok t, m) := by
  unfold Memory.Tables.find
  rw [Attempt.run_bind_of_ok (Attempt.run_get _), h]
  rfl

theorem run_find_none (h : m.lookup table = none) :
    (Memory.Tables.find table).run m = (.error (.engine (.noTable table)), m) := by
  unfold Memory.Tables.find
  rw [Attempt.run_bind_of_ok (Attempt.run_get _), h]
  rfl

/-- Where the file of a table is gone, there are the files of the other tables. -/
theorem Only.erase (h : Only fs place (fileNames m))
    (hgone : fs.entry? (place ++ [Name.tableFile table]) = none) :
    Only fs place (fileNames (Keyed.erase table m)) := by
  refine h.narrow fun file hfile hnot => ?_
  rcases List.mem_cons.mp hfile with rfl | hfile
  · exact absurd List.mem_cons_self hnot
  · obtain ⟨other, hother, rfl⟩ := List.mem_map.mp hfile
    by_cases hsame : other = table
    · rw [hsame]
      exact hgone
    · exact absurd (tableFile_mem (Keyed.mem_keys_erase.mpr ⟨hother, hsame⟩)) hnot

/-- A table that is no longer in the manifest shows what it showed. -/
theorem At.run_unlisted (h : At site place start name (d, w) m) {st : Store}
    (hst : d.tables.lookup table = some st) (ht : m.lookup table = some t) :
    ∃ fs₁,
      saveManifest.run ({ d with tables := Keyed.erase table d.tables }, w) =
        (.ok (), ({ d with tables := Keyed.erase table d.tables }, { w with files := fs₁ })) ∧
      Saved (site.home name) place w.files fs₁ { d with tables := Keyed.erase table d.tables }
        (Keyed.erase table m) (fileNames m) ∧
      Store.Shows (site.home name) fs₁ table st t := by
  have hr := h.shows.rooted
  have htables : Keyed.Match (Store.Shows (site.home name) w.files) (Keyed.erase table d.tables)
      (Keyed.erase table m) := h.shows.tables.erase fun _ _ _ _ _ hshows => hshows
  obtain ⟨fs₁, hsave, saved⟩ :=
    run_saveManifest (d := { d with tables := Keyed.erase table d.tables }) h.shows.located hr
      h.sane
      htables h.shows.only List.mem_cons_self (draftName_not_mem m) h.shows.manifest.not_directory
  obtain ⟨st', hst', hshows⟩ := h.tablesAt.exists_shows ht
  obtain rfl : st' = st := Option.some.inj (hst'.symm.trans hst)
  exact ⟨fs₁, hsave, saved,
    hshows.edit hr saved.rooted saved.edit (not_saving_tableFile place table)⟩

/-- A table leaves the manifest, and then its file goes. -/
theorem At.run_removed (h : At site place start name (d, w) m) {st : Store}
    (hst : d.tables.lookup table = some st) (ht : m.lookup table = some t) :
    ∃ w₁ st' w₂,
      saveManifest.run ({ d with tables := Keyed.erase table d.tables }, w) =
        (.ok (), ({ d with tables := Keyed.erase table d.tables }, w₁)) ∧
      Store.drop.run (st, w₁) = (.ok (), (st', w₂)) ∧
      At site place start name ({ d with tables := Keyed.erase table d.tables }, w₂)
        (Keyed.erase table m) ∧
      Edit (Defining place table) w.files w₂.files := by
  obtain ⟨fs₁, hsave, saved, hshows⟩ := h.run_unlisted hst ht
  obtain ⟨handle, records, ho, -⟩ := hshows.opened
  obtain ⟨st₂, w₂, hdrop, hedit, hgone⟩ :=
    ho.run_drop (w := { w with files := fs₁ }) saved.rooted saved.edit.sane hshows.plain
  have hr₂ : Rooted w₂.files (site.home name) place := hedit.rooted_child saved.rooted
  have hkey : table ∈ Keyed.keys m := Keyed.mem_keys_of_lookup ht
  have hother : ∀ other ∈ Keyed.keys (Keyed.erase table m),
      place ++ [Name.tableFile other] ≠ place ++ [Name.tableFile table] := by
    intro other hmem heq
    obtain ⟨hmem', hne⟩ := Keyed.mem_keys_erase.mp hmem
    exact h.shows.apart.file_ne hmem' hkey hne (child_inj.mp heq)
  have hmanifest : Lists w₂.files place d.name (Keyed.erase table m) :=
    saved.manifest.edit hedit fun heq => tableFile_ne_manifestName table (child_inj.mp heq).symm
  have honly : Only w₂.files place (fileNames m) :=
    saved.only.edit hedit fun file rest hq => Or.inl (by rw [hq, hgone])
  have hwhole : Edit (Defining place table) w.files w₂.files :=
    (saved.edit.mono fun q hq => Or.inr hq).trans (hedit.mono fun q hq => Or.inl hq)
  refine ⟨_, st₂, w₂, hsave, hdrop, ⟨h.plain, h.anchor, ?_, ?_⟩, hwhole⟩
  · exact {
      named := h.shows.named
      located := h.shows.located
      rooted := hr₂
      tables := match_edit saved.tables saved.rooted hr₂ hedit hother
      apart := h.shows.apart.erase table
      manifest := h.shows.named ▸ hmanifest
      only := honly.erase hgone }
  · exact h.edit.trans (hwhole.mono fun q hq => hq.within)

/-- A table is dropped, or it is not there. -/
theorem At.dropTable_of (h : At site place start name (d, w) m)
    {R : Database × World → Memory.Tables → Prop}
    (hR : table ∈ Keyed.keys m → ∀ w',
      At site place start name ({ d with tables := Keyed.erase table d.tables }, w')
        (Keyed.erase table m) → Edit (Defining place table) w.files w'.files →
      R ({ d with tables := Keyed.erase table d.tables }, w') (Keyed.erase table m)) :
    Attempt.AgreeOrStay R (d, w) m (Database.dropTable table) (Memory.Tables.dropTable table) := by
  unfold Database.dropTable Memory.Tables.dropTable
  rcases h.shows.tables.lookup table with ⟨hst, ht⟩ | ⟨st, t, hst, ht, -⟩
  · refine .stay ?_ (Attempt.run_bind_of_error (run_find_none ht))
    rw [Attempt.run_bind_of_ok (Work.run_state _), hst]
    rfl
  · obtain ⟨w₁, st', w₂, hsave, hdrop, hat, hedit⟩ := h.run_removed hst ht
    have hbeside := Work.run_beside st Store.drop
      (({ d with tables := Keyed.erase table d.tables } : Database), w₁)
    rw [hdrop] at hbeside
    refine .agree (Attempt.run_bind_of_ok (run_find ht))
      (Attempt.agree_bind_left (Work.run_state _) ?_)
    dsimp only
    rw [hst]
    refine Attempt.agree_bind_left (run_setTables _) (Attempt.agree_bind_left hsave ?_)
    refine Attempt.agree_bind_left hbeside ?_
    exact Attempt.agree_of_run rfl (Attempt.run_bind_of_ok (run_find ht))
      (hR (Keyed.mem_keys_of_lookup ht) _ (hat.congr rfl) hedit)

theorem At.dropTable (h : At site place start name (d, w) m) :
    Attempt.AgreeOrStay (At site place start name) (d, w) m (Database.dropTable table)
      (Memory.Tables.dropTable table) :=
  h.dropTable_of fun _ _ hat _ => hat

end Database
end Tabulary
