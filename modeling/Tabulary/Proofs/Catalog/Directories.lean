import Tabulary.Catalog.Registry
import Tabulary.Execution
import Tabulary.Proofs.Catalog.Registry
import Tabulary.Proofs.Catalog.Upkeep

/-!
Directories of open databases.  A database is created only where no other one is open, and a search
opens what it finds under the name that the manifest gives.  So a directory is not opened twice as
long as the manifests in open directories name databases that are open when a search begins
(`directories_nodup`).  A directory that was taken over by a database of another name has the
manifest of the old one, and a search opens it again (`discover_shares_directory`).
-/

namespace Tabulary

open Attempt Work Files

namespace Registry

def directories (r : Registry) : List Path := r.databases.map (·.2.directory)

/-- The open databases of a data directory: each has a directory of its own in it. -/
structure Kept (base root : Path) (r : Registry) (fs : Files) : Prop where
  located : r.dataDir = base
  opened : ∀ d ∈ r.databases, ∃ directory, directory ≠ ".." ∧
    Database.Kept base root directory d.2 fs
  apart : r.directories.Nodup

variable {base root : Path} {R : Files → Files → Prop} {r : Registry} {fs fs' : Files}
  {name directory : String} {d d' : Database} {α : Type}

namespace Kept

theorem along (hc : Course base root R) (h : Kept base root r fs) (hR : R fs fs') :
    Kept base root r fs' where
  located := h.located
  opened d hd := by
    obtain ⟨directory, hdown, hkept⟩ := h.opened d hd
    exact ⟨directory, hdown, hkept.along hc hR⟩
  apart := h.apart

theorem of_lookup (h : Kept base root r fs) (hd : r.databases.lookup name = some d) :
    ∃ directory, directory ≠ ".." ∧ Database.Kept base root directory d fs := by
  obtain ⟨xs, ys, heq, -⟩ := List.lookup_eq_some_iff.mp hd
  refine h.opened (name, d) ?_
  rw [heq]
  simp

theorem set (h : Kept base root r fs) (hd : r.databases.lookup name = some d)
    (hdown : directory ≠ "..") (hd' : Database.Kept base root directory d' fs)
    (hsame : d'.directory = d.directory) :
    Kept base root { r with databases := Keyed.set name d' r.databases } fs where
  located := h.located
  opened other hother := by
    rcases Keyed.mem_set hother with rfl | hother
    · exact ⟨directory, hdown, hd'⟩
    · exact h.opened other hother
  apart := by
    show ((Keyed.set name d' r.databases).map (·.2.directory)).Nodup
    rw [Keyed.map_set _ (fun old hold => ?_) (Keyed.mem_keys_of_lookup hd)]
    · exact h.apart
    · rw [hd] at hold
      cases hold
      exact hsame.symm

/-- A database joins those that are open, in a directory that none of them has. -/
theorem concat (h : Kept base root r fs) (hnew : r.databases.lookup name = none)
    (hdown : directory ≠ "..") (hd : Database.Kept base root directory d fs)
    (hfree : base ++ [directory] ∉ r.directories) :
    Kept base root { r with databases := Keyed.set name d r.databases } fs where
  located := h.located
  opened other hother := by
    rcases Keyed.mem_set hother with rfl | hother
    · exact ⟨directory, hdown, hd⟩
    · exact h.opened other hother
  apart := by
    have hname : name ∉ Keyed.keys r.databases := by
      intro hmem
      obtain ⟨other, hother⟩ := Keyed.exists_lookup hmem
      rw [hnew] at hother
      cases hother
    show ((Keyed.set name d r.databases).map (·.2.directory)).Nodup
    rw [Keyed.set_of_not_mem hname, List.map_append, List.nodup_append]
    refine ⟨h.apart, List.nodup_singleton _, fun p hp q hq heq => hfree ?_⟩
    have hq : q = d.directory := List.mem_singleton.mp hq
    rw [← hd.located, ← hq, ← heq]
    exact hp

theorem erase (h : Kept base root r fs) (name : String) :
    Kept base root { r with databases := Keyed.erase name r.databases } fs where
  located := h.located
  opened other hother := h.opened other (List.mem_of_mem_filter hother)
  apart := h.apart.sublist (List.filter_sublist.map _)

/-- The files of all tables of all databases are different ones. -/
theorem paths_nodup (h : Kept base root r fs) :
    (r.databases.flatMap fun d => d.2.tables.map fun t => t.2.path).Nodup := by
  rw [List.nodup_flatMap]
  constructor
  · intro d hd
    obtain ⟨directory, -, hkept⟩ := h.opened d hd
    exact hkept.tables.paths_nodup
  · have hapart : r.databases.Pairwise fun a b => a.2.directory ≠ b.2.directory :=
      List.pairwise_map.mp h.apart
    refine hapart.imp_of_mem fun {a b} ha hb hne p hpa hpb => hne ?_
    obtain ⟨directory, -, hkept⟩ := h.opened a ha
    obtain ⟨directory', -, hkept'⟩ := h.opened b hb
    obtain ⟨t, ht, rfl⟩ := List.mem_map.mp hpa
    obtain ⟨t', ht', hpath⟩ := List.mem_map.mp hpb
    rw [(hkept.tables.stores t ht).path, (hkept'.tables.stores t' ht').path] at hpath
    have hsame : directory' = directory := (List.cons.inj (List.append_cancel_left hpath)).1
    rw [hkept.located, hkept'.located, hsame]

end Kept

/-! ### Operations -/

theorem upholds_on (name : String) {x : Work Database α}
    (hx : ∀ directory, directory ≠ ".." →
      Upholds base root (Onward base root) (Database.Kept base root directory) x) :
    Upholds base root (Onward base root) (Kept base root) (on name x) := by
  have hc : Course base root (Onward base root) := course_onward
  rintro fs₀ htidy ⟨r, w⟩ ⟨hR, h⟩
  cases hd : r.databases.lookup name with
  | none =>
    have hrun : (on name x).run (r, w) = (.error (.engine (.noDatabase name)), (r, w)) :=
      run_bind_of_error (run_get_none hd)
    rw [hrun]
    exact ⟨hR, h⟩
  | some d =>
    obtain ⟨directory, hdown, hkept⟩ := h.of_lookup hd
    have hend := hx directory hdown w.files (hc.tidy hR htidy) (d, w)
      ⟨hc.refl (hc.tidy hR htidy), hkept⟩
    rw [run_on hd]
    generalize x.run (d, w) = ending at hend ⊢
    obtain ⟨result, d', w'⟩ := ending
    have hset (hR' : Onward base root w.files w'.files)
        (hd' : Database.Kept base root directory d' w'.files) :
        Kept base root { r with databases := Keyed.set name d' r.databases } w'.files :=
      (h.along hc hR').set hd hdown hd' (hd'.located.trans hkept.located.symm)
    cases result with
    | ok a => exact ⟨hc.trans hR hend.1, hset hend.1 hend.2⟩
    | error e => exact ⟨hc.trans hR hend.1, hset hend.1 hend.2⟩

/-- The databases are replaced by what is worked out from them. -/
theorem meets_changeDatabases {P S E : Registry → Files → Prop}
    {Q : α → Registry → Files → Prop}
    {f : List (String × Database) → List (String × Database)} {rest : Work Registry α}
    (hf : ∀ r fs, P r fs → S { r with databases := f r.databases } fs)
    (hrest : Meets base root R S rest Q E) :
    Meets base root R P (state >>= fun r => setDatabases (f r.databases) >>= fun _ => rest) Q E :=
  fun fs ht y h => hrest fs ht ({ y.1 with databases := f y.1.databases }, y.2)
    ⟨h.1, hf _ _ h.2⟩

theorem upholds_createDatabase (name : String) :
    Meets base root (Onward base root) (Kept base root) (createDatabase name)
      (fun _ => Kept base root) (Kept base root) := by
  have hc : Course base root (Onward base root) := course_onward
  refine meets_state_eq fun r => ?_
  refine Meets.of_fact (fun _ _ h => h.1 ▸ h.2.located) fun hlocated => ?_
  dsimp only
  rw [hlocated]
  split
  · exact meets_throw fun _ _ h => h.2
  rename_i hnew
  split
  · exact meets_throw fun _ _ h => h.2
  rename_i hstorable
  split
  · exact meets_throw fun _ _ h => h.2
  rename_i hfree
  have hdown : Name.sanitize name ≠ ".." := ne_up_of_storable (by simpa using hstorable)
  have hnot : base ++ [Name.sanitize name] ∉ r.directories := by
    intro hmem
    obtain ⟨d, hd, hdirectory⟩ := List.mem_map.mp hmem
    exact hfree (List.any_eq_true.mpr ⟨d, hd, decide_eq_true hdirectory⟩)
  have hsame : Lasts (Onward base root) fun r' fs => r' = r ∧ Kept base root r' fs :=
    fun _ _ _ hR h => ⟨h.1, h.2.along hc hR⟩
  refine ((Database.meets_openIn hdown hsame).failing fun _ _ h => h.2).bind fun d => ?_
  refine meets_changeDatabases (S := Kept base root) (fun r' fs h => ?_) ?_
  · obtain ⟨⟨rfl, hkept⟩, hd⟩ := h
    exact hkept.concat (Option.not_isSome_iff_eq_none.mp hnew) hdown hd hnot
  · exact (meets_pathText _).bind fun _ => (meets_log _ _ _).bind fun _ =>
      meets_pure fun _ _ h => h

theorem meets_get (name : String) :
    Meets base root R (Kept base root) (get name)
      (fun d r fs => ∃ directory, directory ≠ ".." ∧
        Database.Kept base root directory d fs ∧ Kept base root r fs) (Kept base root) := by
  rintro fs₀ _ ⟨r, w⟩ ⟨hR, h⟩
  cases hd : r.databases.lookup name with
  | none =>
    rw [run_get_none hd]
    exact ⟨hR, h⟩
  | some d =>
    obtain ⟨directory, hdown, hkept⟩ := h.of_lookup hd
    rw [run_get hd]
    exact ⟨hR, directory, hdown, hkept, h⟩

/-- A database beside those that are open. -/
abbrev Beside (base root : Path) (directory : String) (d : Database) (r : Registry) (fs : Files) :
    Prop := Database.Kept base root directory d fs ∧ Kept base root r fs

theorem lasts_beside (hc : Course base root R) : Lasts R (Beside base root directory d) :=
  fun _ _ _ hR h => ⟨h.1.along hc hR, h.2.along hc hR⟩

theorem upholds_dropDatabase (name : String) :
    Upholds base root (Onward base root) (Kept base root) (dropDatabase name) := by
  have hc : Course base root (Onward base root) := course_onward
  refine (meets_get name).bind fun d => meets_exists fun directory => ?_
  refine Meets.of_fact (fun _ _ h => h.1) fun hdown => ?_
  refine meets_changeDatabases (S := Beside base root directory d)
    (fun r fs h => ⟨h.2.1, h.2.2.erase name⟩) ?_
  refine (meets_beside hc (lasts_beside hc) (fun _ _ h => h.1)
    (Database.upholds_destroy hdown)).bind fun ending => ?_
  refine Meets.bind (Q := fun _ => Kept base root) ?_ fun _ => meets_log _ _ _
  exact (upholds_ofExcept _).given fun _ _ h => h.1.2

theorem upholds_close : Upholds base root (Onward base root) (Kept base root) close := by
  have hc : Course base root (Onward base root) := course_onward
  refine meets_state_bind (fun _ _ _ => trivial) fun r _ => ?_
  have hclose (name : String) :
      Upholds base root (Onward base root) (Kept base root) (on name Database.close) :=
    upholds_on name fun _ _ => Database.upholds_close
  refine Meets.bind (Q := fun _ => Kept base root)
    (fun fs ht => triple_forM (fun name => hclose name fs ht) r.names) fun _ => ?_
  exact fun _ _ y h => ⟨h.1, h.2.located, nofun, List.nodup_nil⟩

/-! ### Searches -/

/-- Manifests in directories of open databases give names of open databases. -/
def Named (r : Registry) (fs : Files) : Prop :=
  ∀ d ∈ r.databases, ∀ m, (fs.read d.2.manifestPath).bind Manifest.ofBytes = .ok m →
    (r.databases.lookup m.database).isSome

instance decidableForallOk {ε : Type} {P : α → Prop} [DecidablePred P] :
    (result : Except ε α) → Decidable (∀ a, result = .ok a → P a)
  | .ok a => decidable_of_iff (P a) (by simp)
  | .error _ => isTrue nofun

instance (r : Registry) (fs : Files) : Decidable (Named r fs) :=
  inferInstanceAs (Decidable (∀ d ∈ r.databases, ∀ m,
    (fs.read d.2.manifestPath).bind Manifest.ofBytes = .ok m →
      (r.databases.lookup m.database).isSome))

/-- The same of the directories that a search goes through, while it opens databases. -/
structure Searching (base root : Path) (found : List Path) (r : Registry) (fs : Files) : Prop where
  kept : Kept base root r fs
  named : ∀ directory content m, base ++ [directory] ∈ found →
    base ++ [directory] ∈ r.directories →
    Bears root directory content fs → Manifest.ofBytes content = .ok m →
    (r.databases.lookup m.database).isSome

variable {found : List Path} {content : Bytes} {m : Manifest}

theorem lasts_searching (hdown : directory ≠ "..") :
    Lasts (Quiet root directory) (Searching base root found) := fun _ _ _ hR h =>
  ⟨h.kept.along (course_quiet hdown) hR, fun other content m hfound hopen hbears =>
    h.named other content m hfound hopen (hR.bears_iff.mp hbears)⟩

theorem mem_of_filterAuxM {ε β : Type} {check : β → Except ε Bool}
    {l acc kept : List β} {b : β}
    (h : l.filterAuxM check acc = .ok kept) (hb : b ∈ kept) : b ∈ acc ∨ b ∈ l ∧
    check b = .ok true := by
  induction l generalizing acc with
  | nil =>
    cases h
    exact Or.inl hb
  | cons a l ih =>
    rw [List.filterAuxM] at h
    cases ha : check a with
    | error e =>
      rw [ha] at h
      cases h
    | ok keep =>
      rw [ha] at h
      rcases ih h with hacc | ⟨hl, hcheck⟩
      · cases keep with
        | false => exact Or.inl hacc
        | true =>
          rcases List.mem_cons.mp hacc with rfl | hacc
          · exact Or.inr ⟨List.mem_cons_self, ha⟩
          · exact Or.inl hacc
      · exact Or.inr ⟨List.mem_cons_of_mem a hl, hcheck⟩

theorem mem_of_filterM {ε β : Type} {check : β → Except ε Bool} {l kept : List β} {b : β}
    (h : l.filterM check = .ok kept) (hb : b ∈ kept) : b ∈ l ∧ check b = .ok true := by
  unfold List.filterM at h
  cases hrun : l.filterAuxM check [] with
  | error e =>
    rw [hrun] at h
    cases h
  | ok found =>
    rw [hrun] at h
    cases h
    rcases mem_of_filterAuxM hrun (List.mem_reverse.mp hb) with hnil | hmem
    · cases hnil
    · exact hmem

/-- What a search goes through are directories in the data directory, each with a manifest. -/
theorem of_mem_candidates (ht : Tidy base root fs) {p : Path}
    (h : candidates base fs = .ok found) (hp : p ∈ found) :
    ∃ directory, directory ≠ ".." ∧ p = base ++ [directory] ∧
      fs.isThere (base ++ [directory, Database.manifestName]) = .ok true := by
  obtain ⟨hmem, hthere⟩ := mem_of_filterM h hp
  obtain ⟨directory, hname, rfl⟩ := List.mem_map.mp (List.mem_filter.mp hmem).1
  refine ⟨directory, ?_, rfl, ?_⟩
  · rintro rfl
    rw [ht.rooted.mem_names, ht.down] at hname
    cases hname
  · rw [List.append_assoc] at hthere
    exact hthere

/-- The database of a directory joins those that are open, under the name in its manifest. -/
theorem Searching.concat (h : Searching base root found r fs) (hdown : directory ≠ "..")
    (hfree : base ++ [directory] ∉ r.directories) (hnew : r.databases.lookup m.database = none)
    (hd : Database.Kept base root directory d fs) (hbears : Bears root directory content fs)
    (hm : Manifest.ofBytes content = .ok m) :
    Searching base root found { r with databases := Keyed.set m.database d r.databases } fs where
  kept := h.kept.concat hnew hdown hd hfree
  named := by
    intro other content' m' hfound hopen hbears' hm'
    show ((Keyed.set m.database d r.databases).lookup m'.database).isSome
    rw [Keyed.lookup_set]
    split
    · rfl
    · rename_i hne
      obtain ⟨p, hp, hdirectory⟩ := List.mem_map.mp hopen
      rcases Keyed.mem_set hp with rfl | hp
      -- The directory is the new one: its manifest is the one that was read, and its name is open.
      · obtain rfl : directory = other := child_inj.mp (hd.located.symm.trans hdirectory)
        rw [hbears'.eq hbears, hm] at hm'
        cases hm'
        exact absurd (beq_self_eq_true _) hne
      · exact h.named other content' m' hfound
          (List.mem_map.mpr ⟨p, hp, hdirectory⟩) hbears' hm'

/-- The registry as it was, before the database of a manifest is opened. -/
structure Reading (base root : Path) (found : List Path) (directory : String) (content : Bytes)
    (r r' : Registry) (fs : Files) : Prop where
  same : r' = r
  searching : Searching base root found r fs
  bears : Bears root directory content fs

theorem lasts_reading (hdown : directory ≠ "..") (r : Registry) :
    Lasts (Quiet root directory) (Reading base root found directory content r) :=
  fun _ _ _ hR h =>
    ⟨h.same, lasts_searching hdown _ _ _ hR h.searching, hR.bears_iff.mpr h.bears⟩

/-- At most the database in the directory that is looked at joins the others. -/
theorem upholds_discoverIn (hdown : directory ≠ "..") (hfound : base ++ [directory] ∈ found) :
    Meets base root (Quiet root directory) (Searching base root found)
      (discoverIn (base ++ [directory])) (fun _ => Searching base root found)
      (Searching base root found) := by
  have hc : Course base root (Quiet root directory) := course_quiet hdown
  have hpath : base ++ [directory] ++ [Database.manifestName] =
      base ++ [directory, Database.manifestName] := by simp
  unfold discoverIn
  rw [hpath]
  refine (meets_query hc _).bind fun content => ?_
  refine ((meets_ofExcept _).failing fun _ _ h => h.2).bind fun m => ?_
  refine Meets.of_fact (fun _ _ h => h.1) fun hm => ?_
  refine meets_state_eq fun r => ?_
  split
  · exact meets_pure fun _ _ h => h.2.2.2
  rename_i hnew
  have hnone : r.databases.lookup m.database = none := Option.not_isSome_iff_eq_none.mp hnew
  refine Meets.given (P := fun r' fs => Reading base root found directory content r r' fs ∧
    ∃ node, fs.openFile (base ++ [directory, Database.manifestName]) = .ok node) ?_ ?_
  · refine Meets.of_fact (φ := base ++ [directory] ∉ r.directories)
      (fun _ _ h hopen => hnew (h.1.searching.named directory content m hfound hopen h.1.bears hm))
      fun hfree => ?_
    refine ((Database.meets_openIn_known hdown (lasts_reading hdown r)).failing
      fun _ _ h => h.same ▸ h.searching).bind fun d => ?_
    refine meets_changeDatabases (fun r' fs h => ?_) (meets_pure fun _ _ h => h)
    obtain ⟨⟨rfl, hsearching, hbears⟩, hd⟩ := h
    exact hsearching.concat hdown hfree hnone hd hbears hm
  · rintro r' fs ⟨rfl, -, ⟨hread, ht⟩, hsearching⟩
    obtain ⟨hopen, hbears⟩ := ht.bears_of_read hdown hread
    exact ⟨⟨rfl, hsearching, hbears⟩, hopen⟩

theorem Named.searching (h : Named r fs) (hkept : Kept base root r fs) (ht : Tidy base root fs)
    (hfound : candidates base fs = .ok found) : Searching base root found r fs where
  kept := hkept
  named := by
    intro directory content m hmem hopen hbears hm
    obtain ⟨other, hdown, heq, hthere⟩ := of_mem_candidates ht hfound hmem
    obtain rfl : directory = other := child_inj.mp heq
    obtain ⟨d, hd, hdirectory⟩ := List.mem_map.mp hopen
    refine h d hd m ?_
    rw [Database.manifestPath, Database.path_eq hdirectory, hbears.read ht hdown hthere]
    exact hm

/-- A search opens no directory that is open. -/
theorem meets_discover :
    Meets base root (Onward base root) (fun r fs => Kept base root r fs ∧ Named r fs) discover
      (fun _ => Kept base root) (Kept base root) := by
  have hc : Course base root (Onward base root) := course_onward
  unfold discover
  refine meets_state_bind (fun _ _ h => h.1.located) fun r hlocated => ?_
  dsimp only
  rw [hlocated]
  refine Meets.bind ((upholds_ensureDirectory hc fun r fs ht h => ?_).failing fun _ _ h => h.1)
    fun _ => ?_
  · rw [ht.rooted.ensureDirectory]
    exact ⟨hc.refl ht, h⟩
  refine ((meets_query hc _).failing fun _ _ h => h.1).bind fun found => ?_
  refine Meets.of_fact
    (φ := ∀ p ∈ found, ∃ directory, directory ≠ ".." ∧ p = base ++ [directory]) ?_
    fun hfound => ?_
  · intro r fs h p hp
    obtain ⟨directory, hdown, heq, -⟩ := of_mem_candidates h.1.2 h.1.1 hp
    exact ⟨directory, hdown, heq⟩
  have hloop : Upholds base root (Onward base root) (Searching base root found)
      (found.mapM discoverIn) := by
    refine fun fs ht => triple_mapM fun p hp => ?_
    obtain ⟨directory, hdown, rfl⟩ := hfound p hp
    exact (upholds_discoverIn hdown hp).onward hdown fs ht
  have hstart (r : Registry) (fs : Files)
      (h : (candidates base fs = .ok found ∧ Tidy base root fs) ∧ Kept base root r fs ∧
        Named r fs) :
      Searching base root found r fs := h.2.2.searching h.2.1 h.1.2 h.1.1
  refine ((hloop.given hstart).failing fun _ _ h => h.kept).bind fun opened => ?_
  exact meets_ite (fun hgive => (meets_log _ _ _).bind fun _ => hgive)
    (meets_pure fun _ _ h => h.kept)

/-! ### Sequences -/

/-- What can be asked of a registry. -/
inductive Operation where
  | createDatabase (name : String)
  | dropDatabase (name : String)
  | createTable (database : String) (schema : Schema)
  | dropTable (database table : String)
  | insert (database table : String) (row : Row)
  | discover
  | close

/-- A registry and a data directory in order. -/
def Stands (base root : Path) (x : Registry × World) : Prop :=
  Tidy base root x.2.files ∧ Kept base root x.1 x.2.files

namespace Operation

def run : Operation → Work Registry Unit
  | createDatabase name => do let _ ← Registry.createDatabase name
  | dropDatabase name => Registry.dropDatabase name
  | createTable database schema => on database (Database.createTable schema)
  | dropTable database table => on database (Database.dropTable table)
  | insert database table row => on database (Database.onTable table (Store.insert row))
  | discover => do let _ ← Registry.discover
  | close => Registry.close

theorem stands_of_meets {P : Registry → Files → Prop} {x : Work Registry α}
    {y : Registry × World}
    (hx : Meets base root (Onward base root) P x (fun _ => Kept base root) (Kept base root))
    (ht : Tidy base root y.2.files) (hP : P y.1 y.2.files) : Stands base root (x.run y).2 := by
  have hend := hx y.2.files ht y ⟨course_onward.refl ht, hP⟩
  generalize x.run y = ending at hend ⊢
  obtain ⟨result, y'⟩ := ending
  cases result with
  | ok a => exact ⟨hend.1.tidy, hend.2⟩
  | error e => exact ⟨hend.1.tidy, hend.2⟩

/-- Every operation leaves registry and data directory in order, a search if the manifests in open
directories give names of open databases. -/
theorem stands_run {x : Registry × World} (op : Operation) (h : Stands base root x)
    (hnamed : op = discover → Named x.1 x.2.files) : Stands base root (op.run.run x).2 := by
  have hc : Course base root (Onward base root) := course_onward
  obtain ⟨ht, hkept⟩ := h
  cases op with
  | createDatabase name =>
    refine stands_of_meets ?_ ht hkept
    exact (upholds_createDatabase name).bind fun _ => meets_pure fun _ _ h => h
  | dropDatabase name => exact stands_of_meets (upholds_dropDatabase name) ht hkept
  | createTable database schema =>
    refine stands_of_meets (upholds_on database fun directory hdown => ?_) ht hkept
    exact Database.upholds_createTable hdown schema
  | dropTable database table =>
    refine stands_of_meets (upholds_on database fun directory hdown => ?_) ht hkept
    exact Database.upholds_dropTable hdown table
  | insert database table row =>
    refine stands_of_meets (upholds_on database fun directory hdown => ?_) ht hkept
    refine Database.upholds_onTables (Tables.upholds_on hc table fun name => ?_)
    exact (Store.upholds_insert hdown row).onward hdown
  | discover =>
    refine stands_of_meets (P := fun r fs => Kept base root r fs ∧ Named r fs) ?_ ht
      ⟨hkept, hnamed rfl⟩
    exact meets_discover.bind fun _ => meets_pure fun _ _ h => h
  | close => exact stands_of_meets upholds_close ht hkept

/-- Before anything has been made, a database is not opened and nothing is made, or it is opened as
if the data directory had been there. -/
theorem run_openIn_of_made {σ : Type} (name : String) (y : σ) {w : World}
    (hmake : w.files.ensureDirectory base = (.ok (), fs')) (hroot : Rooted fs' base root)
    (hdown : directory ≠ "..") :
    (∃ e, (Database.openIn name (base ++ [directory]) : Work σ Database).run (y, w) =
        (.error e, (y, w))) ∨
      (Database.openIn name (base ++ [directory]) : Work σ Database).run (y, w) =
        (Database.openIn name (base ++ [directory]) : Work σ Database).run
          (y, { w with files := fs' }) := by
  unfold Database.openIn
  rw [run_bind, run_bind, run_ensureDirectory, run_ensureDirectory]
  dsimp only
  rcases ensureDirectory_child_of_made hmake hroot hdown with heq | ⟨e, heq⟩
  · rw [heq]
    exact Or.inr rfl
  · rw [heq]
    exact Or.inl ⟨e, rfl⟩

/-- Before anything has been made, an operation fails and makes nothing, or it goes as if the data
directory had been there. -/
theorem run_of_made {w : World} (op : Operation)
    (hmake : w.files.ensureDirectory base = (.ok (), fs')) (hroot : Rooted fs' base root) :
    (op.run.run (⟨base, []⟩, w)).2 = (⟨base, []⟩, w) ∨
      (op.run.run (⟨base, []⟩, w)).2 =
      (op.run.run (⟨base, []⟩, { w with files := fs' })).2 := by
  cases op with
  | createDatabase name =>
    unfold run
    rw [snd_run_andReturn, snd_run_andReturn]
    unfold Registry.createDatabase
    rw [run_bind_of_ok (Work.run_state _), run_bind_of_ok (Work.run_state _)]
    dsimp only
    split
    · exact Or.inl rfl
    split
    · exact Or.inl rfl
    rename_i hstorable
    split
    · exact Or.inl rfl
    have hdown : Name.sanitize name ≠ ".." := ne_up_of_storable (by simpa using hstorable)
    rcases run_openIn_of_made name (⟨base, []⟩ : Registry) hmake hroot hdown
      with ⟨e, heq⟩ | heq
    · rw [run_bind_of_error heq]
      exact Or.inl rfl
    · rw [run_bind, run_bind, heq]
      exact Or.inr rfl
  | dropDatabase name => exact Or.inl rfl
  | createTable database schema => exact Or.inl rfl
  | dropTable database table => exact Or.inl rfl
  | insert database table row => exact Or.inl rfl
  | discover =>
    right
    unfold run Registry.discover
    simp only [snd_run_andReturn]
    rw [run_bind_of_ok (Work.run_state _), run_bind_of_ok (Work.run_state _), run_bind, run_bind,
      run_ensureDirectory, run_ensureDirectory]
    dsimp only
    rw [hmake, hroot.ensureDirectory]
  | close => exact Or.inl rfl

end Operation

/-- Operations one after another, whichever of them fail. -/
def runAll (ops : List Operation) (x : Registry × World) : Registry × World :=
  ops.foldl (fun x op => (op.run.run x).2) x

theorem runAll_cons (op : Operation) (ops : List Operation) (x : Registry × World) :
    runAll (op :: ops) x = runAll ops (op.run.run x).2 := rfl

/-- Whenever a search begins, the manifests in open directories give names of open databases. -/
def Careful (x : Registry × World) : List Operation → Prop
  | [] => True
  | op :: ops => (op = .discover → Named x.1 x.2.files) ∧ Careful (op.run.run x).2 ops

/-- A data directory that has been made, and in which nothing is. -/
theorem stands_bare (hb : fs.Bare base) (hs : fs.Sane) :
    ∃ fs' root, fs.ensureDirectory base = (.ok (), fs') ∧ Rooted fs' base root ∧
      ∀ w : World, Stands base root (⟨base, []⟩, { w with files := fs' }) := by
  obtain ⟨fs', root, hmake, hroot, hs', -, hempty⟩ := hb.rooted hs
  refine ⟨fs', root, hmake, hroot,
    fun w => ⟨⟨hs', hroot, hempty _ (below_child root ".."), ?_⟩, ?_⟩⟩
  · rintro q node ⟨directory, rfl | rfl⟩ hnode
    · rw [hempty _ ⟨directory, _, rfl⟩] at hnode
      cases hnode
    · rw [hempty _ ⟨directory, _, rfl⟩] at hnode
      cases hnode
  · exact ⟨rfl, nofun, List.nodup_nil⟩

theorem stands_runAll {x : Registry × World} {ops : List Operation} (h : Stands base root x)
    (hops : Careful x ops) : Stands base root (runAll ops x) := by
  induction ops generalizing x with
  | nil => exact h
  | cons op ops ih =>
    obtain ⟨hnamed, hrest⟩ := hops
    exact ih (op.stands_run h hnamed) hrest

/-- Registries that are made on a bare data directory come to be in order, once anything is made. -/
theorem stands_runAll_of_bare {w : World} {ops : List Operation} (hw : w.files.Sane)
    (hbare : w.files.Bare base) (hops : Careful (⟨base, []⟩, w) ops) :
    runAll ops (⟨base, []⟩, w) = (⟨base, []⟩, w) ∨
      ∃ root, Stands base root (runAll ops (⟨base, []⟩, w)) := by
  obtain ⟨fs', root, hmake, hroot, hstands⟩ := stands_bare hbare hw
  induction ops with
  | nil => exact Or.inl rfl
  | cons op ops ih =>
    obtain ⟨hnamed, hrest⟩ := hops
    rw [runAll_cons]
    -- Until the first operation that makes something, the run stays where it began.
    rcases op.run_of_made hmake hroot with hsame | hmade
    · rw [hsame] at hrest ⊢
      exact ih hrest
    · refine Or.inr ⟨root, stands_runAll ?_ hrest⟩
      rw [hmade]
      exact op.stands_run (hstands w) fun _ => nofun

/-- From a bare data directory on, no two open databases have the same directory and no two open
tables have the same file, as long as searches begin when the manifests in open directories give
names of open databases. -/
theorem directories_nodup {dataDir : Path} {w : World} {ops : List Operation} (hw : w.files.Sane)
    (hbare : w.files.Bare dataDir) (hops : Careful (⟨dataDir, []⟩, w) ops) :
    ((runAll ops (⟨dataDir, []⟩, w)).1.databases.map fun d => d.2.directory).Nodup ∧
      ((runAll ops (⟨dataDir, []⟩, w)).1.databases.flatMap fun d =>
        d.2.tables.map fun t => t.2.path).Nodup := by
  rcases stands_runAll_of_bare hw hbare hops with hsame | ⟨root, -, hkept⟩
  · rw [hsame]
    exact ⟨List.nodup_nil, List.nodup_nil⟩
  · exact ⟨hkept.apart, hkept.paths_nodup⟩

/-- The directory of a database that was closed is opened as that of a database of another name. -/
def rivals : List Operation := [.createDatabase "x", .close, .createDatabase "x/"]

/-- The new database is dropped with the manifest of the old one, and a search finds its own. -/
theorem directories_nodup_rivals :
    let ops : List Operation := rivals ++
      [.dropDatabase "x/", .createDatabase "x/", .createDatabase "y", .discover]
    ((runAll ops (⟨["data"], []⟩, World.empty "/")).1.databases.map
      fun d => d.2.directory).Nodup ∧
      ((runAll ops (⟨["data"], []⟩, World.empty "/")).1.databases.flatMap fun d =>
        d.2.tables.map fun t => t.2.path).Nodup := by
  refine directories_nodup (sane_empty "/") (bare_empty "/" (by decide)) ?_
  exact ⟨nofun, nofun, nofun, nofun, nofun, nofun, fun _ => by decide +kernel, trivial⟩

/-- With the manifest of the old database left, a search opens the directory again under its
name. -/
theorem discover_shares_directory :
    (runAll (rivals ++ [.discover]) (⟨["data"], []⟩, World.empty "/")).1.databases.map
        (fun d => (d.1, d.2.directory)) =
      [("x/", ["data", "x"]), ("x", ["data", "x"])] := by
  decide +kernel

/-! ### Files of tables -/

/-- The files of all tables of all databases are different ones. -/
theorem Shows.paths_nodup {site : Memory.Site} {root : Path} {fs : Files} {m : Memory}
    (h : Shows site root fs r m) :
    (r.databases.flatMap fun d => d.2.tables.map fun t => t.2.path).Nodup := by
  have hpaths : r.databases.map (fun d => d.2.tables.map fun t => t.2.path) =
      m.map fun d => d.2.map fun t => site.home d.1 ++ [Name.tableFile t.1] :=
    h.databases.map_eq fun name d tables hd => hd.2.tables.map_eq fun table st t hst => hst.path_eq
  rw [List.flatMap_def, hpaths, ← List.flatMap_def, List.nodup_flatMap]
  constructor
  · rintro ⟨name, tables⟩ hmem
    obtain ⟨d, -, -, hshows⟩ := h.databases.of_mem_right hmem
    have hnames : ((Keyed.keys tables).map Name.sanitize).Nodup := hshows.apart
    rw [Keyed.keys, List.map_map] at hnames
    refine List.pairwise_map.mpr ((List.pairwise_map.mp hnames).imp fun {a b} hne heq => hne ?_)
    exact Name.tableFile_inj.mp (child_inj.mp heq)
  · have hapart : m.Pairwise fun a b => Name.sanitize a.1 ≠ Name.sanitize b.1 := by
      have hnames : ((Keyed.keys m).map Name.sanitize).Nodup := h.apart
      rw [Keyed.keys, List.map_map] at hnames
      exact List.pairwise_map.mp hnames
    refine hapart.imp fun {a b} hne => ?_
    intro p ha hb
    obtain ⟨t, -, rfl⟩ := List.mem_map.mp ha
    obtain ⟨t', -, heq⟩ := List.mem_map.mp hb
    have hhome : site.home b.1 = site.home a.1 := (List.append_inj' heq rfl).1
    exact hne (child_inj.mp hhome).symm

end Registry
end Tabulary
