import Mathlib.Data.List.Perm.Basic
import Tabulary.Proofs.Catalog.Loading
import Tabulary.Proofs.Catalog.Registry
import Tabulary.Proofs.Files.Bare

/-!
Finding the databases below a data directory.  Those that are found are the ones that were made and
not dropped, in the order of the names of their directories.
-/

namespace Tabulary
namespace Registry

open Files

variable {site : Memory.Site} {root : Path} {r : Registry} {fs : Files} {w : World} {m : Memory}
  {name : String} {tables : Memory.Tables}

/-- Some of the databases are open, and the files are what they were. -/
structure Finding (site : Memory.Site) (root : Path) (fs : Files) (m : Memory)
    (x : Registry × World) : Prop where
  located : x.1.dataDir = site.directory
  files : x.2.files = fs
  found : ∃ m' : Memory, m' ⊆ m ∧ (Keyed.keys m').Nodup ∧
    Keyed.Match (Has site root fs) x.1.databases m'

theorem Finding.mem {x : Registry × World} (h : Finding site root fs m x)
    (hname : name ∈ Keyed.keys x.1.databases) : name ∈ Keyed.keys m := by
  obtain ⟨m', hsub, -, hmatch⟩ := h.found
  rw [hmatch.keys_eq] at hname
  exact List.map_subset _ hsub hname

/-- A database that is opened joins those that have been found. -/
theorem Finding.concat {x : Registry × World} (h : Finding site root fs m x) {d : Database}
    (hmem : (name, tables) ∈ m) (hnew : name ∉ Keyed.keys x.1.databases)
    (hd : Has site root fs name d tables) (hfiles : w.files = fs) :
    Finding site root fs m ({ x.1 with databases := x.1.databases ++ [(name, d)] }, w) := by
  obtain ⟨m', hsub, hnodup, hmatch⟩ := h.found
  refine ⟨h.located, hfiles, m' ++ [(name, tables)], ?_, ?_, hmatch.concat hd⟩
  · exact List.append_subset.mpr ⟨hsub, List.cons_subset.mpr ⟨hmem, List.nil_subset _⟩⟩
  · rw [Keyed.keys, List.map_append, List.nodup_append]
    refine ⟨hnodup, List.nodup_singleton _, ?_⟩
    rintro other hother _ hlast rfl
    rw [List.mem_singleton.mp hlast] at hother
    exact hnew (hmatch.keys_eq ▸ hother)

/-- The database in a directory is found, unless it has been found before. -/
theorem Shows.run_discoverIn (h : Shows site root fs r m) (hmem : (name, tables) ∈ m)
    {x : Registry × World} (hx : Finding site root fs m x) :
    ∃ o x', (discoverIn (site.home name)).run x = (.ok o, x') ∧ Finding site root fs m x' ∧
      name ∈ Keyed.keys x'.1.databases ∧
      ∀ other ∈ Keyed.keys x.1.databases, other ∈ Keyed.keys x'.1.databases := by
  obtain ⟨r₁, w⟩ := x
  obtain ⟨d, -, hn, hshows⟩ := h.databases.of_mem_right hmem
  dsimp only at hshows hn ⊢
  obtain rfl : w.files = fs := hx.files
  have hread : (Work.query fun fs => fs.read (site.home name ++ [Database.manifestName]) :
      Work Registry Bytes).run (r₁, w) =
        (.ok (Text.toBytes (Database.manifestOf name tables).render), (r₁, w)) := by
    rw [Work.run_query]
    exact congrArg (·, (r₁, w)) hshows.read_manifest
  have hdatabase : (Database.manifestOf name tables).database = name := rfl
  unfold discoverIn
  rw [Attempt.run_bind_of_ok hread, Manifest.ofBytes_render,
    Attempt.run_bind_of_ok (Attempt.run_ofExcept _ _), Attempt.run_bind_of_ok (Work.run_state _)]
  dsimp only
  rw [hdatabase]
  cases hopen : r₁.databases.lookup name with
  | some d₁ =>
    exact ⟨none, (r₁, w), rfl, hx, Keyed.mem_keys_of_lookup hopen, fun other hother => hother⟩
  | none =>
    obtain ⟨d', w', hagain, hfiles, hshows'⟩ := hshows.run_openIn_again (σ := Registry) r₁
    have hnew : name ∉ Keyed.keys r₁.databases := by
      intro hkey
      obtain ⟨d₁, hd₁⟩ := Keyed.exists_lookup hkey
      rw [hopen] at hd₁
      cases hd₁
    have hkeys : Keyed.keys (r₁.databases ++ [(name, d')]) =
        Keyed.keys r₁.databases ++ [name] :=
      List.map_append
    refine ⟨some name, ({ r₁ with databases := r₁.databases ++ [(name, d')] }, w'), ?_,
      hx.concat hmem hnew ⟨hn, hshows'⟩ hfiles, ?_, ?_⟩
    · simp only [Option.isSome_none, Bool.false_eq_true, if_false]
      rw [Attempt.run_bind_of_ok hagain, ← Keyed.set_of_not_mem hnew]
      rfl
    · rw [hkeys]
      exact List.mem_append_right _ List.mem_cons_self
    · rw [hkeys]
      exact fun other hother => List.mem_append_left _ hother

/-! ## Candidates -/

/-- All are kept where the check succeeds for all. -/
theorem filterM_eq_ok {α : Type} {ε : Type} {check : α → Except ε Bool} {l : List α}
    (h : ∀ a ∈ l, check a = .ok true) : l.filterM check = .ok l := by
  have hacc (l acc : List α) (h : ∀ a ∈ l, check a = .ok true) :
      l.filterAuxM check acc = .ok (l.reverse ++ acc) := by
    induction l generalizing acc with
    | nil => rfl
    | cons a l ih =>
      rw [List.filterAuxM, h a List.mem_cons_self]
      refine (ih (a :: acc) fun b hb => h b (List.mem_cons_of_mem a hb)).trans ?_
      rw [List.reverse_cons, List.append_assoc]
      rfl
  rw [List.filterM, hacc l [] h, List.append_nil]
  exact congrArg Except.ok (List.reverse_reverse l)

/-- What is looked at are the directories of the databases. -/
theorem Shows.candidates_eq (h : Shows site root fs r m) :
    ∃ directories, candidates site.directory fs = .ok directories ∧
      (∀ p ∈ directories, ∃ x ∈ m, p = site.home x.1) ∧
      ∀ name ∈ Keyed.keys m, site.home name ∈ directories := by
  have hdirectory : ∀ p ∈ (fs.names site.directory).map fun n => site.directory ++ [n],
      ∃ x ∈ m, p = site.home x.1 := by
    intro p hp
    obtain ⟨n, hn, rfl⟩ := List.mem_map.mp hp
    obtain ⟨name, hname, rfl⟩ := h.only n [] (h.rooted.mem_names.mp hn)
    obtain ⟨x, hx, rfl⟩ := List.mem_map.mp hname
    exact ⟨x, hx, rfl⟩
  have hthere : ∀ x ∈ m, fs.isDirectory (site.home x.1) = true ∧
      fs.isThere (site.home x.1 ++ [Database.manifestName]) = .ok true := by
    intro x hx
    obtain ⟨d, -, hn, hshows⟩ := h.databases.of_mem_right hx
    refine ⟨?_, hshows.isThere_manifest⟩
    rw [Memory.Site.home, h.rooted.isDirectory_child hn, hshows.rooted.directory]
    rfl
  have hfilter : ((fs.names site.directory).map fun n => site.directory ++ [n]).filter
      fs.isDirectory = (fs.names site.directory).map fun n => site.directory ++ [n] := by
    refine List.filter_eq_self.mpr fun p hp => ?_
    obtain ⟨x, hx, rfl⟩ := hdirectory p hp
    exact (hthere x hx).1
  refine ⟨(fs.names site.directory).map fun n => site.directory ++ [n], ?_, hdirectory, ?_⟩
  · rw [candidates, hfilter]
    refine filterM_eq_ok fun p hp => ?_
    obtain ⟨x, hx, rfl⟩ := hdirectory p hp
    exact (hthere x hx).2
  · intro name hname
    refine List.mem_map_of_mem (h.rooted.mem_names.mpr ?_)
    obtain ⟨x, hx, rfl⟩ := List.mem_map.mp hname
    obtain ⟨d, -, hn, hshows⟩ := h.databases.of_mem_right hx
    rw [hshows.rooted.directory]
    rfl

/-! ## All databases -/

/-- Distinct databases among which all names of others are found are those others. -/
theorem perm_of_subset {m' : Memory} (hsub : m' ⊆ m) (hnodup : (Keyed.keys m').Nodup)
    (hnodup' : (Keyed.keys m).Nodup) (hall : ∀ name ∈ Keyed.keys m, name ∈ Keyed.keys m') :
    m'.Perm m := by
  refine (List.perm_ext_iff_of_nodup hnodup.of_map hnodup'.of_map).mpr fun x =>
    ⟨fun hx => hsub hx, ?_⟩
  intro hx
  obtain ⟨y, hy, hname⟩ := List.mem_map.mp (hall x.1 (List.mem_map_of_mem hx))
  have hlookup : m.lookup x.1 = some y.2 := Keyed.lookup_of_mem hnodup' (hname ▸ hsub hy)
  rw [Keyed.lookup_of_mem hnodup' hx] at hlookup
  have heq : x = y := Prod.ext hname.symm (Option.some.inj hlookup)
  exact heq ▸ hy

/-- Where all databases have been found, the registry shows them. -/
theorem Finding.shows {x : Registry × World} (hx : Finding site root fs m x)
    (h : Shows site root fs r m) (hall : ∀ name ∈ Keyed.keys m,
      name ∈ Keyed.keys x.1.databases) :
    ∃ m', m'.Perm m ∧ Shows site root fs x.1 m' := by
  obtain ⟨m', hsub, hnodup, hmatch⟩ := hx.found
  rw [hmatch.keys_eq] at hall
  have hperm : m'.Perm m := perm_of_subset hsub hnodup h.apart.keys hall
  refine ⟨m', hperm, hx.located, h.anchor, h.rooted, h.sane, hmatch, ?_, ?_⟩
  · exact ((hperm.map Prod.fst).map Name.sanitize).nodup_iff.mpr h.apart
  · intro directory rest hsome
    obtain ⟨name, hname, heq⟩ := h.only directory rest hsome
    exact ⟨name, hall name hname, heq⟩

/-- All databases are found when the directories are gone through. -/
theorem Shows.run_discoverIn_mapM (h : Shows site root fs r m) {x : Registry × World}
    (hx : Finding site root fs m x) {directories : List Path}
    (hof : ∀ p ∈ directories, ∃ y ∈ m, p = site.home y.1)
    (hall : ∀ name ∈ Keyed.keys m, site.home name ∈ directories) :
    ∃ found x', (directories.mapM discoverIn).run x = (.ok found, x') ∧
      Finding site root fs m x' ∧ ∀ name ∈ Keyed.keys m,
      name ∈ Keyed.keys x'.1.databases := by
  have hstep : ∀ p ∈ directories, ∀ x, Finding site root fs m x →
      ∃ o x', (discoverIn p).run x = (.ok o, x') ∧ Finding site root fs m x' ∧
        (∃ name ∈ Keyed.keys x'.1.databases, p = site.home name) ∧
        ∀ q, (∃ name ∈ Keyed.keys x.1.databases, q = site.home name) →
          ∃ name ∈ Keyed.keys x'.1.databases, q = site.home name := by
    intro p hp x hx
    obtain ⟨⟨name, tables⟩, hmem, rfl⟩ := hof p hp
    obtain ⟨o, x', hrun, hx', hname, hkept⟩ := h.run_discoverIn hmem hx
    refine ⟨o, x', hrun, hx', ⟨name, hname, rfl⟩, ?_⟩
    rintro q ⟨other, hother, rfl⟩
    exact ⟨other, hkept other hother, rfl⟩
  obtain ⟨found, x', hrun, hx', hdone, -⟩ :=
    Attempt.exists_run_mapM (P := fun p x => ∃ name ∈ Keyed.keys x.1.databases,
      p = site.home name) hstep hx
  refine ⟨found, x', hrun, hx', fun name hname => ?_⟩
  obtain ⟨other, hother, heq⟩ := hdone _ (hall name hname)
  rw [Memory.Site.home, Memory.Site.home, child_inj] at heq
  rwa [h.apart.eq hname (hx'.mem hother) heq]

/-- A registry that has just been made finds all databases below its directory. -/
theorem Shows.run_discover (h : Shows site root w.files r m) :
    ∃ names r' w' m', discover.run (⟨site.directory, []⟩, w) = (.ok names, (r', w')) ∧
      w'.files = w.files ∧ m'.Perm m ∧ Shows site root w.files r' m' := by
  let start : Registry × World := (⟨site.directory, []⟩, w)
  obtain ⟨directories, hcandidates, hof, hall⟩ := h.candidates_eq
  have hstart : Finding site root w.files m start :=
    ⟨rfl, rfl, [], List.nil_subset _, List.nodup_nil, .nil⟩
  obtain ⟨found, ⟨r', w₁⟩, hrun, hfinding, hfound⟩ :=
    h.run_discoverIn_mapM hstart hof hall
  obtain ⟨m', hperm, hshows⟩ := hfinding.shows h hfound
  have hensure : (Work.ensureDirectory site.directory : Work Registry Unit).run start =
      (.ok (), start) := by
    rw [Work.run_ensureDirectory, h.rooted.ensureDirectory]
  have hquery : (Work.query (candidates site.directory) : Work Registry (List Path)).run start =
      (.ok directories, start) := congrArg (·, start) hcandidates
  have hdiscover : ∃ names w', discover.run start = (.ok names, (r', w')) ∧
      w'.files = w₁.files := by
    unfold discover
    rw [Attempt.run_bind_of_ok (Work.run_state _), Attempt.run_bind_of_ok hensure,
      Attempt.run_bind_of_ok hquery, Attempt.run_bind_of_ok hrun]
    dsimp only
    split
    · exact ⟨_, _, rfl, rfl⟩
    · exact ⟨_, _, rfl, rfl⟩
  obtain ⟨names, w', hnames, hlogged⟩ := hdiscover
  exact ⟨names, r', w', m', hnames, hlogged.trans hfinding.files, hperm, hshows⟩

end Registry
end Tabulary
