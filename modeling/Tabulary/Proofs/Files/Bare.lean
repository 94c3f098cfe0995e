import Mathlib.Data.List.Basic
import Tabulary.Proofs.Files.Edit
import Tabulary.Proofs.Keyed

/-!
Directories as a start finds them: what making one does, what it is to be empty, and which names
there are in one.  What is made stands where there was nothing, and changes nothing else.
-/

namespace Tabulary
namespace Files

variable {fs fs' : Files} {p place here : Path} {name : String}

/-! ## Making files and directories -/

/-- A change at places where there was nothing. -/
abbrev Grown (fs fs' : Files) : Prop := Edit (fs.entry? · = none) fs fs'

theorem Edit.grown (h : Edit (· = place) fs fs') (hnone : fs.entry? place = none) : Grown fs fs' :=
  h.mono fun _ hq => hq ▸ hnone

namespace Grown

variable {fs'' : Files}

theorem entry_of_some (h : Grown fs fs') {q : Path} {e : Entry} (hq : fs.entry? q = some e) :
    fs'.entry? q = some e := by
  rw [h.entry q (by simp [hq]), hq]

theorem trans (h : Grown fs fs') (h' : Grown fs' fs'') : Grown fs fs'' := by
  refine Edit.trans h (h'.mono fun q hq => ?_)
  by_contra hsome
  obtain ⟨e, he⟩ := Option.ne_none_iff_exists'.mp hsome
  rw [h.entry_of_some he] at hq
  cases hq

/-- A file that is there is still there, with the same bytes. -/
theorem openFile (h : Grown fs fs') {node : Nat} (hopen : fs.openFile p = .ok node) :
    fs'.openFile p = .ok node ∧ fs'.nodeBytes node = fs.nodeBytes node := by
  obtain ⟨hnul, q, hwalk, hentry⟩ := openFile_eq_ok.mp hopen
  refine ⟨openFile_eq_ok.mpr ⟨hnul, q, ?_, h.entry_of_some hentry⟩,
    h.bytes q node (by simp [hentry]) hentry⟩
  exact walk_of_entries (fun _ _ he => h.entry_of_some he) hwalk

end Grown

theorem grown_of_makeOne (hs : fs.Sane) (h : fs.makeOne p = .ok fs') : Grown fs fs' := by
  unfold makeOne at h
  cases hwalk : fs.walk [] p with
  | error why =>
    rw [hwalk] at h
    cases h
  | ok place =>
    rw [hwalk] at h
    simp only [bind, Except.bind] at h
    split at h
    · cases h
    · rename_i hnone
      split at h
      · cases h
        exact (edit_directory hs hnone).grown hnone
      · cases h
      · cases h

theorem grown_of_guarded_makeOne (hs : fs.Sane) (h : fs.guarded p (fs.makeOne p) = .ok fs') :
    Grown fs fs' := grown_of_makeOne hs (guarded_eq_ok.mp h).2

theorem grown_ensureOne (hs : fs.Sane) (h : fs.ensureOne p = .ok fs') : Grown fs fs' := by
  unfold ensureOne at h
  split at h
  · rename_i hmake
    cases h
    exact grown_of_guarded_makeOne hs hmake
  · split at h
    · cases h
      exact Edit.refl hs
    · cases h

/-- Making directories leaves what there is. -/
theorem grown_ensureDirectory (hs : fs.Sane) (p : Path) : Grown fs (fs.ensureDirectory p).2 := by
  fun_induction ensureDirectory fs p with
  | case1 p fs' hmake => exact grown_of_guarded_makeOne hs hmake
  | case2 path target hmake => exact Edit.refl hs
  | case3 p path target hmake hne e fs' hfront ih =>
    rw [hfront] at ih
    exact ih
  | case4 p path target hmake hne fs' hfront fs'' hone ih =>
    rw [hfront] at ih
    exact Grown.trans ih (grown_ensureOne ih.sane hone)
  | case5 p path target hmake hne fs' hfront e hone ih =>
    rw [hfront] at ih
    exact ih
  | case6 p e hmake hother hthere => exact Edit.refl hs
  | case7 p e hmake hother hthere => exact Edit.refl hs

/-- What is made where a path leads to nothing is a file more. -/
theorem grown_of_create (hs : fs.Sane) (hmissing : fs.isThere p = .ok false) {node : Nat}
    (h : fs.create p = .ok (node, fs')) : Grown fs fs' := by
  obtain ⟨hnul, hmade⟩ := guarded_eq_ok.mp h
  unfold isThere Files.find at hmissing
  rw [hnul, if_neg Bool.false_ne_true] at hmissing
  cases hwalk : fs.walk [] p with
  | error why =>
    rw [hwalk] at hmade
    cases hmade
  | ok place =>
    rw [hwalk] at hmade hmissing
    simp only [bind, Except.bind] at hmade hmissing
    cases hentry : fs.entry? place with
    | some e =>
      rw [hentry] at hmissing
      cases hmissing
    | none =>
      rw [hentry] at hmade
      dsimp only at hmade
      split at hmade
      · cases hmade
        exact (edit_create hs hentry []).grown hentry
      · cases hmade
      · cases hmade

/-- Making the file of a table ready leaves what there is. -/
theorem Readies.grown (h : fs.Readies p fs') (hs : fs.Sane) : Grown fs fs' := by
  have hmade := grown_ensureDirectory hs p.dropLast
  cases h with
  | there directory there =>
    rw [directory] at hmade
    exact hmade
  | made directory missing made =>
    rw [directory] at hmade
    exact Grown.trans hmade (grown_of_create hmade.sane missing made)

/-! ## An empty directory -/

/-- The directory is there, or it can be made, and nothing is in it. -/
structure Bare (fs : Files) (p : Path) : Prop where
  visible : hasNul p = false
  empty : ∃ fs' place, fs.ensureDirectory p = (.ok (), fs') ∧
    fs'.find p = .ok (place, .directory) ∧ ∀ q, Below place q → fs'.entry? q = none

/-- There are no directories in a directory, whatever files there are. -/
def Flat (fs : Files) (place : Path) : Prop :=
  ∀ q, Below place q → fs.entry? q ≠ some .directory

theorem Flat.edit {touched : Path → Prop} (h : fs.Flat place) (he : Edit touched fs fs')
    (hnew : ∀ q, touched q → fs'.entry? q ≠ some .directory) : fs'.Flat place := by
  intro q hq
  by_cases ht : touched q
  · exact hnew q ht
  · rw [he.entry q ht]
    exact h q hq

theorem Flat.edit_file {q : Path} {node : Nat} (h : fs.Flat place) (he : Edit (· = q) fs fs')
    (hfile : fs'.entry? q = some (.file node)) : fs'.Flat place := by
  refine h.edit he ?_
  rintro _ rfl
  rw [hfile]
  exact nofun

/-- A path that leads to a directory without directories does not pass through places below it. -/
theorem Flat.walk (h : fs.Flat place)
    (hsame : ∀ q, ¬Below place q → fs'.entry? q = fs.entry? q)
    {target : Path} (hw : fs.walk here p = .ok target) : fs'.walk here p = .ok target := by
  induction p generalizing here with
  | nil => exact hw
  | cons name rest ih =>
    have hnot : ¬Below place here := by
      intro hb
      rw [Files.walk] at hw
      cases he : fs.entry? here with
      | none =>
        rw [he] at hw
        cases hw
      | some e =>
        rw [he] at hw
        cases e with
        | file node => cases hw
        | directory => exact h here hb he
    rw [Files.walk] at hw ⊢
    rw [hsame here hnot]
    cases he : fs.entry? here with
    | none =>
      rw [he] at hw
      cases hw
    | some e =>
      rw [he] at hw
      cases e with
      | file node => cases hw
      | directory =>
        dsimp only at hw ⊢
        split at hw
        · cases hw
        · rename_i hshort
          rw [if_neg hshort]
          split at hw
          · rename_i hup
            rw [if_pos hup]
            exact ih hw
          · rename_i hup
            rw [if_neg hup]
            exact ih hw

theorem Flat.rooted (h : fs.Flat place) (hvisible : hasNul p = false)
    (hfind : fs.find p = .ok (place, .directory)) : Rooted fs p place := by
  obtain ⟨hwalk, hentry⟩ := find_eq_ok.mp hfind
  exact ⟨hvisible, hentry, fun fs' hsame => h.walk hsame hwalk⟩

/-- Making a bare directory gives one that paths lead to, with nothing in it. -/
theorem Bare.rooted (hb : fs.Bare p) (hs : fs.Sane) :
    ∃ fs' place, fs.ensureDirectory p = (.ok (), fs') ∧ Rooted fs' p place ∧ fs'.Sane ∧
      fs'.anchor = fs.anchor ∧ ∀ q, Below place q → fs'.entry? q = none := by
  obtain ⟨fs', place, hmake, hfind, hempty⟩ := hb.empty
  have hgrown := grown_ensureDirectory hs p
  rw [hmake] at hgrown
  have hflat : fs'.Flat place := fun q hq => by
    rw [hempty q hq]
    exact nofun
  exact ⟨fs', place, hmake, hflat.rooted hb.visible hfind, hgrown.sane, hgrown.anchor, hempty⟩

/-- A directory can be made where there is nothing. -/
theorem Rooted.bare_child (h : Rooted fs p place) (hs : fs.Sane) (hn : Plain name)
    (hnothing : ∀ rest, fs.entry? (place ++ name :: rest) = none) : fs.Bare (p ++ [name]) := by
  have hnone : fs.entry? (place ++ [name]) = none := hnothing []
  obtain ⟨fs', hmake, hedit, hthere⟩ := h.ensureDirectory_child hs hn hnone
  have hrooted : Rooted fs' p place := hedit.rooted_child h
  have hfind : fs'.find (p ++ [name]) = .ok (place ++ [name], .directory) := by
    rw [hrooted.find_child hn, hthere]
  refine ⟨h.visible_child hn, fs', place ++ [name], hmake, hfind, ?_⟩
  rintro q ⟨other, rest, rfl⟩
  rw [hedit.entry _ (by simp), List.append_assoc]
  exact hnothing (other :: rest)

/-! ## A file system without files -/

theorem entry?_empty (anchor : String) {q : Path} (hq : q ≠ []) :
    Files.entry? (empty anchor) q = none := by
  rw [entry?_of_ne_nil hq]
  rfl

theorem sane_empty (anchor : String) : (empty anchor).Sane := by
  have hfile (q : Path) (node : Nat) : Files.entry? (empty anchor) q ≠ some (.file node) := by
    by_cases hq : q = []
    · subst hq
      exact nofun
    · rw [entry?_empty anchor hq]
      exact nofun
  exact ⟨fun he => absurd he (hfile _ _), fun he => absurd he (hfile _ _)⟩

theorem bare_empty (anchor : String) (hn : Plain name) : (empty anchor).Bare [name] := by
  have hroot : Rooted (empty anchor) [] [] := ⟨rfl, rfl, fun _ _ => rfl⟩
  exact hroot.bare_child (sane_empty anchor) hn fun rest =>
    entry?_empty anchor (List.cons_ne_nil _ _)

/-! ## The names in a directory -/

/-- The names in a directory are those of the places right below it. -/
theorem Rooted.mem_names (h : Rooted fs p place) :
    name ∈ fs.names p ↔ (fs.entry? (place ++ [name])).isSome := by
  unfold names
  rw [h.find]
  dsimp only
  rw [List.mem_mergeSort, entry?_of_ne_nil (child_ne_nil place name), List.mem_filterMap]
  constructor
  · rintro ⟨e, he, hname⟩
    split at hname
    · rename_i hplace
      have hpath : e.1.dropLast ++ [name] = e.1 := List.dropLast_append_getLast? name hname
      rw [hplace] at hpath
      obtain ⟨v, hv⟩ := Keyed.exists_lookup (l := fs.entries) (List.mem_map_of_mem he)
      rw [hpath, hv]
      rfl
    · cases hname
  · intro hsome
    obtain ⟨e, he⟩ := Option.isSome_iff_exists.mp hsome
    obtain ⟨xs, ys, hentries, -⟩ := List.lookup_eq_some_iff.mp he
    refine ⟨(place ++ [name], e), by rw [hentries]; simp, ?_⟩
    rw [if_pos (List.dropLast_concat), List.getLast?_concat]

end Files
end Tabulary
