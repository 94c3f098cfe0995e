import Tabulary.Proofs.Files.Effect

/-!
Changes of a few files in a directory.  Nothing need be known of the directory: it may be missing
and made on the way.  What can be read in it under other names is read as before, and no file comes
into being elsewhere.
-/

namespace Tabulary
namespace Files

variable {fs fs' fs'' : Files} {p q : Path} {name other : String} {names names' : List String}
  {node : Nat} {bytes : Bytes}

/-- Where a name in a directory leads to. -/
theorem of_walk_child (h : fs.walk [] (p ++ [name]) = .ok q) (hdown : name ≠ "..") :
    ∃ place, fs.walk [] p = .ok place ∧ q = place ++ [name] := by
  rw [walk_append] at h
  cases hp : fs.walk [] p with
  | error why =>
    rw [hp] at h
    cases h
  | ok place =>
    rw [hp] at h
    exact ⟨place, rfl, walk_down (by simpa using hdown.symm) h⟩

/-- Different names in a directory lead to different places. -/
theorem eq_of_walk_child (h : fs.walk [] (p ++ [name]) = .ok q)
    (h' : fs.walk [] (p ++ [other]) = .ok q)
    (hdown : name ≠ "..") (hdown' : other ≠ "..") : name = other := by
  obtain ⟨place, hp, rfl⟩ := of_walk_child h hdown
  obtain ⟨place', hp', heq⟩ := of_walk_child h' hdown'
  obtain rfl : place = place' := Except.ok.inj (hp.symm.trans hp')
  exact child_inj.mp heq

/-- Only the files of some names in a directory may be others, have come or gone.  Directories may
have been made. -/
structure Local (p : Path) (names : List String) (fs fs' : Files) : Prop where
  sane : fs'.Sane
  directories : ∀ q, fs.entry? q = some .directory → fs'.entry? q = some .directory
  kept : ∀ q node, (∀ name ∈ names, fs'.walk [] (p ++ [name]) ≠ .ok q) →
    fs.entry? q = some (.file node) → fs'.entry? q = some (.file node) ∧
    fs'.nodeBytes node = fs.nodeBytes node
  old : ∀ q node, (∀ name ∈ names, fs'.walk [] (p ++ [name]) ≠ .ok q) →
    fs'.entry? q = some (.file node) → fs.entry? q = some (.file node)

namespace Local

theorem refl (hs : fs.Sane) : Local p names fs fs :=
  ⟨hs, fun _ h => h, fun _ _ _ h => ⟨h, rfl⟩, fun _ _ _ h => h⟩

theorem walk (h : Local p names fs fs') {r : Path} (hw : fs.walk [] r = .ok q) :
    fs'.walk [] r = .ok q :=
  walk_of_directories h.directories hw

theorem trans (h : Local p names fs fs') (h' : Local p names fs' fs'') : Local p names fs fs'' where
  sane := h'.sane
  directories q hq := h'.directories q (h.directories q hq)
  kept q node hfree hq := by
    obtain ⟨hq', hbytes⟩ :=
      h.kept q node (fun name hname hw => hfree name hname (h'.walk hw)) hq
    obtain ⟨hq'', hbytes'⟩ := h'.kept q node hfree hq'
    exact ⟨hq'', hbytes'.trans hbytes⟩
  old q node hfree hq :=
    h.old q node (fun name hname hw => hfree name hname (h'.walk hw)) (h'.old q node hfree hq)

theorem mono (h : Local p names fs fs') (hsub : names ⊆ names') : Local p names' fs fs' where
  sane := h.sane
  directories := h.directories
  kept q node hfree := h.kept q node fun name hname => hfree name (hsub hname)
  old q node hfree := h.old q node fun name hname => hfree name (hsub hname)

/-- A file of another name can be opened as before, and holds what it held. -/
theorem openFile (h : Local p names fs fs') (hdowns : ".." ∉ names) (hdown : name ≠ "..")
    (hname : name ∉ names) (hopen : fs.openFile (p ++ [name]) = .ok node) :
    fs'.openFile (p ++ [name]) = .ok node ∧ fs'.nodeBytes node = fs.nodeBytes node := by
  obtain ⟨hnul, q, hwalk, hentry⟩ := openFile_eq_ok.mp hopen
  have hfree : ∀ other ∈ names, fs'.walk [] (p ++ [other]) ≠ .ok q := by
    intro other hother hw
    have hother' : other ≠ ".." := fun heq => hdowns (heq ▸ hother)
    exact hname (eq_of_walk_child (h.walk hwalk) hw hdown hother' ▸ hother)
  obtain ⟨hentry', hbytes⟩ := h.kept q node hfree hentry
  exact ⟨openFile_eq_ok.mpr ⟨hnul, q, h.walk hwalk, hentry'⟩, hbytes⟩

theorem read (h : Local p names fs fs') (hdowns : ".." ∉ names) (hdown : name ≠ "..")
    (hname : name ∉ names)
    (hread : fs.read (p ++ [name]) = .ok bytes) : fs'.read (p ++ [name]) = .ok bytes := by
  unfold Files.read at hread ⊢
  cases hopen : fs.openFile (p ++ [name]) with
  | error e =>
    rw [hopen] at hread
    cases hread
  | ok node =>
    obtain ⟨hopen', hbytes⟩ := h.openFile hdowns hdown hname hopen
    rw [hopen] at hread
    rw [hopen']
    show Except.ok (fs'.nodeBytes node) = _
    rw [hbytes]
    exact hread

end Local

/-! ## Operations -/

/-- A change at the places of some names, where there are no directories. -/
theorem Edit.toLocal {touched : Path → Prop} (h : Edit touched fs fs')
    (hplace : ∀ q, touched q → fs.entry? q ≠ some .directory ∧
      ∃ name ∈ names, fs.walk [] (p ++ [name]) = .ok q) : Local p names fs fs' := by
  have hdirectories : ∀ r, fs.entry? r = some .directory → fs'.entry? r = some .directory := by
    intro r hr
    rw [h.entry r fun ht => (hplace r ht).1 hr, hr]
  have hother {r : Path} (hfree : ∀ name ∈ names, fs'.walk [] (p ++ [name]) ≠ .ok r) :
      ¬touched r := by
    intro ht
    obtain ⟨-, name, hname, hw⟩ := hplace r ht
    exact hfree name hname (walk_of_directories hdirectories hw)
  exact {
    sane := h.sane
    directories := hdirectories
    kept := fun r node hfree hr =>
      ⟨(h.entry r (hother hfree)).trans hr, h.bytes r node (hother hfree) hr⟩
    old := fun r node hfree hr => (h.entry r (hother hfree)).symm.trans hr }

/-- A change at the place of one name. -/
theorem Edit.toLocal_child (h : Edit (· = q) fs fs') (hw : fs.walk [] (p ++ [name]) = .ok q)
    (hq : fs.entry? q ≠ some .directory) : Local p [name] fs fs' :=
  h.toLocal fun _ heq => heq ▸ ⟨hq, name, List.mem_singleton_self name, hw⟩

theorem not_directory_of_create {fs' : Files} (h : fs.create p = .ok (node, fs'))
    (hw : fs.walk [] p = .ok q) : fs.entry? q ≠ some .directory := by
  intro hq
  have hmade := (guarded_eq_ok.mp h).2
  rw [hw] at hmade
  simp only [bind, Except.bind, hq] at hmade
  cases hmade

theorem local_create (hs : fs.Sane) (h : fs.create (p ++ [name]) = .ok (node, fs')) :
    Local p [name] fs fs' := by
  obtain ⟨q, hw, hmade⟩ := created_of_create hs h
  exact hmade.edit.toLocal_child hw (not_directory_of_create h hw)

theorem local_write (hs : fs.Sane) (h : fs.write (p ++ [name]) bytes = .ok fs') :
    Local p [name] fs fs' := by
  obtain ⟨q, node, hw, hmade⟩ := created_of_write hs h
  refine hmade.edit.toLocal_child hw fun hq => ?_
  unfold write at h
  cases hcreate : fs.create (p ++ [name]) with
  | error e =>
    rw [hcreate] at h
    cases h
  | ok made => exact not_directory_of_create hcreate hw hq

/-- What can be removed can be opened. -/
theorem openFile_of_remove (h : fs.remove p = .ok fs') : ∃ node, fs.openFile p = .ok node := by
  obtain ⟨hnul, hgone⟩ := guarded_eq_ok.mp h
  cases hfind : fs.find p with
  | error why =>
    rw [hfind] at hgone
    cases hgone
  | ok found =>
    obtain ⟨q, e⟩ := found
    rw [hfind] at hgone
    cases e with
    | directory => cases hgone
    | file node => exact ⟨node, openFile_eq_ok.mpr ⟨hnul, q, find_eq_ok.mp hfind⟩⟩

theorem local_remove (hs : fs.Sane) (h : fs.remove (p ++ [name]) = .ok fs') :
    Local p [name] fs fs' := by
  obtain ⟨q, hw, hremoved⟩ := removed_of_remove hs h
  obtain ⟨node, hopen⟩ := openFile_of_remove h
  obtain ⟨-, q', hw', hentry⟩ := openFile_eq_ok.mp hopen
  obtain rfl : q = q' := Except.ok.inj (hw.symm.trans hw')
  exact hremoved.edit.toLocal_child hw (by simp [hentry])

/-- The bytes of a file that can be opened are replaced. -/
theorem local_setNode (hs : fs.Sane) (h : fs.openFile (p ++ [name]) = .ok node) (bytes : Bytes) :
    Local p [name] fs (fs.setNode node bytes) := by
  obtain ⟨-, q, hw, hentry⟩ := openFile_eq_ok.mp h
  exact (edit_setNode hs hentry bytes).toLocal_child hw (by simp [hentry])

/-- A file is not moved to where there is a directory. -/
theorem not_directory_of_move {target : Path} (h : fs.move p target = .ok fs')
    (hopen : fs.openFile p = .ok node) (hw : fs.walk [] target = .ok q) :
    fs.entry? q ≠ some .directory := by
  intro hq
  obtain ⟨-, place, hwalk, hentry⟩ := openFile_eq_ok.mp hopen
  unfold move at h
  rw [find_eq_ok.mpr ⟨hwalk, hentry⟩, hw] at h
  dsimp only at h
  rw [hq] at h
  split at h
  · cases h
  · cases h

/-- A file of one name is moved to another one. -/
theorem local_move (hs : fs.Sane) (hdown : name ≠ "..") (hdown' : other ≠ "..")
    (hne : name ≠ other) (hopen : fs.openFile (p ++ [name]) = .ok node)
    (h : fs.move (p ++ [name]) (p ++ [other]) = .ok fs') : Local p [name, other] fs fs' := by
  obtain ⟨-, a', ha', hentry⟩ := openFile_eq_ok.mp hopen
  obtain ⟨a, b, ha, hb, hmoved⟩ := moved_of_move hs h
  obtain rfl : a = a' := Except.ok.inj (ha.symm.trans ha')
  have hab : a ≠ b := fun heq => hne (eq_of_walk_child ha (heq ▸ hb) hdown hdown')
  refine (hmoved node hentry hab).edit.toLocal ?_
  rintro _ (rfl | rfl)
  · exact ⟨by simp [hentry], name, by simp, ha⟩
  · exact ⟨not_directory_of_move h hopen hb, other, by simp, hb⟩

/-! ### Directories -/

theorem files_of_makeOne (h : fs.makeOne p = .ok fs') (hq : fs'.entry? q = some (.file node)) :
    fs.entry? q = some (.file node) := by
  unfold makeOne at h
  cases hw : fs.walk [] p with
  | error why =>
    rw [hw] at h
    cases h
  | ok place =>
    rw [hw] at h
    simp only [bind, Except.bind] at h
    split at h
    · cases h
    · rename_i hnone
      split at h
      · cases h
        rw [entry?_append hnone] at hq
        split at hq
        · cases hq
        · exact hq
      · cases h
      · cases h

theorem files_of_ensureOne (h : fs.ensureOne p = .ok fs') (hq : fs'.entry? q = some (.file node)) :
    fs.entry? q = some (.file node) := by
  unfold ensureOne at h
  split at h
  · rename_i hmake
    cases h
    exact files_of_makeOne (guarded_eq_ok.mp hmake).2 hq
  · split at h
    · cases h
      exact hq
    · cases h

/-- Making directories makes no file. -/
theorem files_of_ensureDirectory (p : Path)
    (hq : entry? (fs.ensureDirectory p).2 q = some (.file node)) :
    fs.entry? q = some (.file node) := by
  fun_induction ensureDirectory fs p with
  | case1 p fs' hmake => exact files_of_makeOne (guarded_eq_ok.mp hmake).2 hq
  | case2 path target hmake => exact hq
  | case3 p path target hmake hne e fs' hfront ih =>
    rw [hfront] at ih
    exact ih hq
  | case4 p path target hmake hne fs' hfront fs'' hone ih =>
    rw [hfront] at ih
    exact ih (files_of_ensureOne hone hq)
  | case5 p path target hmake hne fs' hfront e hone ih =>
    rw [hfront] at ih
    exact ih hq
  | case6 p e hmake hother hthere => exact hq
  | case7 p e hmake hother hthere => exact hq

theorem local_ensureDirectory (hs : fs.Sane) (p r : Path) :
    Local p [] fs (fs.ensureDirectory r).2 := by
  have hgrown := grown_ensureDirectory hs r
  exact {
    sane := hgrown.sane
    directories := fun _ hq => hgrown.entry_of_some hq
    kept := fun q node _ hq => ⟨hgrown.entry_of_some hq, hgrown.bytes q node (by simp [hq]) hq⟩
    old := fun _ _ _ hq => files_of_ensureDirectory r hq }

/-- What can be read is there. -/
theorem isThere_of_read (h : fs.read p = .ok bytes) : fs.isThere p = .ok true := by
  unfold Files.read at h
  cases hopen : fs.openFile p with
  | error e =>
    rw [hopen] at h
    cases h
  | ok node =>
    obtain ⟨hnul, q, hwalk, hentry⟩ := openFile_eq_ok.mp hopen
    rw [isThere, hnul, find_eq_ok.mpr ⟨hwalk, hentry⟩]
    rfl

/-! ## Failures -/

section failures

variable {target : Path} {e : Fault}

theorem isFileFailure_of_guarded {α : Type} {r : Except Refusal α} (hnul : hasNul p = false)
    (h : fs.guarded p r = .error e) : e.isFileFailure = true := by
  unfold guarded at h
  rw [hnul] at h
  cases r with
  | ok a => cases h
  | error why =>
    cases h
    rfl

theorem isFileFailure_of_write (hnul : hasNul p = false) (h : fs.write p bytes = .error e) :
    e.isFileFailure = true := by
  unfold write at h
  cases hcreate : fs.create p with
  | ok made =>
    rw [hcreate] at h
    cases h
  | error e' =>
    rw [hcreate] at h
    cases h
    exact isFileFailure_of_guarded hnul hcreate

theorem isFileFailure_of_move (hnul : hasNul p = false) (hnul' : hasNul target = false)
    (h : fs.move p target = .error e) : e.isFileFailure = true := by
  unfold move at h
  simp only [hnul, hnul', Bool.or_self, Bool.false_eq_true, if_false] at h
  repeat' split at h
  all_goals cases h
  all_goals rfl

theorem hasNul_child {name : String} (hp : hasNul p = false)
    (hname : name.toList.contains '\x00' = false) : hasNul (p ++ [name]) = false := by
  unfold hasNul at hp ⊢
  rw [List.any_append, hp]
  simpa using hname

theorem hasNul_of_child {name : String} (h : hasNul (p ++ [name]) = false) : hasNul p = false := by
  unfold hasNul at h ⊢
  rw [List.any_append, Bool.or_eq_false_iff] at h
  exact h.1

end failures

end Files
end Tabulary
