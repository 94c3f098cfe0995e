import Tabulary.Proofs.Files

/-!
Places below a directory.  A path that leads to a directory goes on leading there while entries
change below the directory only, and a plain name added to the path leads to the place of that name.
What an operation on the file system does is then a matter of the entry at that place.
-/

namespace Tabulary
namespace Files

variable {fs fs' : Files} {p place q : Path} {name : String} {node : Nat}

/-! ## Names and directories -/

/-- A name that leads to a place right below a directory. -/
structure Plain (name : String) : Prop where
  visible : hasNul [name] = false
  down : name ≠ ".."
  short : (Text.toBytes name).length ≤ maxName

instance (name : String) : Decidable (Plain name) :=
  decidable_of_iff
    (hasNul [name] = false ∧ name ≠ ".." ∧ (Text.toBytes name).length ≤ maxName)
    ⟨fun ⟨hv, hd, hs⟩ => ⟨hv, hd, hs⟩, fun h => ⟨h.visible, h.down, h.short⟩⟩

/-- A place in a directory or in a directory below it. -/
def Below (place q : Path) : Prop := ∃ name rest, q = place ++ name :: rest

theorem below_child (place : Path) (name : String) :
    Below place (place ++ [name]) := ⟨name, [], rfl⟩

theorem not_below_self (place : Path) : ¬Below place place := by
  rintro ⟨name, rest, h⟩
  have hlength := congrArg List.length h
  rw [List.length_append, List.length_cons] at hlength
  omega

theorem Below.of_child (h : Below (place ++ [name]) q) : Below place q := by
  obtain ⟨other, rest, rfl⟩ := h
  exact ⟨name, other :: rest, by simp⟩

/-- A path leads to a directory, whatever changes below the directory. -/
structure Rooted (fs : Files) (p place : Path) : Prop where
  visible : hasNul p = false
  directory : fs.entry? place = some .directory
  leads : ∀ fs' : Files, (∀ q, ¬Below place q → fs'.entry? q = fs.entry? q) →
    fs'.walk [] p = .ok place

theorem hasNul_append (p r : Path) : hasNul (p ++ r) = (hasNul p || hasNul r) := List.any_append

theorem walk_singleton (hshort : (Text.toBytes name).length ≤ maxName) (hdown : name ≠ "..")
    (hd : fs.entry? place = some .directory) : fs.walk place [name] = .ok (place ++ [name]) := by
  rw [walk, hd]
  dsimp only
  rw [if_neg (Nat.not_lt.mpr hshort), if_neg hdown]
  rfl

theorem guarded_of_hidden {α : Type} (h : hasNul p = true) (r : Except Refusal α) :
    fs.guarded p r = .error .nulInPath := by
  unfold guarded
  rw [if_pos h]

theorem guarded_error {α : Type} (h : hasNul p = false) (why : Refusal) :
    fs.guarded p (.error why : Except Refusal α) =
    .error (.refused why (p.text fs.anchor) none) := by
  unfold guarded
  rw [h]
  rfl

namespace Rooted

theorem walk (h : Rooted fs p place) : fs.walk [] p = .ok place := h.leads fs fun _ _ => rfl

theorem find (h : Rooted fs p place) : fs.find p = .ok (place, .directory) := by
  rw [Files.find, h.walk]
  simp only [bind, Except.bind, h.directory]
  rfl

theorem visible_child (h : Rooted fs p place) (hn : Plain name) : hasNul (p ++ [name]) = false := by
  rw [hasNul_append, h.visible, hn.visible]
  rfl

theorem walk_child (h : Rooted fs p place) (hn : Plain name) :
    fs.walk [] (p ++ [name]) = .ok (place ++ [name]) := by
  rw [walk_append, h.walk]
  exact walk_singleton hn.short hn.down h.directory

/-- A directory in the directory is one that its path leads to. -/
theorem child (h : Rooted fs p place) (hn : Plain name)
    (hd : fs.entry? (place ++ [name]) = some .directory) :
    Rooted fs (p ++ [name]) (place ++ [name]) where
  visible := h.visible_child hn
  directory := hd
  leads fs' hsame := by
    have hroot : fs'.walk [] p = .ok place := h.leads fs' fun q hq => hsame q fun hb =>
      hq hb.of_child
    have hplace : fs'.entry? place = some .directory := by
      rw [hsame place, h.directory]
      intro hb
      exact not_below_self place hb.of_child
    rw [walk_append, hroot]
    exact walk_singleton hn.short hn.down hplace

/-- The directory can be entered by its path after a change below it. -/
theorem congr (h : Rooted fs p place)
    (hsame : ∀ q, ¬Below place q → fs'.entry? q = fs.entry? q) : Rooted fs' p place where
  visible := h.visible
  directory := by rw [hsame place (not_below_self place), h.directory]
  leads fs'' hsame' := h.leads fs'' fun q hq => (hsame' q hq).trans (hsame q hq)

theorem find_child (h : Rooted fs p place) (hn : Plain name) :
    fs.find (p ++ [name]) = match fs.entry? (place ++ [name]) with
      | some e => .ok (place ++ [name], e)
      | none => .error .missing := by
  rw [Files.find, h.walk_child hn]
  rfl

theorem isThere_child (h : Rooted fs p place) (hn : Plain name) :
    fs.isThere (p ++ [name]) = .ok (fs.entry? (place ++ [name])).isSome := by
  rw [isThere, h.visible_child hn, h.find_child hn, if_neg Bool.false_ne_true]
  cases fs.entry? (place ++ [name]) <;> rfl

theorem openFile_child (h : Rooted fs p place) (hn : Plain name) :
    fs.openFile (p ++ [name]) = .ok node ↔ fs.entry? (place ++ [name]) = some (.file node) := by
  rw [openFile_eq_ok, h.walk_child hn]
  constructor
  · rintro ⟨-, q, hq, hentry⟩
    cases hq
    exact hentry
  · intro hentry
    exact ⟨h.visible_child hn, place ++ [name], rfl, hentry⟩

theorem isDirectory_child (h : Rooted fs p place) (hn : Plain name) :
    fs.isDirectory (p ++ [name]) = (fs.entry? (place ++ [name]) == some .directory) := by
  rw [isDirectory, h.find_child hn]
  cases fs.entry? (place ++ [name]) with
  | none => rfl
  | some e => cases e <;> rfl

theorem ensureDirectory (h : Rooted fs p place) : fs.ensureDirectory p = (.ok (), fs) :=
  ensureDirectory_of_find h.visible h.find

/-! ### Names that lead nowhere -/

theorem hasNul_child (p : Path) (hn : hasNul [name] = true) : hasNul (p ++ [name]) = true := by
  rw [hasNul_append, hn, Bool.or_true]

theorem walk_child_long (h : Rooted fs p place) (hlong : maxName < (Text.toBytes name).length) :
    fs.walk [] (p ++ [name]) = .error .nameTooLong := by
  rw [walk_append, h.walk]
  show fs.walk place [name] = _
  rw [Files.walk, h.directory]
  dsimp only
  rw [if_pos hlong]

theorem find_child_long (h : Rooted fs p place) (hlong : maxName < (Text.toBytes name).length) :
    fs.find (p ++ [name]) = .error .nameTooLong := by
  rw [Files.find, h.walk_child_long hlong]
  rfl

theorem isThere_child_hidden (p : Path) (hn : hasNul [name] = true) :
    fs.isThere (p ++ [name]) = .ok false := by
  rw [isThere, hasNul_child p hn, if_pos rfl]

theorem isThere_child_long (h : Rooted fs p place) (hv : hasNul [name] = false)
    (hlong : maxName < (Text.toBytes name).length) :
    fs.isThere (p ++ [name]) =
      .error (.refused .nameTooLong ((p ++ [name]).text fs.anchor) none) := by
  rw [isThere, hasNul_append, h.visible, hv, h.find_child_long hlong]
  rfl

theorem create_child_hidden (p : Path) (hn : hasNul [name] = true) :
    fs.create (p ++ [name]) = .error .nulInPath := guarded_of_hidden (hasNul_child p hn) _

/-- A directory of a hidden name cannot be made. -/
theorem ensureDirectory_child_hidden (h : Rooted fs p place) (hn : hasNul [name] = true)
    (hdown : name ≠ "..") (hnone : fs.entry? (place ++ [name]) = none) :
    fs.ensureDirectory (p ++ [name]) = (.error .nulInPath, fs) := by
  have hnot : fs.isDirectory (p ++ [name]) = false := by
    by_cases hlong : maxName < (Text.toBytes name).length
    · rw [isDirectory, h.find_child_long hlong]
    · have hwalk : fs.walk [] (p ++ [name]) = .ok (place ++ [name]) := by
        rw [walk_append, h.walk]
        exact walk_singleton (Nat.not_lt.mp hlong) hdown h.directory
      rw [isDirectory, Files.find, hwalk]
      simp only [bind, Except.bind, hnone]
      rfl
  rw [Files.ensureDirectory, guarded_of_hidden (hasNul_child p hn)]
  simp only [hnot, Bool.false_eq_true, if_false]

theorem ensureDirectory_child_long (h : Rooted fs p place) (hv : hasNul [name] = false)
    (hlong : maxName < (Text.toBytes name).length) :
    fs.ensureDirectory (p ++ [name]) =
      (.error (.refused .nameTooLong ((p ++ [name]).text fs.anchor) none), fs) := by
  have hnul : hasNul (p ++ [name]) = false := by
    rw [hasNul_append, h.visible, hv]
    rfl
  have hmake : fs.guarded (p ++ [name]) (fs.makeOne (p ++ [name])) =
      .error (.refused .nameTooLong ((p ++ [name]).text fs.anchor) none) := by
    rw [makeOne, h.walk_child_long hlong]
    exact guarded_error hnul .nameTooLong
  have hnot : fs.isDirectory (p ++ [name]) = false := by
    rw [isDirectory, h.find_child_long hlong]
  rw [Files.ensureDirectory, hmake]
  simp only [hnot, Bool.false_eq_true, if_false]

end Rooted
end Files
end Tabulary
