import Tabulary.Proofs.Files.Bare

/-!
What has changed after an operation on the file system that succeeded.  The place that was changed
is the one that the path leads to, so that nothing need be known of the path beforehand.
-/

namespace Tabulary
namespace Files

variable {fs fs' : Files} {p place here q names : Path} {name : String} {node : Nat} {bytes : Bytes}

/-! ## Paths -/

/-- Names lead downwards, one after the other. -/
theorem walk_down (hdown : ".." ∉ names) (h : fs.walk here names = .ok q) :
    q = here ++ names := by
  induction names generalizing here with
  | nil =>
    cases h
    exact (List.append_nil _).symm
  | cons name names ih =>
    rw [List.mem_cons, not_or] at hdown
    rw [walk] at h
    split at h
    · cases h
    · cases h
    · split at h
      · cases h
      · rw [if_neg (Ne.symm hdown.1)] at h
        rw [ih hdown.2 h, List.append_assoc]
        rfl

theorem Rooted.walk_down (h : Rooted fs p place) (hdown : ".." ∉ names)
    (hw : fs.walk [] (p ++ names) = .ok q) : q = place ++ names := by
  rw [walk_append, h.walk] at hw
  exact Files.walk_down hdown hw

theorem find_of_isThere (h : fs.isThere p = .ok true) :
    hasNul p = false ∧ ∃ found, fs.find p = .ok found := by
  unfold isThere at h
  split at h
  · cases h
  · rename_i hnul
    split at h
    · rename_i found hfind
      exact ⟨Bool.eq_false_iff.mpr hnul, found, hfind⟩
    · cases h
    · cases h
    · cases h

/-! ## Making -/

/-- A file has been made, or was there and has been emptied. -/
structure Created (fs fs' : Files) (q : Path) (node : Nat) (bytes : Bytes) : Prop where
  edit : Edit (· = q) fs fs'
  fresh : fs.fresh ≤ fs'.fresh
  entry : fs'.entry? q = some (.file node)
  bytes : fs'.nodeBytes node = bytes
  origin : fs.entry? q = some (.file node) ∨ fs.fresh ≤ node

theorem created_of_create (hs : fs.Sane) (h : fs.create p = .ok (node, fs')) :
    ∃ q, fs.walk [] p = .ok q ∧ Created fs fs' q node [] := by
  obtain ⟨-, hmade⟩ := guarded_eq_ok.mp h
  cases hwalk : fs.walk [] p with
  | error why =>
    rw [hwalk] at hmade
    cases hmade
  | ok q =>
    rw [hwalk] at hmade
    simp only [bind, Except.bind] at hmade
    split at hmade
    · rename_i node' hentry
      cases hmade
      exact ⟨q, rfl, edit_setNode hs hentry [], Nat.le_refl _, hentry, nodeBytes_setNode [],
        Or.inl hentry⟩
    · cases hmade
    · rename_i hnone
      split at hmade
      · cases hmade
        exact ⟨q, rfl, edit_create hs hnone [], Nat.le_succ _, place_withFile_self hnone,
          nodeBytes_setNode [], Or.inr (Nat.le_refl _)⟩
      · cases hmade
      · cases hmade

theorem created_of_write (hs : fs.Sane) (h : fs.write p bytes = .ok fs') :
    ∃ q node, fs.walk [] p = .ok q ∧ Created fs fs' q node bytes := by
  unfold write at h
  cases hcreate : fs.create p with
  | error e =>
    rw [hcreate] at h
    cases h
  | ok made =>
    obtain ⟨node, fs₁⟩ := made
    obtain ⟨q, hwalk, hmade⟩ := created_of_create hs hcreate
    rw [hcreate] at h
    cases h
    exact ⟨q, node, hwalk, hmade.edit.trans (edit_setNode hmade.edit.sane hmade.entry bytes),
      hmade.fresh, hmade.entry, nodeBytes_setNode bytes, hmade.origin⟩

/-! ## Making directories -/

/-- Nothing above a directory in a directory is missing. -/
theorem Rooted.makeOne_child_ne_missing (h : Rooted fs p place) (hdown : name ≠ "..") :
    fs.makeOne (p ++ [name]) ≠ .error .missing := by
  have hwalk : fs.walk [] (p ++ [name]) = fs.walk place [name] := by
    rw [walk_append, h.walk]
    rfl
  intro hmissing
  rw [makeOne, hwalk] at hmissing
  by_cases hlong : maxName < (Text.toBytes name).length
  · rw [← hwalk, h.walk_child_long hlong] at hmissing
    cases hmissing
  · rw [walk_singleton (Nat.not_lt.mp hlong) hdown h.directory] at hmissing
    simp only [bind, Except.bind, List.dropLast_concat, h.directory] at hmissing
    split at hmissing
    · cases hmissing
    · cases hmissing

/-- A directory in a directory is made in one step. -/
theorem Rooted.ensureDirectory_child_eq (h : Rooted fs p place) (hdown : name ≠ "..") :
    fs.ensureDirectory (p ++ [name]) = match fs.ensureOne (p ++ [name]) with
      | .ok fs' => (.ok (), fs')
      | .error e => (.error e, fs) := by
  rw [Files.ensureDirectory, ensureOne]
  split
  · rename_i fs' hmake
    rw [hmake]
  · rename_i path target hmake
    unfold guarded at hmake
    split at hmake
    · cases hmake
    · split at hmake
      · cases hmake
      · rename_i why hwhy
        cases hmake
        exact absurd hwhy (h.makeOne_child_ne_missing hdown)
  · rename_i e hother hmake
    rw [hmake]
    dsimp only
    split <;> rfl

/-- Making a directory in a directory changes nothing but the place of its name, and makes no
file. -/
theorem Rooted.edit_ensureDirectory_child (h : Rooted fs p place) (hs : fs.Sane)
    (hdown : name ≠ "..") :
    Edit (· = place ++ [name]) fs (fs.ensureDirectory (p ++ [name])).2 ∧
      (fs.ensureDirectory (p ++ [name])).2.fresh = fs.fresh ∧
      ∀ node, Files.entry? (fs.ensureDirectory (p ++ [name])).2 (place ++ [name]) =
        some (.file node) →
        fs.entry? (place ++ [name]) = some (.file node) := by
  have hsame : Edit (· = place ++ [name]) fs fs := Edit.refl hs
  rw [h.ensureDirectory_child_eq hdown, ensureOne]
  split
  · rename_i fs' hone
    split at hone
    · rename_i made hmake
      cases hone
      obtain ⟨-, hmade⟩ := guarded_eq_ok.mp hmake
      unfold makeOne at hmade
      cases hq : fs.walk [] (p ++ [name]) with
      | error why =>
        rw [hq] at hmade
        cases hmade
      | ok q =>
        have hplace : q = place ++ [name] := h.walk_down (by simpa using hdown.symm) hq
        rw [hq] at hmade
        simp only [bind, Except.bind] at hmade
        split at hmade
        · cases hmade
        · rename_i hnone
          split at hmade
          · cases hmade
            rw [← hplace]
            refine ⟨edit_directory hs hnone, rfl, fun node hnode => ?_⟩
            rw [entry?_append hnone, if_pos rfl] at hnode
            cases hnode
          · cases hmade
          · cases hmade
    · split at hone
      · cases hone
        exact ⟨hsame, rfl, fun _ hnode => hnode⟩
      · cases hone
  · exact ⟨hsame, rfl, fun _ hnode => hnode⟩

/-- Where there is nothing yet, nothing can be made below. -/
theorem makeOne_child_missing (h : ∀ why, fs.makeOne p = .error why → why = .missing) :
    fs.makeOne (p ++ [name]) = .error .missing := by
  rw [makeOne, walk_append]
  unfold makeOne at h
  cases hwalk : fs.walk [] p with
  | error why =>
    rw [hwalk] at h
    rw [h why rfl]
    rfl
  | ok q =>
    rw [hwalk] at h
    simp only [bind, Except.bind] at h ⊢
    cases he : fs.entry? q with
    | some e =>
      rw [he] at h
      cases h _ rfl
    | none =>
      rw [walk, he]

theorem not_isDirectory_of_missing (h : fs.makeOne p = .error .missing) :
    fs.isDirectory p = false := by
  rw [isDirectory]
  split
  · rename_i q hfind
    obtain ⟨hwalk, hentry⟩ := find_eq_ok.mp hfind
    rw [makeOne, hwalk] at h
    simp only [bind, Except.bind, hentry] at h
    cases h
  · rfl

/-- In a directory that has yet to be made, one is made as if it were there, or nothing is made. -/
theorem ensureDirectory_child_of_made (hmake : fs.ensureDirectory p = (.ok (), fs'))
    (h : Rooted fs' p place) (hdown : name ≠ "..") :
    fs.ensureDirectory (p ++ [name]) = fs'.ensureDirectory (p ++ [name]) ∨
      ∃ e, fs.ensureDirectory (p ++ [name]) = (.error e, fs) := by
  by_cases hmissing : fs.makeOne (p ++ [name]) = .error .missing
  · rw [ensureDirectory, hmissing]
    cases hnul : hasNul (p ++ [name]) with
    | true =>
      refine Or.inr ⟨.nulInPath, ?_⟩
      rw [guarded_of_hidden hnul]
      simp only [not_isDirectory_of_missing hmissing, Bool.false_eq_true, if_false]
    | false =>
      left
      rw [guarded_error hnul, h.ensureDirectory_child_eq hdown]
      dsimp only
      rw [dif_neg (child_ne_nil p name)]
      cases hone : fs'.ensureOne (p ++ [name]) with
      | ok made => simp only [List.dropLast_concat, hmake, hone]
      | error e => simp only [List.dropLast_concat, hmake, hone]
  · left
    have hsame : fs = fs' := by
      rw [ensureDirectory] at hmake
      split at hmake
      · rename_i made hmade
        refine absurd (makeOne_child_missing fun why hwhy => ?_) hmissing
        rw [(guarded_eq_ok.mp hmade).2] at hwhy
        cases hwhy
      · rename_i path target hmade
        refine absurd (makeOne_child_missing fun why hwhy => ?_) hmissing
        unfold guarded at hmade
        rw [hwhy] at hmade
        split at hmade
        · cases hmade
        · cases hmade
          rfl
      · split at hmake
        · cases hmake
          rfl
        · cases hmake
    rw [hsame]

/-! ## Moving and removing -/

/-- A file has been moved to another place. -/
structure Moved (fs fs' : Files) (a b : Path) (node : Nat) : Prop where
  edit : Edit (fun q => q = a ∨ q = b) fs fs'
  fresh : fs'.fresh = fs.fresh
  gone : fs'.entry? a = none
  entry : fs'.entry? b = some (.file node)
  bytes : fs'.nodeBytes node = fs.nodeBytes node

theorem moved_of_move (hs : fs.Sane) {target : Path} (h : fs.move p target = .ok fs') :
    ∃ a b, fs.walk [] p = .ok a ∧ fs.walk [] target = .ok b ∧
      ∀ node, fs.entry? a = some (.file node) → a ≠ b → Moved fs fs' a b node := by
  unfold move at h
  dsimp only at h
  split at h
  · cases h
  · split at h
    · cases h
    · cases h
    · rename_i a moved b hfind hb
      obtain ⟨ha, hentry⟩ := find_eq_ok.mp hfind
      refine ⟨a, b, ha, hb, fun node hnode hne => ?_⟩
      obtain rfl : moved = .file node := Option.some.inj (hentry.symm.trans hnode)
      have hnil : a ≠ [] := by
        rintro rfl
        cases hnode
      split at h
      · cases h
      · rename_i heq _
        cases heq
      · rename_i heq _
        cases heq
      · rename_i hfree _ _
        cases h
        have hnil' : b ≠ [] := by
          rintro rfl
          exact hfree node rfl rfl
        refine ⟨edit_move hs hnil hnil' hne hnode, rfl, ?_, ?_, rfl⟩
        · rw [entry?_move hnil hnil', if_neg hne, if_pos rfl]
        · rw [entry?_move hnil hnil', if_pos rfl]

/-- A file that was moved can be opened where it was moved to, and holds what it held. -/
theorem openFile_of_move {target : Path} (h : fs.move p target = .ok fs')
    (hopen : fs.openFile p = .ok node) :
    fs'.openFile target = .ok node ∧ fs'.nodeBytes node = fs.nodeBytes node := by
  obtain ⟨-, a, hwalk, hentry⟩ := openFile_eq_ok.mp hopen
  unfold move at h
  dsimp only at h
  split at h
  · cases h
  · rename_i hnul
    rw [Bool.or_eq_true, not_or, Bool.not_eq_true, Bool.not_eq_true] at hnul
    split at h
    · cases h
    · cases h
    · rename_i a' moved b hfind hb
      obtain ⟨ha, hmoved⟩ := find_eq_ok.mp hfind
      obtain rfl : a' = a := Except.ok.inj (ha.symm.trans hwalk)
      obtain rfl : moved = .file node := Option.some.inj (hmoved.symm.trans hentry)
      split at h
      · cases h
      · rename_i heq _
        cases heq
      · rename_i heq _
        cases heq
      · rename_i hfree _ _
        have ha' : a' ≠ [] := by
          rintro rfl
          cases hentry
        have hb' : b ≠ [] := by
          rintro rfl
          exact hfree node rfl rfl
        cases h
        refine ⟨openFile_eq_ok.mpr ⟨hnul.2, b, walk_of_directories (fun q hq => ?_) hb, ?_⟩,
          rfl⟩
        · have hqb : q ≠ b := fun heq => hfree node rfl (heq ▸ hq)
          have hqa : q ≠ a' := fun heq => by
            rw [heq, hentry] at hq
            cases hq
          rw [entry?_move ha' hb', if_neg hqb, if_neg hqa, hq]
        · rw [entry?_move ha' hb', if_pos rfl]

theorem removed_of_remove (hs : fs.Sane) (h : fs.remove p = .ok fs') :
    ∃ q, fs.walk [] p = .ok q ∧ Removed (· = q) fs fs' := by
  obtain ⟨-, hgone⟩ := guarded_eq_ok.mp h
  cases hfind : fs.find p with
  | error why =>
    rw [hfind] at hgone
    cases hgone
  | ok found =>
    obtain ⟨q, e⟩ := found
    obtain ⟨hwalk, hentry⟩ := find_eq_ok.mp hfind
    rw [hfind] at hgone
    cases e with
    | directory => cases hgone
    | file node =>
      cases hgone
      have hnil : q ≠ [] := by
        rintro rfl
        cases hentry
      exact ⟨q, hwalk, removed_erase hs hnil⟩

theorem removed_of_removeTree (hs : fs.Sane) (h : fs.removeTree p = .ok fs') :
    ∃ q, fs.walk [] p = .ok q ∧ (q ≠ [] → Removed (q <+: ·) fs fs') := by
  obtain ⟨-, hgone⟩ := guarded_eq_ok.mp h
  cases hfind : fs.find p with
  | error why =>
    rw [hfind] at hgone
    cases hgone
  | ok found =>
    obtain ⟨q, e⟩ := found
    rw [hfind] at hgone
    cases e with
    | file node => cases hgone
    | directory =>
      cases hgone
      exact ⟨q, (find_eq_ok.mp hfind).1, removed_prune hs⟩

end Files
end Tabulary
