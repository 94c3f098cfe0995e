import Tabulary.Files.Basic

/-!
What the store of a table needs to know of the file system: writing through a node moves no file,
a file that was made can be opened and is empty, and opening a file again makes nothing.
-/

namespace Tabulary
namespace Files

variable {fs fs' : Files} {p here place : Path} {node : Nat}

/-! ## Writing to a node -/

theorem walk_congr (h : ∀ q, fs'.entry? q = fs.entry? q) (here p : Path) :
    fs'.walk here p = fs.walk here p := by
  induction p generalizing here with
  | nil => rfl
  | cons name rest ih => rw [walk, walk, h, ih, ih]

@[simp] theorem place_setNode (bytes : Bytes) (q : Path) :
    entry? (fs.setNode node bytes) q = fs.entry? q := rfl

theorem walk_setNode (bytes : Bytes) : (fs.setNode node bytes).walk here p = fs.walk here p := by
  apply walk_congr
  intro q
  rfl

theorem find_setNode (bytes : Bytes) : (fs.setNode node bytes).find p = fs.find p := by
  simp only [find, walk_setNode, place_setNode]

theorem openFile_setNode (bytes : Bytes) : (fs.setNode node bytes).openFile p = fs.openFile p := by
  simp only [openFile, find_setNode]
  rfl

@[simp] theorem nodeBytes_setNode (bytes : Bytes) :
    (fs.setNode node bytes).nodeBytes node = bytes := by
  rw [nodeBytes, setNode, Keyed.lookup_set, if_pos (beq_self_eq_true node)]
  rfl

theorem setNode_setNode (bytes bytes' : Bytes) :
    (fs.setNode node bytes).setNode node bytes' = fs.setNode node bytes' := by
  rw [setNode, setNode, setNode, Keyed.set_set]

/-! ## Opening a file -/

theorem guarded_eq_ok {α : Type} {r : Except Refusal α} {a : α} :
    fs.guarded p r = .ok a ↔ hasNul p = false ∧ r = .ok a := by
  unfold guarded
  cases hn : hasNul p with
  | true => simp
  | false => cases r <;> simp

theorem openFile_eq_ok :
    fs.openFile p = .ok node ↔
      hasNul p = false ∧
        ∃ place, fs.walk [] p = .ok place ∧ fs.entry? place = some (.file node) := by
  unfold openFile find
  rw [guarded_eq_ok]
  refine and_congr_right fun _ => ?_
  cases fs.walk [] p with
  | error why => simp [bind, Except.bind]
  | ok place =>
    simp only [bind, Except.bind, Except.ok.injEq, exists_eq_left']
    cases fs.entry? place with
    | none => simp [throw, throwThe, MonadExceptOf.throw]
    | some e => cases e <;> simp [pure, Except.pure, throw, throwThe, MonadExceptOf.throw]

theorem isThere_of_openFile (h : fs.openFile p = .ok node) : fs.isThere p = .ok true := by
  obtain ⟨hnul, place, hwalk, hentry⟩ := openFile_eq_ok.mp h
  unfold isThere find
  rw [if_neg (by simp [hnul]), hwalk]
  simp only [bind, Except.bind, hentry]
  rfl

theorem walk_append (here xs ys : Path) :
    fs.walk here (xs ++ ys) = (fs.walk here xs).bind fun place => fs.walk place ys := by
  induction xs generalizing here with
  | nil => rfl
  | cons name rest ih =>
    rw [List.cons_append, walk, walk, ih, ih]
    cases fs.entry? here with
    | none => rfl
    | some e =>
      cases e with
      | file node => rfl
      | directory =>
        dsimp only
        split
        · rfl
        · split
          · rfl
          · rfl

theorem find_eq_ok {e : Entry} :
    fs.find p = .ok (place, e) ↔ fs.walk [] p = .ok place ∧ fs.entry? place = some e := by
  unfold find
  cases hw : fs.walk [] p with
  | error why => simp [bind, Except.bind]
  | ok q =>
    simp only [bind, Except.bind, Except.ok.injEq]
    cases hq : fs.entry? q with
    | none =>
      constructor
      · intro h
        cases h
      · rintro ⟨rfl, h⟩
        rw [hq] at h
        cases h
    | some e' =>
      constructor
      · intro h
        cases h
        exact ⟨rfl, hq⟩
      · rintro ⟨rfl, h⟩
        rw [hq] at h
        cases h
        rfl

/-- A directory that is there need not be made. -/
theorem ensureDirectory_of_find (hnul : hasNul p = false)
    (h : fs.find p = .ok (place, .directory)) : fs.ensureDirectory p = (.ok (), fs) := by
  obtain ⟨hwalk, hentry⟩ := find_eq_ok.mp h
  have hmake : fs.guarded p (fs.makeOne p) =
      .error (.refused .alreadyExists (Path.text fs.anchor p) none) := by
    rw [makeOne, hwalk]
    simp only [bind, Except.bind, hentry, guarded, hnul]
    rfl
  have hthere : fs.isDirectory p = true := by
    rw [isDirectory, h]
  rw [ensureDirectory, hmake]
  simp only [hthere, if_true]

/-- The directory of a file that is there is there, so making it changes nothing. -/
theorem ensureDirectory_of_openFile (h : fs.openFile p = .ok node) :
    fs.ensureDirectory p.dropLast = (.ok (), fs) := by
  obtain ⟨hnul, place, hwalk, hentry⟩ := openFile_eq_ok.mp h
  have hp : p ≠ [] := by
    rintro rfl
    cases hwalk
    cases hentry
  obtain ⟨front, name, rfl⟩ : ∃ front name, p = front ++ [name] :=
    ⟨p.dropLast, p.getLast hp, (List.dropLast_concat_getLast hp).symm⟩
  rw [List.dropLast_concat]
  have hfront : hasNul front = false := by
    rw [hasNul, List.any_append, Bool.or_eq_false_iff] at hnul
    exact hnul.1
  obtain ⟨parent, hparent, hdirectory⟩ : ∃ parent, fs.walk [] front = .ok parent ∧
      fs.entry? parent = some .directory := by
    rw [walk_append] at hwalk
    cases hw : fs.walk [] front with
    | error why =>
      rw [hw] at hwalk
      cases hwalk
    | ok parent =>
      refine ⟨parent, rfl, ?_⟩
      rw [hw] at hwalk
      simp only [Except.bind, walk] at hwalk
      split at hwalk
      · cases hwalk
      · cases hwalk
      · assumption
  have hfind : fs.find front = .ok (parent, .directory) := by
    rw [find, hparent]
    simp only [bind, Except.bind, hdirectory]
    rfl
  exact ensureDirectory_of_find hfront hfind

/-- What can be opened can be removed. -/
theorem exists_remove (h : fs.openFile p = .ok node) : ∃ fs', fs.remove p = .ok fs' := by
  obtain ⟨hnul, q, hwalk, hentry⟩ := openFile_eq_ok.mp h
  exact ⟨{ fs with entries := Keyed.erase q fs.entries },
    guarded_eq_ok.mpr ⟨hnul, by rw [find_eq_ok.mpr ⟨hwalk, hentry⟩]; rfl⟩⟩

/-! ## Making a file -/

/-- A way leads over directories only, so nothing else matters for it. -/
theorem walk_of_directories (h : ∀ q, fs.entry? q = some .directory →
    fs'.entry? q = some .directory)
    {here : Path} (hw : fs.walk here p = .ok place) : fs'.walk here p = .ok place := by
  induction p generalizing here with
  | nil => exact hw
  | cons name rest ih =>
    rw [walk] at hw ⊢
    cases he : fs.entry? here with
    | none =>
      rw [he] at hw
      cases hw
    | some e =>
      rw [he] at hw
      cases e with
      | file node => cases hw
      | directory =>
        rw [h here he]
        dsimp only at hw ⊢
        split at hw
        · cases hw
        · rename_i hlen
          rw [if_neg hlen]
          split at hw
          · rename_i hup
            rw [if_pos hup]
            exact ih hw
          · rename_i hup
            rw [if_neg hup]
            exact ih hw

/-- Places that are added to a file system lead nowhere else. -/
theorem walk_of_entries (h : ∀ q e, fs.entry? q = some e → fs'.entry? q = some e) {here : Path}
    (hw : fs.walk here p = .ok place) : fs'.walk here p = .ok place :=
  walk_of_directories (fun q => h q .directory) hw

/-- The file system with one more file. -/
def withFile (fs : Files) (place : Path) : Files :=
  { fs with entries := fs.entries ++ [(place, .file fs.fresh)], fresh := fs.fresh + 1 }

theorem place_withFile {q : Path} {e : Entry} (h : fs.entry? q = some e) :
    entry? (fs.withFile place) q = some e := by
  unfold entry? withFile at *
  split at h
  · rename_i hq
    rw [if_pos hq, h]
  · rename_i hq
    rw [if_neg hq, List.lookup_append, h]
    rfl

theorem place_withFile_self (h : fs.entry? place = none) :
    entry? (fs.withFile place) place = some (.file fs.fresh) := by
  unfold entry? withFile at *
  split at h
  · cases h
  · rename_i hq
    rw [if_neg hq, List.lookup_append, h, Keyed.lookup_cons_eq, if_pos (beq_self_eq_true place)]
    rfl

/-- A file that was made can be opened, and is empty. -/
theorem openFile_of_create (h : fs.create p = .ok (node, fs')) :
    fs'.openFile p = .ok node ∧ fs'.nodeBytes node = [] := by
  obtain ⟨hnul, hmade⟩ := guarded_eq_ok.mp h
  cases hwalk : fs.walk [] p with
  | error why =>
    rw [hwalk] at hmade
    cases hmade
  | ok place =>
    rw [hwalk] at hmade
    simp only [bind, Except.bind] at hmade
    split at hmade
    · rename_i node' hentry
      cases hmade
      rw [openFile_setNode]
      exact ⟨openFile_eq_ok.mpr ⟨hnul, place, hwalk, hentry⟩, nodeBytes_setNode []⟩
    · cases hmade
    · rename_i hentry
      split at hmade
      · cases hmade
        have hfound : (fs.withFile place).openFile p = .ok fs.fresh :=
          openFile_eq_ok.mpr ⟨hnul, place,
            walk_of_entries (fun _ _ he => place_withFile he) hwalk, place_withFile_self hentry⟩
        rw [openFile_setNode]
        exact ⟨hfound, nodeBytes_setNode []⟩
      · cases hmade
      · cases hmade

theorem openFile_of_write {bytes : Bytes} (h : fs.write p bytes = .ok fs') :
    ∃ node, fs'.openFile p = .ok node ∧ fs'.nodeBytes node = bytes := by
  unfold write at h
  cases hcreate : fs.create p with
  | error e =>
    rw [hcreate] at h
    cases h
  | ok made =>
    obtain ⟨node, fs₁⟩ := made
    rw [hcreate] at h
    cases h
    exact ⟨node, (openFile_setNode bytes).trans (openFile_of_create hcreate).1,
      nodeBytes_setNode bytes⟩

/-- The file system in which a file can be opened for a table: its directory is made, and the file
too unless it is there. -/
inductive Readies (fs : Files) (p : Path) (fs' : Files) : Prop
  | there (directory : fs.ensureDirectory p.dropLast = (.ok (), fs'))
      (there : fs'.isThere p = .ok true)
  | made {between : Files} {node : Nat}
      (directory : fs.ensureDirectory p.dropLast = (.ok (), between))
      (missing : between.isThere p = .ok false) (made : between.create p = .ok (node, fs'))

theorem readies_self (h : fs.openFile p = .ok node) : fs.Readies p fs :=
  Readies.there (ensureDirectory_of_openFile h) (isThere_of_openFile h)

/-- A place where a table may begin: its directory can be made, and in it the file can be made, or
is there and has no bytes. -/
def Vacant (fs : Files) (p : Path) : Prop :=
  ∃ fs', fs.ensureDirectory p.dropLast = (.ok (), fs') ∧
    ((fs'.isThere p = .ok false ∧ ∃ made, fs'.create p = .ok made) ∨
      ∃ node, fs'.openFile p = .ok node ∧ fs'.nodeBytes node = [])

theorem Vacant.readies (h : fs.Vacant p) :
    ∃ fs' node, fs.Readies p fs' ∧ fs'.openFile p = .ok node ∧ fs'.nodeBytes node = [] := by
  obtain ⟨fs', hdirectory, ⟨hmissing, ⟨node, made⟩, hmade⟩ |
    ⟨node, hopen, hempty⟩⟩ := h
  · exact ⟨made, node, Readies.made hdirectory hmissing hmade, openFile_of_create hmade⟩
  · exact ⟨fs', node, Readies.there hdirectory (isThere_of_openFile hopen), hopen, hempty⟩

end Files
end Tabulary
