import Tabulary.Proofs.Files.Place

/-!
Changes of a file system, place by place.  Each operation on a plain name in a directory does what
it says at the place of that name, and leaves the entries and the bytes of all other places as they
were.
-/

namespace Tabulary
namespace Files

/-- Every file has a node of its own, and no file has a node that is still to be given out. -/
structure Sane (fs : Files) : Prop where
  used : ∀ {q node}, fs.entry? q = some (.file node) → node < fs.fresh
  own : ∀ {q r node}, fs.entry? q = some (.file node) →
    fs.entry? r = some (.file node) → q = r

/-- A change that leaves all places as they were but those it may touch. -/
structure Edit (touched : Path → Prop) (fs fs' : Files) : Prop where
  anchor : fs'.anchor = fs.anchor
  entry : ∀ q, ¬touched q → fs'.entry? q = fs.entry? q
  bytes : ∀ q node, ¬touched q → fs.entry? q = some (.file node) →
    fs'.nodeBytes node = fs.nodeBytes node
  sane : fs'.Sane

variable {fs fs' fs'' : Files} {touched touched' : Path → Prop} {p place q : Path}
  {name other : String} {node : Nat} {e : Entry}

namespace Edit

theorem refl (hs : fs.Sane) : Edit touched fs fs :=
  ⟨rfl, fun _ _ => rfl, fun _ _ _ _ => rfl, hs⟩

theorem mono (h : Edit touched fs fs') (hle : ∀ q, touched q → touched' q) :
    Edit touched' fs fs' where
  anchor := h.anchor
  entry q hq := h.entry q fun ht => hq (hle q ht)
  bytes q node hq := h.bytes q node fun ht => hq (hle q ht)
  sane := h.sane

theorem trans (h : Edit touched fs fs') (h' : Edit touched fs' fs'') : Edit touched fs fs'' where
  anchor := h'.anchor.trans h.anchor
  entry q hq := (h'.entry q hq).trans (h.entry q hq)
  bytes q node hq he :=
    (h'.bytes q node hq ((h.entry q hq).trans he)).trans (h.bytes q node hq he)
  sane := h'.sane

/-- The way back from a change is a change of the same places. -/
theorem symm (h : Edit touched fs fs') (hs : fs.Sane) : Edit touched fs' fs where
  anchor := h.anchor.symm
  entry q hq := (h.entry q hq).symm
  bytes q node hq he := (h.bytes q node hq ((h.entry q hq).symm.trans he)).symm
  sane := hs

/-- A path that leads to a directory still does after a change below it. -/
theorem rooted (h : Edit touched fs fs') (hr : Rooted fs p place)
    (hb : ∀ q, touched q → Below place q) : Rooted fs' p place :=
  hr.congr fun q hq => h.entry q fun ht => hq (hb q ht)

theorem rooted_child (h : Edit (· = place ++ [name]) fs fs') (hr : Rooted fs p place) :
    Rooted fs' p place := h.rooted hr fun _ hq => hq ▸ below_child place name

end Edit

/-- What can be read right in a directory, if its place is left as it was. -/
theorem Edit.read_child (h : Edit touched fs fs') (hr : Rooted fs p place)
    (hr' : Rooted fs' p place) (hdown : name ≠ "..") (hfree : ¬touched (place ++ [name])) :
    fs'.read (p ++ [name]) = fs.read (p ++ [name]) := by
  unfold read openFile
  cases hnul : hasNul [name] with
  | true =>
    rw [guarded_of_hidden (Rooted.hasNul_child p hnul),
      guarded_of_hidden (Rooted.hasNul_child p hnul)]
    rfl
  | false =>
    have hvisible : hasNul (p ++ [name]) = false := by
      rw [hasNul_append, hr.visible, hnul]
      rfl
    by_cases hlong : maxName < (Text.toBytes name).length
    · rw [hr.find_child_long hlong, hr'.find_child_long hlong]
      simp only [bind, Except.bind, guarded_error hvisible, h.anchor]
    · have hn : Plain name := ⟨hnul, hdown, Nat.not_lt.mp hlong⟩
      rw [hr.find_child hn, hr'.find_child hn, h.entry _ hfree]
      cases hentry : fs.entry? (place ++ [name]) with
      | none => simp only [bind, Except.bind, guarded_error hvisible, h.anchor]
      | some e =>
        cases e with
        | directory => simp only [bind, Except.bind, throw, throwThe, MonadExceptOf.throw,
            guarded_error hvisible, h.anchor]
        | file node =>
          simp only [bind, Except.bind, pure, Except.pure, guarded, hvisible, Bool.false_eq_true,
            if_false, h.bytes _ node hfree hentry]

/-! ## Entries -/

theorem entry?_of_ne_nil (h : q ≠ []) : fs.entry? q = fs.entries.lookup q := if_neg h

theorem child_ne_nil (place : Path) (name : String) : place ++ [name] ≠ [] := by simp

/-- What there is at each place, from a lookup among the entries. -/
theorem entry?_of_lookup {entries : List (Path × Entry)} {found : Option Entry}
    (hnil : q = [] → found = some .directory) (h : q ≠ [] → entries.lookup q = found) :
    entry? { fs with entries } q = found := by
  by_cases hq : q = []
  · rw [hnil hq, hq]
    rfl
  · rw [entry?_of_ne_nil hq]
    exact h hq

theorem child_inj : place ++ [name] = place ++ [other] ↔ name = other := by simp

theorem below_eq_child {rest : Path} : place ++ name :: rest = place ++ [other] ↔
    name = other ∧ rest = [] := by simp

/-- One more entry, where there is none. -/
theorem entry?_append (h : fs.entry? place = none) (q : Path) (fresh : Nat)
    (contents : List (Nat × Bytes)) :
    entry? ⟨fs.anchor, fs.entries ++ [(place, e)], contents, fresh⟩ q =
      if q = place then some e else fs.entry? q := by
  by_cases hq : q = place
  · subst hq
    rw [if_pos rfl]
    by_cases hnil : q = []
    · rw [hnil] at h
      cases h
    · rw [entry?_of_ne_nil hnil] at h ⊢
      rw [List.lookup_append, h, Keyed.lookup_cons_eq, if_pos (beq_self_eq_true q)]
      rfl
  · rw [if_neg hq]
    by_cases hnil : q = []
    · rw [hnil]
      rfl
    · rw [entry?_of_ne_nil hnil, entry?_of_ne_nil hnil, List.lookup_append, Keyed.lookup_cons_eq,
        if_neg (by simpa using hq)]
      cases fs.entries.lookup q <;> rfl

theorem nodeBytes_setNode_ne {other : Nat} (h : other ≠ node) (bytes : Bytes) :
    (fs.setNode node bytes).nodeBytes other = fs.nodeBytes other := by
  rw [nodeBytes, setNode, Keyed.lookup_set, if_neg (by simpa using h)]
  rfl

/-- Writing to the node of a file changes no other file. -/
theorem edit_setNode (hs : fs.Sane) (hq : fs.entry? q = some (.file node)) (bytes : Bytes) :
    Edit (· = q) fs (fs.setNode node bytes) where
  anchor := rfl
  entry _ _ := rfl
  bytes r other hr he := by
    refine nodeBytes_setNode_ne (fun heq => hr ?_) bytes
    subst heq
    exact hs.own he hq
  sane := ⟨fun he => hs.used he, fun he he' => hs.own he he'⟩

/-- One more file, of a fresh node, has been made where there was nothing. -/
theorem edit_create (hs : fs.Sane) (h : fs.entry? q = none) (bytes : Bytes) :
    Edit (· = q) fs ((fs.withFile q).setNode fs.fresh bytes) := by
  have hentry (r : Path) : entry? ((fs.withFile q).setNode fs.fresh bytes) r =
      if r = q then some (.file fs.fresh) else fs.entry? r := entry?_append h r _ _
  refine ⟨rfl, fun r hr => ?_, fun r other hr he => ?_, fun {r node} he => ?_,
    fun {r t node} he he' => ?_⟩
  · rw [hentry, if_neg hr]
  · have hlt := hs.used he
    exact nodeBytes_setNode_ne (Nat.ne_of_lt hlt) bytes
  · rw [hentry] at he
    show node < fs.fresh + 1
    split at he
    · cases he
      exact Nat.lt_succ_self _
    · exact Nat.lt_succ_of_lt (hs.used he)
  · rw [hentry] at he he'
    split at he
    · rename_i hr
      cases he
      split at he'
      · rename_i ht
        rw [hr, ht]
      · exact absurd (hs.used he') (Nat.lt_irrefl _)
    · split at he'
      · cases he'
        exact absurd (hs.used he) (Nat.lt_irrefl _)
      · exact hs.own he he'

/-- A change of entries that gives no file a second place. -/
theorem edit_entries (hs : fs.Sane) {entries : List (Path × Entry)} (origin : Path → Path)
    (hkept : ∀ q, ¬touched q → entry? { fs with entries } q = fs.entry? q)
    (horigin : ∀ q node, entry? { fs with entries } q = some (.file node) →
      fs.entry? (origin q) = some (.file node))
    (hinj : ∀ q r node, entry? { fs with entries } q = some (.file node) →
      entry? { fs with entries } r = some (.file node) → origin q = origin r → q = r) :
    Edit touched fs { fs with entries } where
  anchor := rfl
  entry := hkept
  bytes _ _ _ _ := rfl
  sane :=
    ⟨fun he => hs.used (horigin _ _ he),
      fun he he' => hinj _ _ _ he he' (hs.own (horigin _ _ he) (horigin _ _ he'))⟩

/-- A change of entries after which there is the same at all places that it touches, and no file. -/
theorem edit_where [DecidablePred touched] (hs : fs.Sane) {entries : List (Path × Entry)}
    {found : Option Entry}
    (hentry : ∀ q, entry? { fs with entries } q = if touched q then found else fs.entry? q)
    (hfound : ∀ node, found ≠ some (.file node)) : Edit touched fs { fs with entries } := by
  refine edit_entries hs id (fun q hq => by rw [hentry, if_neg hq]) (fun q node he => ?_)
    fun _ _ _ _ _ heq => heq
  rw [hentry] at he
  split at he
  · exact absurd he (hfound node)
  · exact he

/-- One more directory, where there was nothing. -/
theorem edit_directory (hs : fs.Sane) (hnone : fs.entry? place = none) :
    Edit (· = place) fs { fs with entries := fs.entries ++ [(place, .directory)] } :=
  edit_where hs (fun q => entry?_append hnone q _ _) nofun

/-! ### Removing -/

theorem entry?_erase (hnil : place ≠ []) (q : Path) :
    entry? { fs with entries := Keyed.erase place fs.entries } q =
      if q = place then none else fs.entry? q := by
  refine entry?_of_lookup (fun hq => ?_) (fun hq => ?_)
  · rw [hq, if_neg hnil.symm]
    rfl
  · rw [entry?_of_ne_nil hq, Keyed.lookup_erase]
    simp only [beq_iff_eq]

theorem entry?_prune (hnil : place ≠ []) (q : Path) :
    entry? { fs with entries := fs.entries.filter fun e => !place.isPrefixOf e.1 } q =
      if place <+: q then none else fs.entry? q := by
  refine entry?_of_lookup (fun hq => ?_) (fun hq => ?_)
  · rw [hq, if_neg (fun hp => hnil (List.prefix_nil.mp hp))]
    rfl
  · have hlookup := Keyed.lookup_filter_key (fun r : Path => !place.isPrefixOf r) q fs.entries
    rw [entry?_of_ne_nil hq, hlookup]
    by_cases hp : place <+: q
    · rw [if_pos hp, if_neg (by simpa using hp)]
    · have hfalse : place.isPrefixOf q = false := by
        rwa [← Bool.not_eq_true, List.isPrefixOf_iff_prefix]
      rw [if_neg hp, if_pos (by rw [hfalse]; rfl)]

/-- The entries at some places are gone, and nothing else has changed. -/
structure Removed (touched : Path → Prop) (fs fs' : Files) : Prop where
  edit : Edit touched fs fs'
  fresh : fs'.fresh = fs.fresh
  gone : ∀ q, touched q → fs'.entry? q = none

theorem removed_erase (hs : fs.Sane) (hnil : place ≠ []) :
    Removed (· = place) fs { fs with entries := Keyed.erase place fs.entries } where
  edit := edit_where hs (entry?_erase hnil) nofun
  fresh := rfl
  gone q hq := by rw [entry?_erase hnil, if_pos hq]

theorem removed_prune (hs : fs.Sane) (hnil : place ≠ []) :
    Removed (place <+: ·) fs
      { fs with entries := fs.entries.filter fun e => !place.isPrefixOf e.1 } where
  edit := edit_where hs (entry?_prune hnil) nofun
  fresh := rfl
  gone q hq := by rw [entry?_prune hnil, if_pos hq]

/-! ### Moving -/

section move

variable {a b : Path}

/-- A file at one place after it has been moved from another one. -/
theorem entry?_move (ha : a ≠ []) (hb : b ≠ []) (q : Path) :
    entry? { fs with entries := Keyed.set b (.file node) (Keyed.erase a fs.entries) } q =
      if q = b then some (.file node) else if q = a then none else fs.entry? q := by
  refine entry?_of_lookup (fun hnil => ?_) (fun hq => ?_)
  · rw [hnil, if_neg hb.symm, if_neg ha.symm]
    rfl
  · rw [entry?_of_ne_nil hq, Keyed.lookup_set, Keyed.lookup_erase]
    simp only [beq_iff_eq]

/-- The file that is there after the move came from the place that it was moved from. -/
theorem edit_move (hs : fs.Sane) (ha : a ≠ []) (hb : b ≠ []) (hne : a ≠ b)
    (hsource : fs.entry? a = some (.file node)) :
    Edit (fun q => q = a ∨ q = b) fs
      { fs with entries := Keyed.set b (.file node) (Keyed.erase a fs.entries) } := by
  refine edit_entries hs (fun q => if q = b then a else q) ?_ ?_ ?_
  · intro q hq
    rw [not_or] at hq
    rw [entry?_move ha hb, if_neg hq.2, if_neg hq.1]
  · intro q node' he
    rw [entry?_move ha hb] at he
    split at he
    · rename_i hq
      cases he
      rw [if_pos hq]
      exact hsource
    · rename_i hq
      rw [if_neg hq]
      split at he
      · cases he
      · exact he
  · have hgone (node' : Nat) : entry? { fs with
        entries := Keyed.set b (.file node) (Keyed.erase a fs.entries) } a ≠
          some (.file node') := by
      rw [entry?_move ha hb, if_neg hne, if_pos rfl]
      exact nofun
    intro q r node' hq hr heq
    split at heq
    · rename_i hqb
      split at heq
      · rename_i hrb
        rw [hqb, hrb]
      · exact absurd (heq ▸ hr) (hgone node')
    · split at heq
      · exact absurd (heq ▸ hq) (hgone node')
      · exact heq

end move

/-! ## Operations -/

namespace Rooted

theorem create_child (h : Rooted fs p place) (hs : fs.Sane) (hn : Plain name)
    (hnone : fs.entry? (place ++ [name]) = none) :
    ∃ fs', fs.create (p ++ [name]) = .ok (fs.fresh, fs') ∧
      Edit (· = place ++ [name]) fs fs' ∧
      fs'.entry? (place ++ [name]) = some (.file fs.fresh) ∧ fs'.nodeBytes fs.fresh = [] := by
  refine ⟨(fs.withFile (place ++ [name])).setNode fs.fresh [], ?_, edit_create hs hnone [],
    place_withFile_self hnone, nodeBytes_setNode []⟩
  rw [create, guarded_eq_ok]
  refine ⟨h.visible_child hn, ?_⟩
  rw [h.walk_child hn]
  simp only [bind, Except.bind, hnone, List.dropLast_concat, h.directory]
  rfl

/-- Whatever is written replaces what the file held. -/
theorem write_child (h : Rooted fs p place) (hs : fs.Sane) (hn : Plain name)
    (hfree : fs.entry? (place ++ [name]) ≠ some .directory) (bytes : Bytes) :
    ∃ fs' node, fs.write (p ++ [name]) bytes = .ok fs' ∧ Edit (· = place ++ [name]) fs fs' ∧
      fs'.entry? (place ++ [name]) = some (.file node) ∧ fs'.nodeBytes node = bytes := by
  cases he : fs.entry? (place ++ [name]) with
  | none =>
    obtain ⟨fs₁, hcreate, hedit, hentry, -⟩ := h.create_child hs hn he
    refine ⟨fs₁.setNode fs.fresh bytes, fs.fresh, ?_, ?_, hentry, nodeBytes_setNode bytes⟩
    · rw [write, hcreate]
      rfl
    · exact hedit.trans (edit_setNode hedit.sane hentry bytes)
  | some e =>
    cases e with
    | directory => exact absurd he hfree
    | file node =>
      refine ⟨fs.setNode node bytes, node, ?_, edit_setNode hs he bytes, he,
        nodeBytes_setNode bytes⟩
      have hcreate : fs.create (p ++ [name]) = .ok (node, fs.setNode node []) := by
        rw [create, guarded_eq_ok]
        refine ⟨h.visible_child hn, ?_⟩
        rw [h.walk_child hn]
        simp only [bind, Except.bind, he]
        rfl
      rw [write, hcreate]
      exact congrArg Except.ok (setNode_setNode [] bytes)

/-- A file that is moved over another file takes its place. -/
theorem move_child (h : Rooted fs p place) (hs : fs.Sane) (hn : Plain name) (ho : Plain other)
    (hne : name ≠ other) (hsource : fs.entry? (place ++ [name]) = some (.file node))
    (hfree : fs.entry? (place ++ [other]) ≠ some .directory) :
    ∃ fs', fs.move (p ++ [name]) (p ++ [other]) = .ok fs' ∧
      Edit (fun q => q = place ++ [name] ∨ q = place ++ [other]) fs fs' ∧
      fs'.entry? (place ++ [name]) = none ∧ fs'.entry? (place ++ [other]) = some (.file node) ∧
      fs'.nodeBytes node = fs.nodeBytes node := by
  have ha : place ++ [name] ≠ [] := child_ne_nil place name
  have hb : place ++ [other] ≠ [] := child_ne_nil place other
  have hplaces : place ++ [name] ≠ place ++ [other] := fun heq => hne (child_inj.mp heq)
  refine ⟨_, ?_, edit_move hs ha hb hplaces hsource, ?_, ?_, rfl⟩
  · unfold move
    rw [h.visible_child hn, h.visible_child ho, h.find_child hn, hsource, h.walk_child ho]
    simp only [Bool.or_self, Bool.false_eq_true, if_false]
    split
    · rename_i heq
      exact absurd heq hfree
    · rename_i heq _
      cases heq
    · rename_i heq _
      cases heq
    · rfl
  · rw [entry?_move ha hb, if_neg hplaces, if_pos rfl]
  · rw [entry?_move ha hb, if_pos rfl]

theorem remove_child (h : Rooted fs p place) (hs : fs.Sane) (hn : Plain name)
    (hfile : fs.entry? (place ++ [name]) = some (.file node)) :
    ∃ fs', fs.remove (p ++ [name]) = .ok fs' ∧ Edit (· = place ++ [name]) fs fs' ∧
      fs'.entry? (place ++ [name]) = none := by
  have hremoved := removed_erase hs (child_ne_nil place name)
  refine ⟨_, ?_, hremoved.edit, hremoved.gone _ rfl⟩
  rw [remove, guarded_eq_ok]
  refine ⟨h.visible_child hn, ?_⟩
  rw [h.find_child hn, hfile]
  rfl

theorem removeIfThere_child (h : Rooted fs p place) (hs : fs.Sane) (hn : Plain name)
    (hfile : fs.entry? (place ++ [name]) = some (.file node)) :
    ∃ fs', fs.removeIfThere (p ++ [name]) = .ok fs' ∧ Edit (· = place ++ [name]) fs fs' ∧
      fs'.entry? (place ++ [name]) = none := by
  obtain ⟨fs', hremove, hedit, hnone⟩ := h.remove_child hs hn hfile
  refine ⟨fs', ?_, hedit, hnone⟩
  rw [removeIfThere, hremove]

/-- A directory is removed with everything in it. -/
theorem removeTree (h : Rooted fs p place) (hs : fs.Sane) (hne : place ≠ []) :
    ∃ fs', fs.removeTree p = .ok fs' ∧ Edit (place <+: ·) fs fs' ∧
      ∀ q, place <+: q → fs'.entry? q = none := by
  have hremoved := removed_prune hs hne
  refine ⟨_, ?_, hremoved.edit, hremoved.gone⟩
  rw [Files.removeTree, guarded_eq_ok]
  refine ⟨h.visible, ?_⟩
  rw [h.find]
  rfl

/-- A directory that is not there is made. -/
theorem ensureDirectory_child (h : Rooted fs p place) (hs : fs.Sane) (hn : Plain name)
    (hnone : fs.entry? (place ++ [name]) = none) :
    ∃ fs', fs.ensureDirectory (p ++ [name]) = (.ok (), fs') ∧
      Edit (· = place ++ [name]) fs fs' ∧
      fs'.entry? (place ++ [name]) = some .directory := by
  refine ⟨_, ?_, edit_directory hs hnone, ?_⟩
  · have hmake : fs.guarded (p ++ [name]) (fs.makeOne (p ++ [name])) =
        .ok { fs with entries := fs.entries ++ [(place ++ [name], .directory)] } := by
      rw [guarded_eq_ok]
      refine ⟨h.visible_child hn, ?_⟩
      rw [makeOne, h.walk_child hn]
      simp only [bind, Except.bind, hnone, List.dropLast_concat, h.directory]
      rfl
    rw [Files.ensureDirectory, hmake]
  · exact (entry?_append hnone _ _ _).trans (if_pos rfl)

end Rooted
end Files
end Tabulary
