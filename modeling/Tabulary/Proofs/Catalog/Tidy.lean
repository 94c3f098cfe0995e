import Tabulary.Proofs.Catalog.Loading
import Tabulary.Proofs.Files.Effect

/-!
Data directories in order.  Nothing is said of the databases that stand in one but that a manifest
lists the files of its tables, each once: databases may have been left there, and may be open under
other names than their manifests give.

Work on the rows of a table is quiet: no manifest changes.  Other work leaves manifests in order,
and of the nodes that are held open none becomes that of a manifest.
-/

namespace Tabulary

/-- Every table has the file of its name, and no two have names of the same file. -/
structure Manifest.Neat (m : Manifest) : Prop where
  file : ∀ t ∈ m.tables, t.file = Name.tableFile t.name
  apart : ((m.tables.map (·.name)).map Name.sanitize).Nodup

namespace Files

variable {base root q : Path} {fs fs' fs'' : Files} {node : Nat} {directory file : String}
  {touched : Path → Prop}

/-! ## Places -/

/-- The place of a manifest, or where one is written before it gets there. -/
def Manifested (root q : Path) : Prop :=
  ∃ directory, q = root ++ [directory, Database.manifestName] ∨
    q = root ++ [directory, Database.draftName]

/-- A place in the directory of a database that is not that of its manifest. -/
structure Inside (root : Path) (directory : String) (q : Path) : Prop where
  within : root ++ [directory] <+: q
  other : ¬Manifested root q

theorem Inside.below (h : Inside root directory q) : Below root q := by
  obtain ⟨rest, rfl⟩ := h.within
  exact ⟨directory, rest, by simp⟩

theorem not_inside_up (hd : directory ≠ "..") : ¬Inside root directory (root ++ [".."]) := by
  intro h
  have heq := List.IsPrefix.eq_of_length h.within (by simp)
  exact hd (child_inj.mp heq)

theorem inside_self (root : Path) (directory : String) :
    Inside root directory (root ++ [directory]) where
  within := List.prefix_refl _
  other := by
    rintro ⟨other, heq | heq⟩
    · exact absurd (List.append_cancel_left heq) (by simp)
    · exact absurd (List.append_cancel_left heq) (by simp)

theorem inside_tableFile (root : Path) (directory table : String) :
    Inside root directory (root ++ [directory, Name.tableFile table]) where
  within := ⟨[Name.tableFile table], by simp⟩
  other := by
    rintro ⟨other, heq | heq⟩
    · have hnames := List.append_cancel_left heq
      simp only [List.cons.injEq] at hnames
      exact Database.tableFile_ne_manifestName table hnames.2.1
    · have hnames := List.append_cancel_left heq
      simp only [List.cons.injEq] at hnames
      exact Database.tableFile_ne_draftName table hnames.2.1

/-- A node that has been given out, and that at most a file of rows in the directory has. -/
structure Loose (root : Path) (directory : String) (fs : Files) (node : Nat) : Prop where
  used : node < fs.fresh
  inside : ∀ q, fs.entry? q = some (.file node) → Inside root directory q

/-! ## Data directories -/

/-- A path leads to the data directory, and the manifests below it are in order. -/
structure Tidy (base root : Path) (fs : Files) : Prop where
  sane : fs.Sane
  rooted : Rooted fs base root
  down : fs.entry? (root ++ [".."]) = none
  neat : ∀ q node, Manifested root q → fs.entry? q = some (.file node) →
    ∀ m, Manifest.ofBytes (fs.nodeBytes node) = .ok m → m.Neat

theorem Tidy.walk (h : Tidy base root fs) (hd : directory ≠ "..") (hf : file ≠ "..")
    (hw : fs.walk [] (base ++ [directory, file]) = .ok q) : q = root ++ [directory, file] :=
  h.rooted.walk_down (by simp [hd.symm, hf.symm]) hw

/-- The file of a table is opened. -/
theorem Tidy.loose_openFile (h : Tidy base root fs) (hd : directory ≠ "..") {table : String}
    (hopen : fs.openFile (base ++ [directory, Name.tableFile table]) = .ok node) :
    Loose root directory fs node := by
  obtain ⟨-, q, hwalk, hentry⟩ := openFile_eq_ok.mp hopen
  obtain rfl := h.walk hd (Database.tableFile_ne_up table) hwalk
  refine ⟨h.sane.used hentry, fun r hr => ?_⟩
  rw [h.sane.own hr hentry]
  exact inside_tableFile root directory table

/-- The manifest in a directory has these bytes. -/
def Bears (root : Path) (directory : String) (content : Bytes) (fs : Files) : Prop :=
  ∃ node, fs.entry? (root ++ [directory, Database.manifestName]) = some (.file node) ∧
    fs.nodeBytes node = content

variable {content content' : Bytes}

theorem Bears.eq (h : Bears root directory content fs) (h' : Bears root directory content' fs) :
    content = content' := by
  obtain ⟨node, hnode, rfl⟩ := h
  obtain ⟨node', hnode', rfl⟩ := h'
  rw [hnode] at hnode'
  cases hnode'
  rfl

theorem Tidy.bears_of_read (h : Tidy base root fs) (hd : directory ≠ "..")
    (hread : fs.read (base ++ [directory, Database.manifestName]) = .ok content) :
    (∃ node, fs.openFile (base ++ [directory, Database.manifestName]) = .ok node) ∧
      Bears root directory content fs := by
  unfold Files.read at hread
  cases hopen : fs.openFile (base ++ [directory, Database.manifestName]) with
  | error e =>
    rw [hopen] at hread
    cases hread
  | ok node =>
    rw [hopen] at hread
    obtain ⟨-, q, hwalk, hentry⟩ := openFile_eq_ok.mp hopen
    obtain rfl := h.walk hd Database.plain_manifestName.down hwalk
    exact ⟨⟨node, rfl⟩, node, hentry, Except.ok.inj hread⟩

theorem Bears.read (h : Bears root directory content fs) (ht : Tidy base root fs)
    (hd : directory ≠ "..")
    (hthere : fs.isThere (base ++ [directory, Database.manifestName]) = .ok true) :
    fs.read (base ++ [directory, Database.manifestName]) = .ok content := by
  obtain ⟨node, hnode, rfl⟩ := h
  obtain ⟨hnul, ⟨q, e⟩, hfind⟩ := find_of_isThere hthere
  obtain ⟨hwalk, -⟩ := find_eq_ok.mp hfind
  obtain rfl := ht.walk hd Database.plain_manifestName.down hwalk
  rw [Files.read, openFile_eq_ok.mpr ⟨hnul, _, hwalk, hnode⟩]
  rfl

/-- The manifest of a directory is in order. -/
theorem Tidy.neat_of_read (h : Tidy base root fs) (hd : directory ≠ "..")
    (hread : fs.read (base ++ [directory, Database.manifestName]) = .ok content) (m : Manifest)
    (hm : Manifest.ofBytes content = .ok m) : m.Neat := by
  obtain ⟨-, node, hentry, rfl⟩ := h.bears_of_read hd hread
  exact h.neat _ node ⟨directory, Or.inl rfl⟩ hentry m hm

/-! ## Courses -/

/-- A change in the directory of a database that leaves its manifest alone, and gives no node a
second place. -/
structure Quiet (root : Path) (directory : String) (fs fs' : Files) : Prop where
  fresh : fs.fresh ≤ fs'.fresh
  edit : Edit (Inside root directory) fs fs'
  nodes : ∀ q node, fs'.entry? q = some (.file node) →
    fs.entry? q = some (.file node) ∨ fs.fresh ≤ node

/-- A change after which manifests are in order, and no node that is held open is that of a
manifest. -/
structure Onward (base root : Path) (fs fs' : Files) : Prop where
  tidy : Tidy base root fs'
  loose : ∀ directory node, Loose root directory fs node → Loose root directory fs' node

theorem Quiet.trans (h : Quiet root directory fs fs') (h' : Quiet root directory fs' fs'') :
    Quiet root directory fs fs'' where
  fresh := Nat.le_trans h.fresh h'.fresh
  edit := h.edit.trans h'.edit
  nodes q node hnode := by
    rcases h'.nodes q node hnode with hnode | hge
    · exact h.nodes q node hnode
    · exact Or.inr (Nat.le_trans h.fresh hge)

theorem Quiet.entry (h : Quiet root directory fs fs') (hq : Manifested root q) :
    fs'.entry? q = fs.entry? q := h.edit.entry q fun hi => hi.other hq

theorem Quiet.bytes (h : Quiet root directory fs fs') (hq : Manifested root q)
    (hnode : fs.entry? q = some (.file node)) : fs'.nodeBytes node = fs.nodeBytes node :=
  h.edit.bytes q node (fun hi => hi.other hq) hnode

theorem Quiet.bears_iff {other : String} (h : Quiet root directory fs fs') :
    Bears root other content fs' ↔ Bears root other content fs := by
  have hplace : Manifested root (root ++ [other, Database.manifestName]) := ⟨other, Or.inl rfl⟩
  unfold Bears
  rw [h.entry hplace]
  refine exists_congr fun node => and_congr_right fun hnode => ?_
  rw [h.bytes hplace hnode]

theorem Quiet.tidy (h : Quiet root directory fs fs') (hd : directory ≠ "..")
    (ht : Tidy base root fs) : Tidy base root fs' where
  sane := h.edit.sane
  rooted := h.edit.rooted ht.rooted fun _ hq => hq.below
  down := by
    rw [h.edit.entry _ (not_inside_up hd)]
    exact ht.down
  neat q node hq hnode := by
    rw [h.entry hq] at hnode
    rw [h.bytes hq hnode]
    exact ht.neat q node hq hnode

theorem Quiet.loose {other : String} (h : Quiet root directory fs fs')
    (hl : Loose root other fs node) : Loose root other fs' node := by
  refine ⟨Nat.lt_of_lt_of_le hl.used h.fresh, fun q hq => ?_⟩
  rcases h.nodes q node hq with hnode | hge
  · exact hl.inside q hnode
  · exact absurd hl.used (Nat.not_lt.mpr hge)

/-- Ways in which a data directory in order may go on. -/
structure Course (base root : Path) (R : Files → Files → Prop) : Prop where
  refl : ∀ {fs}, Tidy base root fs → R fs fs
  trans : ∀ {fs fs' fs''}, R fs fs' → R fs' fs'' → R fs fs''
  tidy : ∀ {fs fs'}, R fs fs' → Tidy base root fs → Tidy base root fs'
  loose : ∀ {fs fs' directory node}, R fs fs' → Loose root directory fs node →
    Loose root directory fs' node

theorem course_quiet (hd : directory ≠ "..") : Course base root (Quiet root directory) where
  refl h := ⟨Nat.le_refl _, Edit.refl h.sane, fun _ _ hnode => Or.inl hnode⟩
  trans := Quiet.trans
  tidy h := h.tidy hd
  loose := Quiet.loose

theorem course_onward : Course base root (Onward base root) where
  refl h := ⟨h, fun _ _ hl => hl⟩
  trans h h' := ⟨h'.tidy, fun other node hl => h'.loose other node (h.loose other node hl)⟩
  tidy h _ := h.tidy
  loose h hl := h.loose _ _ hl

theorem Quiet.onward (h : Quiet root directory fs fs') (hd : directory ≠ "..")
    (ht : Tidy base root fs) : Onward base root fs fs' :=
  ⟨h.tidy hd ht, fun _ _ => h.loose⟩

/-! ## Changes -/

/-- The bytes of a node that is held open are replaced. -/
theorem quiet_setNode (hs : fs.Sane) (hl : Loose root directory fs node) (bytes : Bytes) :
    Quiet root directory fs (fs.setNode node bytes) where
  fresh := Nat.le_refl _
  edit := {
    anchor := rfl
    entry := fun _ _ => rfl
    bytes := fun q other hq he => by
      refine nodeBytes_setNode_ne (fun heq => hq (hl.inside q ?_)) bytes
      rw [he, heq]
    sane := ⟨fun he => hs.used he, fun he he' => hs.own he he'⟩ }
  nodes _ _ hnode := Or.inl hnode

/-- A change at one place. -/
theorem quiet_edit (hq : Inside root directory q) (he : Edit (· = q) fs fs')
    (hfresh : fs.fresh ≤ fs'.fresh) (hnodes : ∀ node, fs'.entry? q = some (.file node) →
      fs.entry? q = some (.file node) ∨ fs.fresh ≤ node) : Quiet root directory fs fs' where
  fresh := hfresh
  edit := he.mono fun _ heq => heq ▸ hq
  nodes r node hnode := by
    by_cases hr : r = q
    · rw [hr] at hnode ⊢
      exact hnodes node hnode
    · rw [he.entry r hr] at hnode
      exact Or.inl hnode

theorem Tidy.quiet_ensureDirectory (h : Tidy base root fs) (hd : directory ≠ "..") :
    Quiet root directory fs (fs.ensureDirectory (base ++ [directory])).2 := by
  obtain ⟨hedit, hfresh, hnodes⟩ := h.rooted.edit_ensureDirectory_child h.sane hd
  exact quiet_edit (inside_self root directory) hedit (Nat.le_of_eq hfresh.symm)
    fun node hnode => Or.inl (hnodes node hnode)

theorem Tidy.quiet_create (h : Tidy base root fs) (hd : directory ≠ "..") {table : String}
    (hmake : fs.create (base ++ [directory, Name.tableFile table]) = .ok (node, fs')) :
    Quiet root directory fs fs' := by
  obtain ⟨q, hwalk, hmade⟩ := created_of_create h.sane hmake
  obtain rfl := h.walk hd (Database.tableFile_ne_up table) hwalk
  refine quiet_edit (inside_tableFile root directory table) hmade.edit hmade.fresh ?_
  intro other hother
  rw [hmade.entry] at hother
  cases hother
  exact hmade.origin

theorem Tidy.quiet_remove (h : Tidy base root fs) (hd : directory ≠ "..") {table : String}
    (hgone : fs.remove (base ++ [directory, Name.tableFile table]) = .ok fs') :
    Quiet root directory fs fs' := by
  obtain ⟨q, hwalk, hremoved⟩ := removed_of_remove h.sane hgone
  obtain rfl := h.walk hd (Database.tableFile_ne_up table) hwalk
  refine quiet_edit (inside_tableFile root directory table) hremoved.edit
    (Nat.le_of_eq hremoved.fresh.symm) ?_
  intro other hother
  rw [hremoved.gone _ rfl] at hother
  cases hother

theorem Tidy.quiet_removeIfThere (h : Tidy base root fs) (hd : directory ≠ "..") {table : String}
    (hgone : fs.removeIfThere (base ++ [directory, Name.tableFile table]) = .ok fs') :
    Quiet root directory fs fs' := by
  unfold removeIfThere at hgone
  split at hgone
  · cases hgone
    exact (course_quiet hd).refl h
  · exact h.quiet_remove hd hgone

/-- Manifests may change below the data directory, and files may go. -/
theorem Tidy.onward_edit (h : Tidy base root fs) (he : Edit touched fs fs')
    (hfresh : fs.fresh ≤ fs'.fresh) (hbelow : ∀ q, touched q → Below root q)
    (hdown : ¬touched (root ++ [".."]))
    (hnew : ∀ q node, touched q → fs'.entry? q = some (.file node) →
      (∀ m, Manifest.ofBytes (fs'.nodeBytes node) = .ok m → m.Neat) ∧
        (fs.fresh ≤ node ∨ ∃ r, Manifested root r ∧ fs.entry? r = some (.file node))) :
    Onward base root fs fs' where
  tidy := {
    sane := he.sane
    rooted := he.rooted h.rooted hbelow
    down := by
      rw [he.entry _ hdown]
      exact h.down
    neat := fun q node hq hnode => by
      by_cases ht : touched q
      · exact (hnew q node ht hnode).1
      · rw [he.entry q ht] at hnode
        rw [he.bytes q node ht hnode]
        exact h.neat q node hq hnode }
  loose directory node hl := by
    refine ⟨Nat.lt_of_lt_of_le hl.used hfresh, fun q hq => ?_⟩
    by_cases ht : touched q
    · rcases (hnew q node ht hq).2 with hge | ⟨r, hr, hnode⟩
      · exact absurd hl.used (Nat.not_lt.mpr hge)
      · exact absurd hr (hl.inside r hnode).other
    · rw [he.entry q ht] at hq
      exact hl.inside q hq

/-- The draft of a manifest is written. -/
theorem Tidy.onward_write (h : Tidy base root fs) (hd : directory ≠ "..")
    (hneat : ∀ m, Manifest.ofBytes content = .ok m → m.Neat)
    (hwrite : fs.write (base ++ [directory, Database.draftName]) content = .ok fs') :
    Onward base root fs fs' ∧
      ∃ node, fs'.entry? (root ++ [directory, Database.draftName]) = some (.file node) := by
  obtain ⟨q, node, hwalk, hmade⟩ := created_of_write h.sane hwrite
  obtain rfl := h.walk hd Database.plain_draftName.down hwalk
  refine ⟨h.onward_edit hmade.edit hmade.fresh ?_ ?_ ?_, node, hmade.entry⟩
  · rintro _ rfl
    exact ⟨directory, [Database.draftName], rfl⟩
  · intro heq
    exact absurd (List.append_cancel_left heq) (by simp)
  · rintro _ other rfl hother
    obtain rfl : node = other := by
      rw [hmade.entry] at hother
      cases hother
      rfl
    rw [hmade.bytes]
    exact ⟨hneat, hmade.origin.symm.imp_right
      fun hnode => ⟨_, ⟨directory, Or.inr rfl⟩, hnode⟩⟩

/-- The draft takes the place of the manifest. -/
theorem Tidy.onward_move (h : Tidy base root fs) (hd : directory ≠ "..")
    (hnode : fs.entry? (root ++ [directory, Database.draftName]) = some (.file node))
    (hmove : fs.move (base ++ [directory, Database.draftName])
      (base ++ [directory, Database.manifestName]) = .ok fs') : Onward base root fs fs' := by
  obtain ⟨a, b, ha, hb, hmoved⟩ := moved_of_move h.sane hmove
  obtain rfl := h.walk hd Database.plain_draftName.down ha
  obtain rfl := h.walk hd Database.plain_manifestName.down hb
  have hdraft : Manifested root (root ++ [directory, Database.draftName]) :=
    ⟨directory, Or.inr rfl⟩
  have hmoved := hmoved node hnode (by simp [Database.draftName_ne_manifestName])
  refine h.onward_edit hmoved.edit (Nat.le_of_eq hmoved.fresh.symm) ?_ ?_ ?_
  · rintro _ (rfl | rfl)
    · exact ⟨directory, [Database.draftName], rfl⟩
    · exact ⟨directory, [Database.manifestName], rfl⟩
  · rintro (heq | heq)
    · exact absurd (List.append_cancel_left heq) (by simp)
    · exact absurd (List.append_cancel_left heq) (by simp)
  · rintro _ other (rfl | rfl) hother
    · rw [hmoved.gone] at hother
      cases hother
    · obtain rfl : node = other := by
        rw [hmoved.entry] at hother
        cases hother
        rfl
      rw [hmoved.bytes]
      exact ⟨h.neat _ _ hdraft hnode, Or.inr ⟨_, hdraft, hnode⟩⟩

theorem Tidy.onward_removeTree (h : Tidy base root fs) (hd : directory ≠ "..")
    (hgone : fs.removeTree (base ++ [directory]) = .ok fs') : Onward base root fs fs' := by
  obtain ⟨q, hwalk, hremoved⟩ := removed_of_removeTree h.sane hgone
  obtain rfl := h.rooted.walk_down (by simpa using hd.symm) hwalk
  have hremoved := hremoved (child_ne_nil root directory)
  refine h.onward_edit hremoved.edit (Nat.le_of_eq hremoved.fresh.symm) ?_ ?_ ?_
  · rintro _ ⟨rest, rfl⟩
    exact ⟨directory, rest, by simp⟩
  · intro hp
    have heq := List.IsPrefix.eq_of_length hp (by simp)
    exact hd (child_inj.mp heq)
  · intro q node hq hnode
    rw [hremoved.gone q hq] at hnode
    cases hnode

end Files
end Tabulary
