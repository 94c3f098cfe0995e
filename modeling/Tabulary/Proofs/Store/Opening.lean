import Tabulary.Proofs.Files.Local
import Tabulary.Proofs.Store.Failure

/-!
Opening and dropping the file of a table, wherever it is and whatever it holds.  An attempt to open
it that fails leaves the files and the count of open files as they were, and a file that has been
opened can be dropped again.
-/

namespace Tabulary

open Attempt Files

namespace Work

/-- The state is looked at, and known from then on. -/
theorem triple_state {σ α : Type} {P E : σ × World → Prop} {Q : α → σ × World → Prop}
    {f : σ → Work σ α}
    (hf : ∀ s, Triple (fun y => y.1 = s ∧ P y) (f s) Q E) : Triple P (state >>= f) Q E :=
  fun y hy => hf y.1 y ⟨rfl, hy⟩

theorem keeps_change {σ : Type} (f : Files → Except Fault Files) :
    Keeps (·.1) (Work.change f : Work σ Unit) := by
  intro y
  rw [run_change]
  split
  · rfl
  · rfl

end Work

namespace Store

variable {σ : Type} {p : Path} {name : String} {st : Store} {h : Handle} {w : World}

/-! ## Work that opens and closes nothing -/

section keeps

/-- Where a store is kept, whether it has been dropped, and how many files are open. -/
def position (y : Store × World) : Path × Bool × Int :=
  (y.1.path, y.1.dropped, y.2.metrics.openTables)

theorem position_ensureOpen : Keeps position ensureOpen := by
  refine Keeps.bind (fun _ => rfl) fun s => ?_
  dsimp only
  split
  · exact keeps_throw _
  · split
    · exact keeps_pure _
    · exact keeps_throw _

theorem position_rebuild : Keeps position rebuild := by
  refine position_ensureOpen.bind fun h => Keeps.bind (fun _ => rfl) fun s => ?_
  refine Keeps.bind (fun _ => rfl) fun file => ?_
  dsimp only
  split
  · exact Keeps.bind (fun _ => rfl) fun _ => keeps_throw _
  · refine Keeps.bind (fun _ => rfl) fun _ => Keeps.bind (fun _ => rfl) fun path => ?_
    split
    · exact fun _ => rfl
    · exact fun _ => rfl

/-- Where a store is kept. -/
def place (y : Store × World) : Path := y.1.path

theorem place_ensureOpen : Keeps place ensureOpen := keeps_ensureOpen.through (·.2.1)

theorem place_readLive (h : Handle) (id : Value) : Keeps place (readLive h id) :=
  (keeps_readLive h id).through (·.2.1)

theorem place_insert (r : Row) : Keeps place (insert r) := by
  refine Keeps.bind (fun _ => rfl) fun _ => (keeps_ofExcept _).bind fun _ => ?_
  refine place_ensureOpen.bind fun _ => Keeps.bind (fun _ => rfl) fun _ => ?_
  exact (keeps_ofExcept _).bind fun _ _ => rfl

theorem place_delete (id : Value) : Keeps place (delete id) := by
  refine place_ensureOpen.bind fun _ => (place_readLive _ _).bind fun _ => ?_
  refine place_ensureOpen.bind fun _ => Keeps.bind (fun _ => rfl) fun _ => ?_
  exact (keeps_ofExcept _).bind fun _ _ => rfl

theorem place_replace (existing r : Row) : Keeps place (replace existing r) := by
  refine place_ensureOpen.bind fun _ => Keeps.bind (fun _ => rfl) fun _ => ?_
  exact (keeps_ofExcept _).bind fun _ _ => rfl

theorem place_update (r : Row) : Keeps place (update r) := by
  refine Keeps.bind (fun _ => rfl) fun _ => (keeps_ofExcept _).bind fun _ => ?_
  exact place_ensureOpen.bind fun _ => (place_readLive _ _).bind fun _ => place_replace _ _

theorem place_updateValues (id : Value) (changes : List (String × Value)) :
    Keeps place (updateValues id changes) := by
  refine place_ensureOpen.bind fun _ => (place_readLive _ _).bind fun _ => ?_
  refine Keeps.bind (fun _ => rfl) fun _ => (keeps_ofExcept _).bind fun _ => ?_
  exact (place_replace _ _).bind fun _ => keeps_pure _

theorem place_close : Keeps place close := by
  rintro ⟨st, w⟩
  unfold close closeWith
  rw [run_bind_of_ok (Work.run_state _)]
  dsimp only
  split
  · rfl
  · rfl

theorem place_drop : Keeps place drop := by
  refine Keeps.bind (fun _ => rfl) fun s => ?_
  dsimp only
  split
  · exact keeps_throw _
  · refine place_close.bind fun _ => Keeps.bind ?_ fun _ _ => rfl
    exact Keeps.bind (fun _ => rfl) fun _ _ => rfl

end keeps

/-! ## Opening -/

/-- A store that has its file open. -/
structure Ready (path : Path) (st : Store) (fs : Files) : Prop where
  place : st.path = path
  dropped : st.dropped = false
  handle : ∃ h, st.handle = some h
  opened : ∃ node, fs.openFile path = .ok node

/-- A store stays ready while the files of other names change. -/
theorem Ready.beside {names : List String} {fs fs' : Files} (h : Ready (p ++ [name]) st fs)
    (hlocal : Local p names fs fs') (hdowns : ".." ∉ names) (hdown : name ≠ "..")
    (hname : name ∉ names) : Ready (p ++ [name]) st fs' where
  place := h.place
  dropped := h.dropped
  handle := h.handle
  opened := by
    obtain ⟨node, hopen⟩ := h.opened
    exact ⟨node, (hlocal.openFile hdowns hdown hname hopen).1⟩

/-- A file that can be opened is opened, and its records are read. -/
def attach (s : Schema) (path : Path) : Work σ Store := do
  let node ← Work.query fun fs => fs.openFile path
  Work.addOpenTables 1
  let (result, st) ← Work.beside ⟨Table.empty s, path, some ⟨node, none⟩, false⟩ rebuild
  match result with
  | .ok () => return st
  | .error e =>
    Work.addOpenTables (-1)
    throw e

theorem openFile_eq (s : Schema) (path : Path) : (openFile s path : Work σ Store) = (do
    Work.ensureDirectory path.dropLast
    if !(← Work.query fun fs => fs.isThere path) then
      Work.change fun fs => (fs.create path).map (·.2)
    attach s path) := rfl

theorem place_of_attach {s : Schema} {path : Path} {y y' : σ × World}
    (hrun : (attach s path : Work σ Store).run y = (.ok st, y')) : st.path = path := by
  obtain ⟨node, y₁, -, hrun⟩ := of_run_bind_ok hrun
  obtain ⟨_, y₂, -, hrun⟩ := of_run_bind_ok hrun
  have hkeeps := position_rebuild (⟨Table.empty s, path, some ⟨node, none⟩, false⟩, y₂.2)
  rw [run_bind, Work.run_beside] at hrun
  dsimp only at hrun
  split at hrun
  · cases hrun
    exact congrArg (·.1) hkeeps
  · cases hrun

/-- A store is opened where its file is. -/
theorem place_of_openFile {s : Schema} {path : Path} {y y' : σ × World}
    (hrun : (openFile s path : Work σ Store).run y = (.ok st, y')) : st.path = path := by
  rw [openFile_eq] at hrun
  obtain ⟨_, y₁, -, hrun⟩ := of_run_bind_ok hrun
  obtain ⟨there, y₂, -, hrun⟩ := of_run_bind_ok hrun
  split at hrun
  · obtain ⟨_, y₃, -, hrun⟩ := of_run_bind_ok hrun
    exact place_of_attach hrun
  · exact place_of_attach hrun

theorem keeps_openFile (s : Schema) (path : Path) :
    Keeps (·.1) (openFile s path : Work σ Store) := by
  rw [openFile_eq]
  refine Keeps.bind (fun _ => rfl) fun _ => Keeps.bind (fun _ => rfl) fun there => ?_
  have hattach : Keeps (·.1) (attach s path : Work σ Store) := by
    refine Keeps.bind (fun _ => rfl) fun node => Keeps.bind (fun _ => rfl) fun _ => ?_
    refine Keeps.bind (fun _ => rfl) fun _ => ?_
    split
    split
    · exact keeps_pure _
    · exact Keeps.bind (fun _ => rfl) fun _ => keeps_throw _
  split
  · exact (Work.keeps_change _).bind fun _ => hattach
  · exact hattach

theorem triple_openFile (s : Schema) (path : Path) (y : σ) :
    Triple (fun z => z.1 = y) (openFile s path : Work σ Store)
      (fun st z => st.path = path ∧ z.1 = y) fun z => z.1 = y := by
  intro z hz
  have hkeeps := keeps_openFile s path z
  generalize hrun : (openFile s path : Work σ Store).run z = ending at hkeeps ⊢
  obtain ⟨result, z'⟩ := ending
  cases result with
  | ok st => exact ⟨place_of_openFile hrun, hkeeps.trans hz⟩
  | error e => exact hkeeps.trans hz

theorem place_reopen : Keeps place reopen := by
  rintro ⟨st, w⟩
  have hclose := place_close (st, w)
  rw [reopen_eq, run_bind_of_ok (Work.run_state _), run_bind]
  generalize close.run (st, w) = ending at hclose ⊢
  obtain ⟨result, y⟩ := ending
  cases result with
  | error e => exact hclose
  | ok _ =>
    dsimp only
    rw [run_bind]
    split
    · rename_i st' y' hopen
      exact place_of_openFile hopen
    · rename_i e y' hopen
      have hkeeps := keeps_openFile st.schema st.path y
      rw [hopen] at hkeeps
      exact (congrArg Store.path hkeeps).trans hclose

/-- No operation moves a store. -/
theorem place_run (op : Operation) : Keeps place op.run := by
  cases op with
  | insert r => exact (place_insert r).bind fun _ => keeps_pure _
  | update r => exact (place_update r).bind fun _ => keeps_pure _
  | updateValues id changes => exact (place_updateValues id changes).bind fun _ => keeps_pure _
  | delete id => exact (place_delete id).bind fun _ => keeps_pure _
  | select id => exact ((keeps_select id).through (·.2.1)).bind fun _ => keeps_pure _
  | selectAll => exact (keeps_selectAll.through (·.2.1)).bind fun _ => keeps_pure _
  | rowCount => exact fun _ => rfl
  | rebuild => exact (position_rebuild.through (·.1)).bind fun _ => keeps_pure _
  | reopen => exact place_reopen.bind fun _ => keeps_pure _

/-- Only a file with something in it can be damaged. -/
theorem attach_cases (s : Schema) (y : σ) (hs : w.files.Sane) :
    (∃ e w', (attach s (p ++ [name]) : Work σ Store).run (y, w) = (.error e, (y, w')) ∧
        w'.files = w.files ∧ w'.metrics.openTables = w.metrics.openTables ∧
        ∀ node, w.files.openFile (p ++ [name]) = .ok node → w.files.nodeBytes node ≠ []) ∨
      ∃ st w', (attach s (p ++ [name]) : Work σ Store).run (y, w) = (.ok st, (y, w')) ∧
        Ready (p ++ [name]) st w'.files ∧ Local p [name] w.files w'.files ∧
        w'.metrics.openTables = w.metrics.openTables + 1 := by
  unfold attach
  cases hopen : w.files.openFile (p ++ [name]) with
  | error e =>
    refine Or.inl ⟨e, w, ?_, rfl, rfl, nofun⟩
    rw [Attempt.run_bind, Work.run_query, hopen]
  | ok node =>
    let st : Store := ⟨Table.empty s, p ++ [name], some ⟨node, none⟩, false⟩
    let w₁ : World :=
      { w with metrics := { w.metrics with openTables := w.metrics.openTables + 1 } }
    have hensure : ensureOpen.run (st, w₁) = (.ok ⟨node, none⟩, (st, w₁)) := rfl
    generalize hscan : Record.scan s none ⟨0, w.files.nodeBytes node⟩ = found
    cases hbad : found.corruption with
    | some e =>
      obtain ⟨h', hrun⟩ := run_rebuild_of_corruption hensure hscan hbad
      refine Or.inl ⟨.record e,
        { w₁ with metrics := { w₁.metrics with openTables := w₁.metrics.openTables + -1 } },
        ?_, rfl, ?_, ?_⟩
      · simp only [Attempt.run_bind _ _ (_, _), Work.run_query, hopen, Work.run_addOpenTables,
          Work.run_beside, st, w₁] at hrun ⊢
        rw [hrun]
        rfl
      · show w.metrics.openTables + 1 + -1 = w.metrics.openTables
        omega
      · rintro _ ⟨⟩ hempty
        rw [hempty, (Record.Laid.nil (s := s) 0).scan] at hscan
        subst hscan
        cases hbad
    | none =>
      obtain ⟨w', hrun, hfiles⟩ := run_rebuild_of_clean hensure hscan hbad
      obtain ⟨st', hrun, hplace, hdropped, hhandle⟩ : ∃ st',
          rebuild.run (st, w₁) = (.ok (), (st', w')) ∧
          st'.path = p ++ [name] ∧ st'.dropped = false ∧ ∃ h, st'.handle = some h :=
        ⟨_, hrun, rfl, rfl, _, rfl⟩
      have hkeeps := position_rebuild (st, w₁)
      rw [hrun] at hkeeps
      refine Or.inr ⟨st', w', ?_, ⟨hplace, hdropped, hhandle, ?_⟩, ?_,
        congrArg (·.2.2) hkeeps⟩
      · simp only [Attempt.run_bind _ _ (_, _), Work.run_query, hopen, Work.run_addOpenTables,
          Work.run_beside, st, w₁] at hrun ⊢
        rw [hrun]
        rfl
      · rw [hfiles, trimmed]
        split
        · exact ⟨node, (openFile_setNode _).trans hopen⟩
        · exact ⟨node, hopen⟩
      · rw [hfiles, trimmed]
        split
        · exact local_setNode hs hopen _
        · exact .refl hs

/-- Opening the file of a table either fails and leaves the files, though directories may have been
made, or gives a store that is ready, and there is one more open file then. -/
theorem openFile_outcome (s : Schema) (y : σ) (hs : w.files.Sane) :
    (∃ e w', (openFile s (p ++ [name]) : Work σ Store).run (y, w) = (.error e, (y, w')) ∧
        Local p [] w.files w'.files ∧ w'.metrics.openTables = w.metrics.openTables) ∨
      ∃ st w', (openFile s (p ++ [name]) : Work σ Store).run (y, w) = (.ok st, (y, w')) ∧
        Ready (p ++ [name]) st w'.files ∧ Local p [name] w.files w'.files ∧
        w'.metrics.openTables = w.metrics.openTables + 1 := by
  rw [openFile_eq, List.dropLast_concat]
  generalize hmake : w.files.ensureDirectory p = ending
  obtain ⟨result, fs₁⟩ := ending
  have hlocal : Local p [] w.files fs₁ := by
    have hmade := local_ensureDirectory hs p p
    rwa [hmake] at hmade
  have hdirectory : (Work.ensureDirectory p : Work σ Unit).run (y, w) =
      (result, (y, { w with files := fs₁ })) := by
    rw [Work.run_ensureDirectory, hmake]
  cases result with
  | error e => exact Or.inl ⟨e, _, Attempt.run_bind_of_error hdirectory, hlocal, rfl⟩
  | ok _ =>
    rw [Attempt.run_bind_of_ok hdirectory]
    rw [Attempt.run_bind, Work.run_query]
    dsimp only
    cases hthere : fs₁.isThere (p ++ [name]) with
    | error e => exact Or.inl ⟨e, _, rfl, hlocal, rfl⟩
    | ok there =>
      cases there with
      | true =>
        rcases attach_cases (w := { w with files := fs₁ }) s y hlocal.sane with
          ⟨e, w', hrun, hfiles, hcount, -⟩ | ⟨st, w', hrun, hready, hattach, hcount⟩
        · exact Or.inl ⟨e, w', hrun, hfiles ▸ hlocal, hcount⟩
        · exact Or.inr ⟨st, w', hrun, hready, (hlocal.mono (List.nil_subset _)).trans hattach,
            hcount⟩
      | false =>
        cases hcreate : fs₁.create (p ++ [name]) with
        | error e =>
          refine Or.inl ⟨e, { w with files := fs₁ }, ?_, hlocal, rfl⟩
          simp only [Bool.not_false, if_true, Attempt.run_bind _ _ (_, _), Work.run_change, hcreate,
            Except.map]
        | ok made =>
          obtain ⟨node, fs₂⟩ := made
          have hmade := local_create hlocal.sane hcreate
          obtain ⟨hopen, hempty⟩ := openFile_of_create hcreate
          have hchange :
              (Work.change fun fs => (fs.create (p ++ [name])).map (·.2) : Work σ Unit).run
                (y, { w with files := fs₁ }) = (.ok (), (y, { w with files := fs₂ })) := by
            rw [Work.run_change]
            simp only [hcreate, Except.map]
          simp only [Bool.not_false, if_true]
          rw [Attempt.run_bind_of_ok hchange]
          rcases attach_cases (w := { w with files := fs₂ }) s y hmade.sane with
            ⟨e, w', -, -, -, hdamaged⟩ | ⟨st, w', hrun, hready, hattach, hcount⟩
          · exact absurd hempty (hdamaged node hopen)
          · refine Or.inr ⟨st, w', hrun, hready, ?_, hcount⟩
            exact ((hlocal.mono (List.nil_subset _)).trans hmade).trans hattach

/-! ## Dropping -/

/-- What can be opened can be removed, and is gone then. -/
theorem remove_of_openFile {fs : Files} {node : Nat} (hs : fs.Sane)
    (hopen : fs.openFile (p ++ [name]) = .ok node) :
    ∃ fs', fs.removeIfThere (p ++ [name]) = .ok fs' ∧ Local p [name] fs fs' ∧
      ∀ q, fs'.walk [] (p ++ [name]) = .ok q → fs'.entry? q = none := by
  obtain ⟨fs', hgone⟩ := exists_remove hopen
  have hlocal := local_remove hs hgone
  refine ⟨fs', by rw [removeIfThere, hgone], hlocal, fun r hr => ?_⟩
  obtain ⟨q', hwalk', hremoved⟩ := removed_of_remove hs hgone
  obtain rfl : q' = r := Except.ok.inj ((hlocal.walk hwalk').symm.trans hr)
  exact hremoved.gone _ rfl

/-- A store that is ready is dropped: its file is closed and removed. -/
theorem Ready.run_drop (h : Ready (p ++ [name]) st w.files) (hs : w.files.Sane) :
    ∃ st' w', drop.run (st, w) = (.ok (), (st', w')) ∧ Local p [name] w.files w'.files ∧
      (∀ q, w'.files.walk [] (p ++ [name]) = .ok q → w'.files.entry? q = none) ∧
      w'.metrics.openTables = w.metrics.openTables - 1 := by
  obtain ⟨hplace, hdropped, ⟨handle, hhandle⟩, node, hopen⟩ := h
  obtain ⟨fs', hgone, hlocal, hnone⟩ := remove_of_openFile hs hopen
  have hclose : close.run (st, w) = (.ok (), ({ st with handle := none },
      { w with metrics := { w.metrics with openTables := w.metrics.openTables + -1 } })) := by
    unfold close closeWith
    rw [run_bind_of_ok (Work.run_state _)]
    dsimp only
    rw [hhandle]
    rfl
  obtain ⟨st', w', hrun, hfiles, hcount⟩ : ∃ st' w',
      drop.run (st, w) = (.ok (), (st', w')) ∧
      w'.files = fs' ∧ w'.metrics.openTables = w.metrics.openTables - 1 := by
    unfold drop
    rw [run_bind_of_ok (Work.run_state _)]
    dsimp only
    rw [if_neg (by simp [hdropped]), run_bind_of_ok hclose, hplace]
    rw [run_bind, Work.run_change]
    dsimp only
    rw [hgone]
    exact ⟨_, _, rfl, rfl, rfl⟩
  exact ⟨st', w', hrun, hfiles ▸ hlocal, hfiles ▸ hnone, hcount⟩

/-- Dropping fails before anything is removed. -/
theorem spares_drop : Spares (fun y : Store × World => y.2.files) drop := by
  refine Keeps.bind_spares (fun _ => rfl) fun s => ?_
  dsimp only
  split
  · exact (keeps_throw _).spares
  · have hclose : Keeps (fun y : Store × World => y.2.files) close := by
      refine Keeps.bind (fun _ => rfl) fun s => ?_
      split
      · exact keeps_pure _
      · exact fun _ => rfl
    refine hclose.bind_spares fun _ => Spares.bind ?_ fun _ => ?_
    · intro y e y' hrun
      rw [Work.run_change] at hrun
      split at hrun
      · cases hrun
      · cases hrun
        rfl
    · exact Succeeds.bind (fun _ => ⟨_, _, rfl⟩) fun _ _ => ⟨_, _, rfl⟩

end Store
end Tabulary
