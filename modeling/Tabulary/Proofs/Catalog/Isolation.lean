import Tabulary.Proofs.Catalog.Unchanged

/-!
What commands leave to others.  A command writes to the files of the tables that it names, and to
the manifest if there is to be a table more or less.  Each of these files is one that no other table
has, so all other tables keep their rows and their indexes (`At.beside_execute`).
-/

namespace Tabulary

open Files

/-- The tables that a command names. -/
def Command.tables : Command → List String
  | .createTable table _ _ => [table]
  | .dropTable table _ => [table]
  | .insert table _ => [table]
  | .select table _ => [table]
  | .join left right _ => [left, right]
  | .update table _ _ => [table]
  | .delete table _ => [table]

/-- The tables that the command of a text names. -/
def Command.tablesOf (text : String) : List String :=
  match ofText text with
  | .ok c => c.tables
  | .error _ => []

theorem Tables.lookup_detached (ts : Tables) (table : String) :
    ts.detached.lookup table = (ts.lookup table).map Store.detached := by
  induction ts with
  | nil => rfl
  | cons t ts ih =>
    obtain ⟨other, st⟩ := t
    show ((other, st.detached) :: detached ts).lookup table = _
    rw [Keyed.lookup_cons_eq, Keyed.lookup_cons_eq, ih]
    split <;> rfl

namespace Database

/-- Where a command on some tables may write: where the manifest is, and to files that no other
table has. -/
def Reach (ts : Tables) (place : Path) (tables : List String) (q : Path) : Prop :=
  Saving place q ∨ ∃ table ∈ tables, q = place ++ [Name.tableFile table] ∧
    ∀ other ∈ Keyed.keys ts, other ∉ tables → Name.tableFile other ≠ Name.tableFile table

/-- The second database came from the first one, with its files, by work on some tables. -/
structure Beside (place : Path) (tables : List String) (x y : Database × World) : Prop where
  directory : y.1.directory = x.1.directory
  others : ∀ other ∉ tables, y.1.tables.detached.lookup other = x.1.tables.detached.lookup other
  edit : Edit (Reach x.1.tables place tables) x.2.files y.2.files

variable {place : Path} {start : Files} {name table text : String} {tables : List String}
  {d d' : Database}
  {m : Memory.Tables} {w w' w'' : World} {site : Memory.Site} {t : Memory.Table} {α : Type}
  {x y : Database × World}

theorem Reach.within {ts : Tables} {q : Path} (h : Reach ts place tables q) : place <+: q := by
  rcases h with h | ⟨table, -, rfl, -⟩
  · exact h.within
  · exact List.prefix_append _ _

theorem not_reach {ts : Tables} {other : String} (hother : other ∈ Keyed.keys ts)
    (hnot : other ∉ tables) : ¬Reach ts place tables (place ++ [Name.tableFile other]) := by
  rintro (h | ⟨table, -, heq, hapart⟩)
  · exact not_saving_tableFile place other h
  · exact hapart other hother hnot (child_inj.mp heq)

namespace Beside

theorem of_held (hs : x.2.files.Sane) (h : held y = held x) : Beside place tables x y where
  directory := congrArg (·.1.directory) h
  others other _ := congrArg (·.1.tables.lookup other) h
  edit := by
    have hfiles : y.2.files = x.2.files := congrArg Prod.snd h
    rw [hfiles]
    exact Edit.refl hs

/-- What is recorded of the work beside the files is not looked at. -/
theorem congr (h : Beside place tables x (d', w')) (hf : w''.files = w'.files) :
    Beside place tables x (d', w'') where
  directory := h.directory
  others := h.others
  edit := by
    show Edit _ x.2.files w''.files
    rw [hf]
    exact h.edit

end Beside

theorem At.beside_self (h : At site place start name (d, w) m) :
    Beside place tables (d, w) (d, w) :=
  .of_held h.sane rfl

/-! ## Rows -/

theorem At.file_ne (h : At site place start name (d, w) m) (ht : table ∈ Keyed.keys m) :
    ∀ other ∈ Keyed.keys d.tables, other ∉ [table] →
    Name.tableFile other ≠ Name.tableFile table := by
  intro other hother hne
  rw [h.shows.tables.keys_eq] at hother
  exact h.shows.apart.file_ne hother ht fun heq => hne (List.mem_singleton.mpr heq)

/-- Another store stands for a table, and its file may have changed. -/
theorem At.beside_set (h : At site place start name (d, w) m) (ht : table ∈ Keyed.keys m)
    (st : Store) (hedit : Edit (· = place ++ [Name.tableFile table]) w.files w'.files) :
    Beside place [table] (d, w) ({ d with tables := Keyed.set table st d.tables }, w') where
  directory := rfl
  others other hother := by
    have hne : (other == table) = false := by simpa using hother
    rw [Tables.lookup_detached, Tables.lookup_detached, Keyed.lookup_set, hne]
    rfl
  edit := hedit.mono fun _ hq => Or.inr ⟨table, List.mem_singleton_self table, hq, h.file_ne ht⟩

/-- An operation on the rows of a table. -/
theorem At.beside_onTable (h : At site place start name (d, w) m) (ht : m.lookup table = some t)
    {x : Work Store α} {f : Rows → Except Fault (α × Rows)}
    (hx : ∀ {st h w records},
      Store.Opened t.schema (site.home name ++ [Name.tableFile table]) st h w.files records →
      Store.Ends t.schema (site.home name ++ [Name.tableFile table]) w.files records (x.run (st, w))
        (f (Record.liveRows records))) :
    Beside place [table] (d, w) ((onTable table x).run (d, w)).2 := by
  obtain ⟨st, hst, hshows⟩ := h.tablesAt.exists_shows ht
  obtain ⟨handle, records, ho, -⟩ := hshows.opened
  have hends := hx ho
  have hrun := Database.run_onTables (Tables.run_on hst x (w := w))
  have hkey := Keyed.mem_keys_of_lookup ht
  unfold onTable
  rw [hrun]
  generalize x.run (st, w) = ending at hends
  generalize f (Record.liveRows records) = expected at hends
  cases hends with
  | error ho' hfiles =>
    refine h.beside_set hkey _ ?_
    rw [hfiles]
    exact Edit.refl h.sane
  | ok ho' hrewrites =>
    exact h.beside_set hkey _ (hrewrites.edit h.sane h.shows.rooted hshows.plain).1

/-! ## Commands -/

/-- Whatever holds of a state holds after work that starts with looking for a table, if it holds
after what is done with the table. -/
theorem At.after_schemaOf (h : At site place start name (d, w) m) {P : Database × World → Prop}
    (hP : P (d, w)) {f : Schema → Work Database α}
    (hf : ∀ t, m.lookup table = some t → P ((f t.schema).run (d, w)).2) :
    P ((schemaOf table >>= f).run (d, w)).2 := by
  cases ht : m.lookup table with
  | none =>
    rw [Attempt.run_bind_of_error (h.run_schemaOf_none ht)]
    exact hP
  | some t =>
    rw [Attempt.run_bind_of_ok (h.run_schemaOf ht)]
    exact hf t ht

theorem after_ofExcept {β : Type} {P : Database × World → Prop} (hP : P x) (r : Except Fault β)
    {f : β → Work Database α} (hf : ∀ b, r = .ok b → P ((f b).run x).2) :
    P ((Attempt.ofExcept r >>= f).run x).2 := by
  cases r with
  | error e => exact hP
  | ok b => exact hf b rfl

theorem At.beside_insert (h : At site place start name (d, w) m) (table : String)
    (literals : List Literal) :
    Beside place [table] (d, w) ((Database.insert table literals).run (d, w)).2 := by
  unfold Database.insert
  refine h.after_schemaOf h.beside_self fun t ht => ?_
  split
  · exact h.beside_self
  · refine after_ofExcept h.beside_self _ fun values _ =>
      after_ofExcept h.beside_self _ fun row _ => ?_
    rw [Attempt.snd_run_andReturn]
    exact h.beside_onTable ht
      (f := fun rows => (rows.insert t.schema row >>= row.recorded t.schema).map
        fun rows => ((), rows))
      fun ho => ho.insert_ends row

theorem At.beside_update (h : At site place start name (d, w) m) (table : String)
    (assignments : List (String × Literal)) (key : Comparison) :
    Beside place [table] (d, w) ((Database.update table assignments key).run (d, w)).2 := by
  unfold Database.update
  refine h.after_schemaOf h.beside_self fun t ht => ?_
  refine after_ofExcept h.beside_self _ fun found _ =>
    after_ofExcept h.beside_self _ fun changes _ => ?_
  rw [Attempt.snd_run_andReturn]
  exact h.beside_onTable ht
    (f := fun rows => rows.updateValues t.schema found.2 changes >>=
      fun x => x.1.recorded t.schema x)
    fun ho => ho.updateValues_ends found.2 changes

theorem At.beside_delete (h : At site place start name (d, w) m) (table : String)
    (key : Comparison) :
    Beside place [table] (d, w) ((Database.delete table key).run (d, w)).2 := by
  unfold Database.delete
  refine h.after_schemaOf h.beside_self fun t ht => after_ofExcept h.beside_self _ fun found _ => ?_
  rw [Attempt.snd_run_andReturn]
  exact h.beside_onTable ht (f := fun rows => (rows.delete found.2).map fun rows => ((), rows))
    fun ho => ho.delete_ends found.2

/-- A place that is used when a table comes or goes is one that work on the table may reach. -/
theorem Defining.reach {ts : Tables} {q : Path} (h : Defining place table q)
    (hapart : ∀ other ∈ Keyed.keys ts, other ∉ [table] →
      Name.tableFile other ≠ Name.tableFile table) :
    Reach ts place [table] q := by
  rcases h with hq | hq
  · exact Or.inr ⟨table, List.mem_singleton_self table, hq, hapart⟩
  · exact Or.inl hq

theorem At.beside_create (h : At site place start name (d, w) m) (table : String)
    (columns : List Column) (ifNotExists : Bool) :
    Beside place [table] (d, w) ((Database.create table columns ifNotExists).run (d, w)).2 := by
  unfold Database.create
  rw [Attempt.run_bind_of_ok (Work.run_state _)]
  dsimp only
  split
  · exact h.beside_self
  · refine after_ofExcept h.beside_self _ fun schema hbuild => ?_
    have hschema : Schema.build table columns = .ok schema := by
      cases hresult : Schema.build table columns with
      | error e =>
        rw [hresult] at hbuild
        cases hbuild
      | ok s =>
        rw [hresult] at hbuild
        cases hbuild
        rfl
    obtain rfl : schema.name = table := (Schema.build_eq_ok hschema).1
    have hcreate := h.createTable_of (R := fun z _ => Beside place [schema.name] (d, w) z)
      (Manifest.Table.toSchema_ofSchema hschema) fun hnew st w' _ hedit => {
        directory := rfl
        others := fun other hother => by
          have hne : (other == schema.name) = false := by simpa using hother
          rw [Tables.lookup_detached, Tables.lookup_detached, Keyed.lookup_set, hne]
          rfl
        edit := hedit.mono fun q hq => hq.reach fun other hother _ heq => by
          rw [h.shows.tables.keys_eq] at hother
          exact hnew other hother (Name.tableFile_inj.mp heq) }
    unfold define
    rw [Attempt.snd_run_andReturn]
    exact hcreate.left h.beside_self fun _ _ hbeside => hbeside

theorem At.beside_remove (h : At site place start name (d, w) m) (table : String)
    (ifExists : Bool) :
    Beside place [table] (d, w) ((Database.remove table ifExists).run (d, w)).2 := by
  unfold Database.remove
  rw [Attempt.run_bind_of_ok (Work.run_state _)]
  dsimp only
  split
  · exact h.beside_self
  · have hdrop := h.dropTable_of (R := fun z _ => Beside place [table] (d, w) z)
      fun (hkey : table ∈ Keyed.keys m) w' _ hedit => {
        directory := rfl
        others := fun other hother => by
          have hne : (other == table) = false := by simpa using hother
          rw [Tables.lookup_detached, Tables.lookup_detached, Keyed.lookup_erase, hne]
          rfl
        edit := hedit.mono fun q hq => hq.reach (h.file_ne hkey) }
    unfold define
    rw [Attempt.snd_run_andReturn]
    exact hdrop.left h.beside_self fun _ _ hbeside => hbeside

theorem At.beside_run (h : At site place start name (d, w) m) (c : Command) :
    Beside place c.tables (d, w) ((run c).run (d, w)).2 := by
  cases c with
  | createTable table columns ifNotExists => exact h.beside_create table columns ifNotExists
  | dropTable table ifExists => exact h.beside_remove table ifExists
  | insert table values => exact h.beside_insert table values
  | select table where? => exact .of_held h.sane (keeps_select table where? (d, w))
  | join left right on => exact .of_held h.sane (keeps_join left right on (d, w))
  | update table assignments key => exact h.beside_update table assignments key
  | delete table key => exact h.beside_delete table key

/-- The text of a command reaches no other tables than those that the command names, and a text that
is no command reaches none. -/
theorem At.beside_execute (h : At site place start name (d, w) m) (text : String) :
    Beside place (Command.tablesOf text) (d, w) ((execute text).run (d, w)).2 := by
  have h' : At site place start name (d, { w with database := some d.name }) m := h.congr rfl
  unfold Command.tablesOf
  cases hc : Command.ofText text with
  | error e =>
    obtain ⟨w', hrun, hfiles⟩ :=
      run_execute (run_runText_of_error hc (d, { w with database := some d.name }))
    rw [hrun]
    exact h.beside_self.congr hfiles
  | ok c =>
    obtain ⟨w', hrun, hfiles⟩ :=
      run_execute (run_runText_of_ok hc (d, { w with database := some d.name }))
    have hend := h'.beside_run c
    rw [hrun]
    exact Beside.congr ⟨hend.directory, hend.others, hend.edit⟩ hfiles

end Database
end Tabulary
