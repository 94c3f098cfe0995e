import Tabulary.Proofs.Catalog.Registry
import Tabulary.Proofs.Conversion
import Tabulary.Proofs.Store.Validation

/-!
What a command can fail with.  Most failures are results: the errors of the engine and those of
storage.  Any other failure is raised, and only two things are: a literal of the command that is too
large, and a name of a table that no file can have (`Memory.raises_of_execute`).
-/

namespace Tabulary

open Literal

namespace Command

/-- The literals that a command makes values of. -/
def literals : Command → List Literal
  | insert _ values => values
  | select _ where? => (where?.map (·.value)).toList
  | update _ assignments key => key.value :: assignments.map (·.2)
  | delete _ key => [key.value]
  | createTable _ _ _ | dropTable _ _ | join _ _ _ => []

/-- What a command raises. -/
inductive Raises : Command → Fault → Prop
  | literal {c : Command} {l : Literal} {f : Fault} (mem : l ∈ c.literals)
      (oversized : l.Oversized f) : Raises c f
  | hidden {table : String} {columns : List Column} {ifNotExists : Bool}
      (nul : Files.hasNul [Name.tableFile table] = true) :
      Raises (createTable table columns ifNotExists) .nulInPath

/-- What a command fails with: an error that is reported as a result, or what it raises. -/
def FailsWith (c : Command) (f : Fault) : Prop :=
  (∃ e, f = .engine e) ∨ f.isStorageFailure = true ∨ c.Raises f

theorem failsWith_engine (c : Command) (e : EngineError) :
    c.FailsWith (.engine e) := .inl ⟨e, rfl⟩

theorem FailsWith.of_accounts {c : Command} {ls : List Literal} {f : Fault} (h : Accounts ls f)
    (hsub : ls ⊆ c.literals) : c.FailsWith f := by
  rcases h with h | ⟨l, hl, h⟩
  · exact .inl h
  · exact .inr (.inr (.literal (hsub hl) h))

end Command

namespace Memory

open Attempt

/-- The texts of all rows are short, and their integers can be shown. -/
def Tables.Recordable (m : Tables) : Prop := ∀ t ∈ m, ∀ r ∈ t.2.rows, r.Short ∧ r.Writable

namespace Tables

theorem Recordable.of_lookup {m : Tables} {table : String} {t : Table} (h : m.Recordable)
    (ht : m.lookup table = some t) : ∀ r ∈ t.rows, r.Short ∧ r.Writable := by
  obtain ⟨xs, ys, rfl, -⟩ := List.lookup_eq_some_iff.mp ht
  exact h (table, t) (by simp)

variable {site : Site} {name table : String} {P : Fault → Prop} {t : Table} {m : Tables}

theorem fails_find (hP : ∀ e, P (.engine e)) (table : String) : Fails P (find table) := by
  intro m e m' hrun
  cases ht : m.lookup table with
  | none =>
    rw [Database.run_find_none ht] at hrun
    cases hrun
    exact hP _
  | some t =>
    rw [Database.run_find ht] at hrun
    cases hrun

/-- What follows where a table has been found. -/
theorem of_run_find_bind {α : Type} (hP : ∀ e, P (.engine e))
    {f : Table → Attempt Fault Tables α}
    (hf : ∀ t, m.lookup table = some t → Fails P (f t)) {e : Fault} {m' : Tables}
    (hrun : (find table >>= f).run m = (.error e, m')) : P e := by
  cases ht : m.lookup table with
  | none =>
    rw [run_bind_of_error (Database.run_find_none ht)] at hrun
    cases hrun
    exact hP _
  | some t =>
    rw [run_bind_of_ok (Database.run_find ht)] at hrun
    exact hf t ht m e m' hrun

/-! ## Definitions -/

theorem fails_createTable (hP : ∀ e, P (.engine e)) {schema : Schema}
    (hstorage : ∀ f, f.isStorageFailure = true → P f)
    (hname : Files.hasNul [Name.sanitize name] = false)
    (hnul : Files.hasNul [Name.tableFile schema.name] = true → P .nulInPath) :
    Fails P (createTable site name schema) := by
  unfold createTable
  refine Fails.bind (Succeeds.fails fun m => ⟨m, m, rfl⟩) fun tables => ?_
  dsimp only
  split
  · exact fails_throw (hP _)
  split
  · exact fails_throw (hP _)
  split
  · exact fails_throw (hP _)
  refine fails_ofExcept_bind (fun f h => ?_) fun _ _ => Succeeds.fails fun _ => ⟨_, _, rfl⟩
  unfold Site.permit at h
  split at h
  · rename_i hhidden
    cases h
    refine hnul ?_
    have happend : [Name.sanitize name, Name.tableFile schema.name] =
        [Name.sanitize name] ++ [Name.tableFile schema.name] := rfl
    rwa [happend, Files.hasNul_append, hname, Bool.false_or] at hhidden
  · split at h
    · cases h
      exact hstorage _ rfl
    · cases h

theorem failsWith_create (hname : Files.hasNul [Name.sanitize name] = false) (columns : List Column)
    (ifNotExists : Bool) :
    Fails (Command.createTable table columns ifNotExists).FailsWith
    (create site name table columns ifNotExists) := by
  unfold create
  refine Fails.bind (Succeeds.fails fun m => ⟨m, m, rfl⟩) fun tables => ?_
  split
  · exact fails_pure _
  refine fails_ofExcept_bind (fun f h => ?_) fun schema h => ?_
  · obtain ⟨e, -, rfl⟩ := of_mapError_error h
    exact .inl ⟨e, rfl⟩
  · obtain rfl := (Schema.build_eq_ok (of_mapError_ok h)).1
    refine Fails.bind ?_ fun _ => fails_pure _
    exact fails_createTable (Command.failsWith_engine _) (fun f hf => .inr (.inl hf)) hname
      fun hnul => .inr (.inr (.hidden hnul))

theorem failsWith_drop (ifExists : Bool) :
    Fails (Command.dropTable table ifExists).FailsWith (drop table ifExists) := by
  unfold drop dropTable
  refine Fails.bind (Succeeds.fails fun m => ⟨m, m, rfl⟩) fun tables => ?_
  split
  · exact fails_pure _
  refine Fails.bind ?_ fun _ => fails_pure _
  refine Fails.bind (fails_find (Command.failsWith_engine _) table) fun _ => ?_
  exact Succeeds.fails fun _ => ⟨_, _, rfl⟩

/-! ## Rows -/

theorem writable_of_resolve {s : Schema} {x : Comparison} {found : Column × Value}
    (h : Database.resolve s x = .ok found) : found.2.writable = true :=
  (Column.convert_text_ok (Database.resolve_mem h).2).1

theorem failsWith_insert (hm : m.Recordable) (literals : List Literal) {f : Fault} {m' : Tables}
    (hrun : (insert table literals).run m = (.error f, m')) :
    (Command.insert table literals).FailsWith f := by
  refine of_run_find_bind (Command.failsWith_engine _) (fun t ht => ?_) hrun
  split
  · exact fails_throw (Command.failsWith_engine _ _)
  refine fails_ofExcept_bind (fun f h => .of_accounts (Database.accounts_convertAll h)
    (List.Subset.refl _)) fun values hvalues => ?_
  refine fails_ofExcept_bind (fun f h => ?_) fun row hrow => ?_
  · obtain ⟨e, -, rfl⟩ := of_mapError_error h
    exact Command.failsWith_engine _ e
  refine fails_ofExcept_bind (fun f h => ?_) fun rows _ => Succeeds.fails fun _ => ⟨_, _, rfl⟩
  have hcopied := Database.copied_convertAll hvalues
  rcases of_bind_error h with h | ⟨rows, hrows, h⟩
  · obtain ⟨e, rfl, hrefuses⟩ := Operation.refuses_insert h
    rw [hrefuses.raised_eq (fun x hx => (hm.of_lookup ht x hx).2) (fun id hid => nomatch hid)]
    · exact Command.failsWith_engine _ e
    · rintro _ ⟨⟩
      exact Row.writable_of_ofValues (of_mapError_ok hrow) fun p hp => (hcopied p hp).1
  · have hvalued : row.values = values := by
      have hrow' := of_mapError_ok hrow
      unfold Row.ofValues at hrow'
      split at hrow'
      · cases hrow'
        rfl
      · cases hrow'
    exact .of_accounts (Row.accounts_recorded (Rows.fits_of_insert hrows)
      (fun p hp => (hcopied p (hvalued ▸ hp)).2) h) (List.Subset.refl _)

theorem failsWith_update (hm : m.Recordable) (assignments : List (String × Literal))
    (key : Comparison) {f : Fault}
    {m' : Tables} (hrun : (update table assignments key).run m = (.error f, m')) :
    (Command.update table assignments key).FailsWith f := by
  refine of_run_find_bind (Command.failsWith_engine _) (fun t ht => ?_) hrun
  refine fails_ofExcept_bind (fun f h => .of_accounts (Database.accounts_resolve h)
    (by simp [Command.literals])) fun found hfound => ?_
  refine fails_ofExcept_bind
    (fun f h => .of_accounts (Database.accounts_changesOf h) (List.subset_cons_self _ _))
    fun changes hchanges => ?_
  refine fails_ofExcept_bind (fun f h => ?_) fun rows _ => Succeeds.fails fun _ => ⟨_, _, rfl⟩
  have hcopied := Database.copied_changesOf hchanges
  have hrows := hm.of_lookup ht
  rcases of_bind_error (of_map_error h) with h | ⟨written, hwritten, h⟩
  · obtain ⟨e, rfl, hrefuses⟩ := Operation.refuses_updateValues h
    rw [hrefuses.raised_eq fun x hx => (hrows x hx).2]
    · exact Command.failsWith_engine _ e
    · rintro _ ⟨⟩
      exact writable_of_resolve hfound
    · intro r hoffers
      cases hoffers with
      | updateValues _ mem => exact (hrows _ mem).2.changed fun p hp => (hcopied p hp).1
  · obtain ⟨x, hx, hchanged, hfits⟩ := Rows.exists_of_updateValues hwritten
    have hcopies : ∀ p ∈ written.1.values, p.2.Short ∨ ∃ l ∈ assignments.map (·.2),
        p.2 = .text l.text := by
      rw [hchanged]
      intro p hp
      rcases Table.mem_or_mem_of_overwrite hp with hp | hp
      · exact .inl ((hrows x hx).1 p hp)
      · exact (hcopied p hp).2
    exact .of_accounts (Row.accounts_recorded hfits hcopies h) (List.subset_cons_self _ _)

theorem failsWith_delete (key : Comparison) :
    Fails (Command.delete table key).FailsWith (delete table key) := by
  refine Fails.bind (fails_find (Command.failsWith_engine _) table) fun t => ?_
  refine fails_ofExcept_bind (fun f h => .of_accounts (Database.accounts_resolve h)
    (List.Subset.refl _)) fun found hfound => ?_
  refine fails_ofExcept_bind (fun f h => ?_) fun rows _ => Succeeds.fails fun _ => ⟨_, _, rfl⟩
  rcases of_bind_error h with h | ⟨x, -, h⟩
  · obtain ⟨rfl, -⟩ := Rows.get_eq_error h
    rw [show Fault.raised (.noRecord found.2) =
      _ from Fault.raised_of_writable (writable_of_resolve hfound)]
    exact Command.failsWith_engine _ _
  · cases h

/-! ## Queries -/

theorem failsWith_select (where? : Option Comparison) :
    Fails (Command.select table where?).FailsWith (select table where?) := by
  refine Fails.bind (fails_find (Command.failsWith_engine _) table) fun t => ?_
  refine fails_ofExcept_bind (fun f h => ?_) fun rows _ => fails_pure _
  cases where? with
  | none => cases h
  | some key =>
    rcases of_bind_error h with h | ⟨found, -, h⟩
    · exact .of_accounts (Database.accounts_resolve h) (List.Subset.refl _)
    · cases h

theorem failsWith_join (left right : String) (on : Pairing) :
    Fails (Command.join left right on).FailsWith (join left right on) := by
  have hengine := Command.failsWith_engine (.join left right on)
  unfold join
  split
  · exact fails_throw (hengine _)
  refine Fails.bind (fails_find hengine left) fun l =>
    Fails.bind (fails_find hengine right) fun r => ?_
  refine fails_ofExcept_bind (fun f h => ?_) fun columns _ => fails_pure _
  obtain ⟨e, -, rfl⟩ := of_mapError_error h
  exact hengine _

/-! ## Commands -/

/-- Whatever a command fails with is reported, or it is one of the failures that it raises. -/
theorem failsWith_run (hname : Files.hasNul [Name.sanitize name] = false) (hm : m.Recordable)
    {c : Command} {f : Fault}
    {m' : Tables} (hrun : (run site name c).run m = (.error f, m')) : c.FailsWith f := by
  cases c with
  | createTable table columns ifNotExists =>
    exact failsWith_create hname columns ifNotExists m f m' hrun
  | dropTable table ifExists => exact failsWith_drop ifExists m f m' hrun
  | insert table values => exact failsWith_insert hm values hrun
  | select table where? => exact failsWith_select where? m f m' hrun
  | join left right on => exact failsWith_join left right on m f m' hrun
  | update table assignments key => exact failsWith_update hm assignments key hrun
  | delete table key => exact failsWith_delete key m f m' hrun

/-- What is still a failure once it has been reported is raised. -/
theorem raises_of_report {c : Command} {r : Except Fault Result} {f : Fault}
    (hr : ∀ f, r = .error f → c.FailsWith f) (h : report r = .error f) : c.Raises f := by
  unfold report at h
  split at h
  · cases h
  · cases h
  · rename_i f' hengine
    split at h
    · cases h
    · rename_i hstorage
      cases h
      rcases hr f rfl with ⟨e, rfl⟩ | hf | hf
      · exact absurd rfl (hengine e)
      · exact absurd hf hstorage
      · exact hf

theorem fst_run_execute {text : String} {c : Command} (htext : Command.ofText text = .ok c) :
    ((execute site name text).run m).1 = report ((run site name c).run m).1 := by
  unfold execute
  rw [htext]
  rfl

theorem raises_of_execute (hname : Files.hasNul [Name.sanitize name] = false) (hm : m.Recordable)
    {text : String} {f : Fault} (hresult : ((execute site name text).run m).1 = .error f) :
    ∃ c, Command.ofText text = .ok c ∧ c.Raises f := by
  cases htext : Command.ofText text with
  | error e =>
    unfold execute at hresult
    rw [htext] at hresult
    cases hresult
  | ok c =>
    rw [fst_run_execute htext] at hresult
    exact ⟨c, rfl, raises_of_report (fun f hf => failsWith_run hname hm (run_of_fst hf))
      hresult⟩

end Tables

variable {m : Memory} {site : Site} {standard text : String} {database? : Option String}

theorem fst_run_execute {tables : Tables}
    (h : m.lookup (Engine.serving standard database?) = some tables) :
    ((execute site standard text database?).run m).1 =
      ((Tables.execute site (Engine.serving standard database?) text).run tables).1 := by
  unfold execute
  rw [run_bind_of_ok (run_get _), h, Option.isSome_some, if_pos rfl, Registry.run_memory_on h]

/-- A text that is run raises only what its command raises. -/
theorem raises_of_execute (hm : ∀ d ∈ m, Files.hasNul [Name.sanitize d.1] = false ∧
    d.2.Recordable)
    {f : Fault} (hresult : ((execute site standard text database?).run m).1 = .error f) :
    ∃ c, Command.ofText text = .ok c ∧ c.Raises f := by
  cases htables : m.lookup (Engine.serving standard database?) with
  | none =>
    unfold execute at hresult
    rw [run_bind_of_ok (run_get _), htables] at hresult
    cases hresult
  | some tables =>
    rw [fst_run_execute htables] at hresult
    obtain ⟨xs, ys, rfl, -⟩ := List.lookup_eq_some_iff.mp htables
    obtain ⟨hname, hrecordable⟩ := hm (Engine.serving standard database?, tables) (by simp)
    exact Tables.raises_of_execute hname hrecordable hresult

end Memory
end Tabulary
