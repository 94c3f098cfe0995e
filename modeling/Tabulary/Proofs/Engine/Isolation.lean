import Tabulary.Proofs.Catalog.Isolation
import Tabulary.Proofs.Engine.Life

/-!
What the databases of an engine leave to each other.  Main statement: whatever has come before, a
command leaves all tables that it does not name and all databases but one, and dropping a database
leaves all others, with their files (`Lived.isolated`).
-/

namespace Tabulary

open Files

namespace Registry

/-- The database of a name is as it was, and what is in its directory reads as before. -/
structure Untouched (name : String) (x y : Registry × World) : Prop where
  database : y.1.databases.lookup name = x.1.databases.lookup name
  files : ∀ d, x.1.databases.lookup name = some d → ∀ file, file ≠ ".." →
    y.2.files.read (d.directory ++ [file]) = x.2.files.read (d.directory ++ [file])

/-- Work on some tables of a database leaves its other tables, with their indexes and the bytes of
their files, and all other databases. -/
structure Leaves (name : String) (tables : List String) (x y : Registry × World) : Prop where
  databases : ∀ other, other ≠ name → Untouched other x y
  tables : ∀ d, x.1.databases.lookup name = some d → ∃ d',
    y.1.databases.lookup name = some d' ∧
    d'.directory = d.directory ∧ ∀ table, table ∉ tables →
      d'.tables.detached.lookup table = d.tables.detached.lookup table ∧
      ∀ st, d.tables.lookup table = some st → y.2.files.read st.path = x.2.files.read st.path

variable {site : Memory.Site} {root : Path} {name other text : String} {tables : List String}
  {r r' : Registry} {m : Memory} {w w' : World} {x : Registry × World}

theorem Untouched.refl (name : String) (x : Registry × World) : Untouched name x x :=
  ⟨rfl, fun _ _ _ _ => rfl⟩

theorem Leaves.refl (name : String) (tables : List String) (x : Registry × World) :
    Leaves name tables x x :=
  ⟨fun other _ => .refl other x,
    fun d hd => ⟨d, hd, rfl, fun _ _ => ⟨rfl, fun _ _ => rfl⟩⟩⟩

/-- A change in the directory of one database is none in those of the others. -/
theorem Shows.untouched (h : Shows site root w.files r m) (hname : name ∈ Keyed.keys m)
    (he : Edit (root ++ [Name.sanitize name] <+: ·) w.files w'.files) (hne : other ≠ name)
    (hsame : r'.databases.lookup other = r.databases.lookup other) :
    Untouched other (r, w) (r', w') where
  database := hsame
  files d hd file hdown := by
    rcases h.databases.lookup other with ⟨hnone, -⟩ | ⟨d', tables, hd', hm, hhas⟩
    · cases hd.symm.trans hnone
    · obtain rfl : d' = d := Option.some.inj (hd'.symm.trans hd)
      have hapart : Name.sanitize other ≠ Name.sanitize name := fun heq =>
        hne (h.apart.eq (Keyed.mem_keys_of_lookup hm) hname heq)
      have hrooted := (h.elsewhere he hapart hhas).2.rooted
      rw [hhas.2.located]
      refine he.read_child hhas.2.rooted hrooted hdown fun hwithin => hapart ?_
      have hplace : root ++ [Name.sanitize other] <+: root ++ [Name.sanitize other] ++ [file] :=
        List.prefix_append _ _
      exact eq_of_within hplace hwithin

/-- A text that goes to a database. -/
theorem Shows.leaves_on (h : Shows site root w.files r m) (name text : String) :
    Leaves name (Command.tablesOf text) (r, w)
    ((on name (Database.execute text)).run (r, w)).2 := by
  rcases h.lookup name with ⟨hd, -⟩ | ⟨d, tables, hd, hm, hat⟩
  · have hrun : (on name (Database.execute text)).run (r, w) =
        (.error (.engine (.noDatabase name)), (r, w)) := Attempt.run_bind_of_error (run_get_none hd)
    rw [hrun]
    exact .refl name _ _
  · have hbeside := hat.beside_execute text
    have hname := Keyed.mem_keys_of_lookup hm
    have hend := (Database.simulates_execute text (d, w) tables hat).2
    rw [run_on hd]
    generalize (Database.execute text).run (d, w) = ending at hbeside hend
    obtain ⟨result, d', w'⟩ := ending
    refine ⟨fun other hne => ?_,
      fun d₀ hd₀ => ⟨d', ?_, ?_, fun table htable => ⟨?_, fun st hst => ?_⟩⟩⟩
    · refine h.untouched hname (hbeside.edit.mono fun q hq => hq.within) hne ?_
      have hkey : (other == name) = false := by simpa using hne
      dsimp only
      rw [Keyed.lookup_set, hkey]
      rfl
    · dsimp only
      rw [Keyed.lookup_set, beq_self_eq_true]
      rfl
    · obtain rfl : d = d₀ := Option.some.inj (hd.symm.trans hd₀)
      exact hbeside.directory
    · obtain rfl : d = d₀ := Option.some.inj (hd.symm.trans hd₀)
      exact hbeside.others table htable
    · obtain rfl : d = d₀ := Option.some.inj (hd.symm.trans hd₀)
      have hkey := Keyed.mem_keys_of_lookup hst
      rcases hat.shows.tables.lookup table with ⟨hnone, -⟩ | ⟨st', t, hst', -, hshows⟩
      · cases hst.symm.trans hnone
      · obtain rfl : st = st' := Option.some.inj (hst.symm.trans hst')
        rw [hshows.path_eq]
        exact hbeside.edit.read_child hat.shows.rooted hend.shows.rooted hshows.plain.down
          (Database.not_reach hkey htable)

theorem Shows.untouched_dropDatabase (h : Shows site root w.files r m) (hne : other ≠ name) :
    Untouched other (r, w) ((dropDatabase name).run (r, w)).2 := by
  rcases h.run_dropDatabase name with ⟨-, hrun⟩ | ⟨tables, w', hm, hrun, hedit, -⟩
  · rw [hrun]
    exact .refl other _
  · rw [hrun]
    refine h.untouched (Keyed.mem_keys_of_lookup hm) hedit hne ?_
    have hkey : (other == name) = false := by simpa using hne
    dsimp only
    rw [Keyed.lookup_erase, hkey]
    rfl

end Registry

namespace Engine

/-- The open databases, and the world with the files. -/
def standing (x : Engine × World) : Registry × World := (x.1.registry, x.2)

variable {site : Memory.Site} {root : Path} {standard : String} {e : Engine} {w : World}
  {m : Memory} {x : Engine × World}

theorem At.leaves_execute (h : At site root standard true (e, w) m) (text : String)
    (database? : Option String) :
    Registry.Leaves (serving standard database?) (Command.tablesOf text) (standing (e, w))
      (standing ((execute text database?).run (e, w)).2) := by
  rcases h.run_execute text database? with ⟨-, hrun⟩ | ⟨d, dispatchers, -, hrun⟩
  · rw [hrun]
    exact .refl _ _ _
  · rw [hrun, run_onRegistry]
    exact h.registry.leaves_on _ text

theorem At.untouched_dropDatabase (h : At site root standard true (e, w) m) {name other : String}
    (hne : other ≠ name) :
    Registry.Untouched other (standing (e, w)) (standing ((dropDatabase name).run (e, w)).2) := by
  have hforget : Attempt.Keeps standing (do
      let e ← Work.state
      Work.setState { e with dispatchers := Keyed.erase name e.dispatchers }) := fun _ => rfl
  have hrun : standing ((dropDatabase name).run (e, w)).2 =
      standing ((whileStarted (Registry.dropDatabase name)).run (e, w)).2 := by
    unfold dropDatabase
    rw [Attempt.run_bind]
    split
    · rename_i hdrop
      rw [hdrop]
      exact hforget _
    · rename_i hdrop
      rw [hdrop]
  rw [hrun, h.run_whileStarted, run_onRegistry]
  exact h.registry.untouched_dropDatabase hne

/-- Whatever has come before, a command leaves the tables that it does not name and all databases
but the one that it is for, and dropping a database leaves all others. -/
theorem Lived.isolated {dataDir : Path} (h : Lived dataDir x) :
    (∀ text database?,
      Registry.Leaves (serving x.1.defaultDatabase database?) (Command.tablesOf text) (standing x)
        (standing ((execute text database?).run x).2)) ∧
    ∀ name other, other ≠ name →
      Registry.Untouched other (standing x) (standing ((dropDatabase name).run x).2) := by
  obtain ⟨anchor, root, hkeeping⟩ := h.keeping
  cases hstarted : x.1.started with
  | false =>
    refine ⟨fun text database? => ?_, fun name other _ => ?_⟩
    · rw [run_execute_of_stopped hstarted]
      exact .refl _ _ _
    · have hrun : (dropDatabase name).run x = (.error .engineStopped, x) :=
        Attempt.run_bind_of_error (run_whileStarted_of_stopped hstarted _)
      rw [hrun]
      exact .refl other _
  | true =>
    obtain ⟨m, hat⟩ := hkeeping.exists_at hstarted
    exact ⟨fun text database? => hat.leaves_execute text database?,
      fun name other hne => hat.untouched_dropDatabase hne⟩

/-- Two databases with a table of the same name, and a table whose name has signs that its file has
not. -/
def neighbours : List Operation :=
  [.createDatabase "sales", .execute "CREATE TABLE users (id INT)" none,
    .execute "CREATE TABLE users (id INT)" (some "sales"),
    .execute "CREATE TABLE `../us` (id INT)" (some "sales")]

theorem isolated_neighbours : ∃ e w,
    (running ["data"] "default" neighbours).run ((), World.empty "/") = (.ok e, ((), w)) ∧
      e.registry.databases.map (fun d => (d.1, Keyed.keys d.2.tables)) =
        [("default", ["users"]), ("sales", ["users", "../us"])] ∧
      Registry.Leaves "sales" ["../us"] (standing (e, w))
        (standing ((execute "DROP TABLE `../us`" (some "sales")).run (e, w)).2) ∧
      Registry.Untouched "default" (standing (e, w))
      (standing ((dropDatabase "sales").run (e, w)).2) := by
  have hs : (World.empty "/").files.Sane := sane_empty "/"
  have hb : (World.empty "/").files.Bare ["data"] := bare_empty "/" (by decide)
  have hstart : ((Memory.start ⟨"/", ["data"]⟩ "default" false).run []).1 = .ok () := rfl
  have htables : Command.tablesOf "DROP TABLE `../us`" = ["../us"] := by decide +kernel
  obtain ⟨e, w, root, hrun, hat⟩ := exists_running () hs hb hstart neighbours
  obtain ⟨hexecute, hdrop⟩ := (lived_of_running hs hb hrun).isolated
  refine ⟨e, w, hrun, ?_, htables ▸ hexecute "DROP TABLE `../us`" (some "sales"),
    hdrop "sales" "default" (by decide)⟩
  have hkeys := hat.registry.databases.map_eq (f := fun d => (d.1, Keyed.keys d.2.tables))
    (g := fun d => (d.1, Keyed.keys d.2)) fun _ _ _ hd => Prod.ext rfl hd.2.tables.keys_eq
  exact hkeys.trans (by decide +kernel)

end Engine
end Tabulary
