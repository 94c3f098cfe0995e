import Tabulary.Proofs.Engine.Restart
import Tabulary.Proofs.Memory.Reopen

/-!
Starting an engine again whatever has become of its databases.  Main statement: a start after a stop
succeeds exactly if there is a place for the database that serves and, with seeding, for the tables
and rows to try things on; and whether it succeeds or not, every table keeps its rows
(`restart_reopens`).  Operations can take these places, and then the engine does not start again.
-/

namespace Tabulary
namespace Engine

open Files

/-- The databases that are open are these: their tables have these schemas, and scans of them give
these rows. -/
def Serves (x : Engine × World) (m : Memory) : Prop :=
  Keyed.Match (fun _ d T => Keyed.Match (fun _ st t =>
      st.schema = t.schema ∧ (Store.selectAll.run (st, x.2)).1 = .ok t.rows) d.tables T)
    x.1.registry.databases m

variable {site : Memory.Site} {root dataDir : Path} {standard : String} {started seeds : Bool}
  {e : Engine} {w : World} {m : Memory} {x : Engine × World} {σ : Type}

theorem Serves.unique {m' : Memory} (h : Serves x m) (h' : Serves x m') : m = m' := by
  refine Relator.RightUnique.forall₂ ?_ h h'
  rintro ⟨name, d⟩ ⟨_, T⟩ ⟨_, T'⟩ ⟨rfl, hT⟩ ⟨rfl, hT'⟩
  refine Prod.ext rfl (Relator.RightUnique.forall₂ ?_ hT hT')
  rintro ⟨table, st⟩ ⟨_, schema, rows⟩ ⟨_, schema', rows'⟩ ⟨rfl, hschema, hrows⟩
    ⟨rfl, hschema', hrows'⟩
  obtain rfl : schema = schema' := hschema.symm.trans hschema'
  obtain rfl : rows = rows' := Except.ok.inj (hrows.symm.trans hrows')
  rfl

theorem At.serves (h : At site root standard started x m) : Serves x m := by
  refine h.registry.databases.mono fun name d T _ hd => hd.2.tables.mono fun table st t _ hst => ?_
  obtain ⟨handle, records, ho, hrows⟩ := hst.opened
  exact ⟨hst.schema_eq, hrows ▸ ho.selectAll_ends.result_eq⟩

/-- What a start comes to over the files of some databases. -/
theorem At.run_start_again {w' : World} (h : At site root standard started x m)
    (hfiles : w'.files = x.2.files) (hstorable : Name.isStorable (Name.sanitize standard) = true)
    (hpermit : site.permit [Name.sanitize standard] = .ok ()) (seeds : Bool) :
    ∃ r z m', start.run (⟨standard, seeds, false, ⟨site.directory, []⟩, []⟩, w') =
      (r, z) ∧
      Serves z m' ∧
      m.Extends m' ∧ (r = .ok () ↔ Memory.Reopens standard seeds m) ∧
      (r = .ok () → z.1.started = true ∧ standard ∈ Keyed.keys z.1.registry.databases) := by
  have hshows : Registry.Shows site root w'.files x.1.registry m := by
    rw [hfiles]
    exact h.registry
  have hd : (Keyed.keys m).Nodup := h.registry.apart.keys
  obtain ⟨m₁, hperm, hresult, started', hat, hstarted⟩ := run_start_over
    (e := ⟨standard, seeds, false, ⟨site.directory, []⟩, []⟩) rfl rfl hshows
  have hd₁ : (Keyed.keys m₁).Nodup := (hperm.map Prod.fst).nodup_iff.mpr hd
  obtain ⟨r, m₂, hreopen, hkept, hiff, hkeys⟩ :=
    Memory.run_reopen hstorable hpermit seeds m₁
  rw [hreopen] at hresult hat
  refine ⟨r, _, m₂, Prod.ext hresult rfl, hat.serves,
    (Memory.extends_of_perm hperm hd).trans hkept, ?_, ?_⟩
  · exact hiff.trans ⟨.perm hperm hd, .perm hperm.symm hd₁⟩
  · intro hr
    exact ⟨hat.started.trans (hstarted (hresult.trans hr)), hat.registry.databases.keys_eq ▸
      hkeys hr⟩

/-- Whatever was asked of an engine over an empty directory, it can be stopped, and then it is as a
new one over the files.  It can be started again exactly if there is a place for what the start
makes, and then the database that serves is there.  In any case every table that there was keeps its
rows. -/
theorem restart_reopens (y : σ) {w₀ : World} {e₀ : Engine} {x₁ x₂ : Engine × World}
    {ops : List Operation} {answers : Except Fault (List (Except Fault Answer))}
    (hs : w.files.Sane) (hb : w.files.Bare dataDir)
    (hmake : (make dataDir standard seeds : Work σ Engine).run (y, w) = (.ok e₀, (y, w₀)))
    (hstart : start.run (e₀, w₀) = (.ok (), x₁))
    (hops : (Operation.runAll ops).run x₁ = (answers, x₂)) :
    ∃ m e w₂, Serves x₂ m ∧ stop.run x₂ = (.ok (), (e, w₂)) ∧
      (make dataDir standard seeds : Work σ Engine).run (y, w₂) = (.ok e, (y, w₂)) ∧
      ∃ r z m', start.run (e, w₂) = (r, z) ∧
        (r = .ok () ↔ Memory.Reopens standard seeds m) ∧
        (r = .ok () → z.1.started = true ∧ standard ∈ Keyed.keys z.1.registry.databases) ∧
        Serves z m' ∧ m.Extends m' := by
  obtain ⟨e', w', root, hmake', hseeds, hat⟩ := run_make hs hb standard seeds y
  rw [hmake'] at hmake
  cases hmake
  obtain ⟨hresult, hstarted⟩ := hat.run_start
  have hkept := seeds_start (w := w₀) hat.started
  rw [hstart] at hresult hstarted hkept
  rw [hseeds] at hresult hstarted hkept
  obtain ⟨hstorable, hpermit⟩ := Memory.storable_of_start hresult.symm
  have hend := (Operation.simulates_runAll ops x₁ _ (hstarted rfl)).2
  have hlast := (keepsSeeds_runAll ops x₁).trans hkept
  rw [hops] at hend hlast
  obtain ⟨w₂, hstop, hfiles⟩ := hend.run_stop
  obtain ⟨r, z, m', hagain, hserves, hextends, hiff, hok⟩ :=
    hend.run_start_again hfiles hstorable hpermit seeds
  have hrooted : Rooted w₂.files dataDir root := by
    rw [hfiles]
    exact hend.registry.rooted
  have hseeds₂ : x₂.1.seeds = seeds := hlast
  rw [hseeds₂] at hstop
  exact ⟨_, _, w₂, hend.serves, hstop, run_make_again hrooted standard seeds y, r,
    z, m', hagain, hiff, hok, hserves, hextends⟩

/-! ## What is left to a start -/

/-- The default database with these users and orders. -/
def demo (users orders : Rows) : Memory :=
  [("default", [("users", ⟨Memory.demoUsers, users⟩),
    ("orders", ⟨Memory.demoOrders, orders⟩)])]

theorem run_start_demo : (Memory.start ⟨"/", ["data"]⟩ "default" true).run [] =
    (.ok (), demo [Memory.john, Memory.jane] [Memory.laptop]) := by
  have hseed : (Memory.Tables.seed ⟨"/", ["data"]⟩ "default").run [] =
      (.ok (), [("users", ⟨Memory.demoUsers, [Memory.john, Memory.jane]⟩),
        ("orders", ⟨Memory.demoOrders, [Memory.laptop]⟩)]) := by
    decide
  obtain ⟨r, hrun, hiff⟩ := Memory.follows_seedDemo ⟨"/", ["data"]⟩ "default"
    [("default", [])] [] rfl
  rw [hseed] at hrun hiff
  obtain rfl : r = .ok () := hiff.mpr rfl
  have hcreate : (Memory.createDatabase ⟨"/", ["data"]⟩ "default").run [] =
      (.ok ["data", "default"], [("default", [])]) := by
    decide
  unfold Memory.start
  rw [Attempt.run_bind_of_ok hcreate, if_pos rfl, hrun]
  rfl

/-- An engine with seeding that has been made over an empty directory and started, and what is left
after some operations. -/
theorem exists_started (ops : List Operation) : ∃ e₀ w₀ x₁ answers x₂ root,
    (make ["data"] "default" true : Work Unit Engine).run ((), World.empty "/") =
    (.ok e₀, ((), w₀)) ∧
      start.run (e₀, w₀) = (.ok (), x₁) ∧ (Operation.runAll ops).run x₁ =
      (answers, x₂) ∧ x₂.1.seeds = true ∧ At ⟨"/", ["data"]⟩ root "default" true x₂
        ((Operation.replay ⟨"/", ["data"]⟩ "default" ops).run
          (demo [Memory.john, Memory.jane] [Memory.laptop])).2 := by
  have hs : (World.empty "/").files.Sane := sane_empty "/"
  have hb : (World.empty "/").files.Bare ["data"] := bare_empty "/" (by decide)
  obtain ⟨e₀, w₀, root, hmake, hseeds, hat⟩ := run_make hs hb "default" true ()
  have hat₀ : At ⟨"/", ["data"]⟩ root "default" false (e₀, w₀) [] := hat
  obtain ⟨hresult, hstarted⟩ := hat₀.run_start
  rw [hseeds, run_start_demo] at hresult hstarted
  have hkept := seeds_start (w := w₀) hat₀.started
  rcases hstart : start.run (e₀, w₀) with ⟨r, x₁⟩
  rw [hstart] at hresult hstarted hkept
  obtain rfl : r = .ok () := hresult
  have hend := (Operation.simulates_runAll ops x₁ _ (hstarted rfl)).2
  have hlast := (keepsSeeds_runAll ops x₁).trans (hkept.trans hseeds)
  exact ⟨e₀, w₀, x₁, _, _, root, hmake, hstart, rfl, hlast, hend⟩

/-- All users are deleted, and the order of one of them stays. -/
def emptied : List Operation :=
  [.execute "DELETE FROM users WHERE id = 1" none, .execute "DELETE FROM users WHERE id = 2" none]

/-- The default database is dropped, and another one gets a table of the name of one to try things
on. -/
def cleared : List Operation :=
  [.dropDatabase "default", .createDatabase "shop",
    .execute "CREATE TABLE orders (id INT, item STRING UNIQUE)" (some "shop"),
    .execute "INSERT INTO orders VALUES (7, 'Desk')" (some "shop")]

theorem restart_reopens_cleared : ∃ e₀ w₀ x₁ x₂ answers,
    (make ["data"] "default" true : Work Unit Engine).run ((), World.empty "/") =
    (.ok e₀, ((), w₀)) ∧
      start.run (e₀, w₀) = (.ok (), x₁) ∧ (Operation.runAll cleared).run x₁ =
      (answers, x₂) ∧
      ∃ m e w₂ z m', Serves x₂ m ∧ stop.run x₂ = (.ok (), (e, w₂)) ∧
      start.run (e, w₂) = (.ok (), z) ∧
        z.1.started = true ∧ "default" ∈ Keyed.keys z.1.registry.databases ∧ Serves z m' ∧
        m.Extends m' := by
  have hs : (World.empty "/").files.Sane := sane_empty "/"
  have hb : (World.empty "/").files.Bare ["data"] := bare_empty "/" (by decide)
  obtain ⟨e₀, w₀, x₁, answers, x₂, root, hmake, hstart, hops, -, hat⟩ :=
    exists_started cleared
  obtain ⟨m, e, w₂, hserves, hstop, -, r, z, m', hagain, hiff, hok, hserves', hkept⟩ :=
    restart_reopens () hs hb hmake hstart hops
  have hkeys : Keyed.keys m = ["shop"] := by
    rw [hserves.unique hat.serves]
    decide +kernel
  have hfree : m.lookup "default" = none := Keyed.lookup_eq_none _ _ (by rw [hkeys]; decide)
  have hreopens : Memory.Reopens "default" true m := by
    refine ⟨?_, fun _ => ?_⟩
    · rw [hkeys]
      decide
    · rw [hfree]
      exact Memory.Tables.seedable_nil
  have hr : r = .ok () := hiff.mpr hreopens
  obtain ⟨hstarted, hdefault⟩ := hok hr
  rw [hr] at hagain
  exact ⟨e₀, w₀, x₁, x₂, answers, hmake, hstart, hops, m, e, w₂, z, m', hserves,
    hstop, hagain, hstarted, hdefault, hserves', hkept⟩

/-- The users are missing, so they are inserted, and then the order that is still there. -/
theorem restart_refused : ∃ e₀ w₀ x₁ x₂ answers e w₂ z,
    (make ["data"] "default" true : Work Unit Engine).run ((), World.empty "/") =
      (.ok e₀, ((), w₀)) ∧
      start.run (e₀, w₀) = (.ok (), x₁) ∧ (Operation.runAll emptied).run x₁ =
      (answers, x₂) ∧ stop.run x₂ = (.ok (), (e, w₂)) ∧ start.run (e, w₂) =
        (.error (.seeding "INSERT INTO orders VALUES (101, 1, 'Laptop')"
          "Duplicate primary key: 101"), z) := by
  obtain ⟨e₀, w₀, x₁, answers, x₂, root, hmake, hstart, hops, hseeds, hat⟩ :=
    exists_started emptied
  have hleft : ((Operation.replay ⟨"/", ["data"]⟩ "default" emptied).run
      (demo [Memory.john, Memory.jane] [Memory.laptop])).2 = demo [] [Memory.laptop] := by
    decide +kernel
  rw [hleft] at hat
  obtain ⟨w₂, hstop, hfiles⟩ := hat.run_stop
  have hshows : Registry.Shows ⟨"/", ["data"]⟩ root w₂.files x₂.1.registry
      (demo [] [Memory.laptop]) := by
    rw [hfiles]
    exact hat.registry
  obtain ⟨m, hperm, hresult, -⟩ := run_start_over
    (e := ⟨"default", true, false, ⟨["data"], []⟩, []⟩) rfl rfl hshows
  dsimp only at hresult
  obtain rfl : m = demo [] [Memory.laptop] := List.perm_singleton.mp hperm
  have hreopen : ((Memory.reopen ⟨"/", ["data"]⟩ "default" true).run
      (demo [] [Memory.laptop])).1 = .error (.seeding "INSERT INTO orders VALUES (101, 1, 'Laptop')"
        "Duplicate primary key: 101") := by
    decide +kernel
  rw [hreopen] at hresult
  rw [hseeds] at hstop
  exact ⟨e₀, w₀, x₁, x₂, answers, _, w₂, _, hmake, hstart, hops, hstop,
    Attempt.run_of_fst hresult⟩

end Engine
end Tabulary
