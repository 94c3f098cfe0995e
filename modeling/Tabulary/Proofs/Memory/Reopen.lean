import Tabulary.Proofs.Memory.Seeding

/-!
Starting over databases that are there already.  A start makes the database that serves if it is
missing, and then provides its tables to try things on.  Main statement: all of it succeeds exactly
if there is a place for what it makes; whatever becomes of it, all tables keep their rows
(`run_reopen`).
-/

namespace Tabulary
namespace Memory

open Files

variable {site : Site} {standard text : String} {seeds : Bool} {m m' : Memory} {name : String}
  {T : Tables}

/-! ## Commands on the database that serves -/

/-- Work on all databases goes as work on the tables of one of them, but may fail in another way. -/
def Follows (name : String) (x : Attempt Fault Memory Unit) (y : Attempt Fault Tables Unit) :
    Prop :=
  ∀ m T, m.lookup name = some T →
    ∃ r, x.run m = (r, Keyed.set name (y.run T).2 m) ∧ (r = .ok () ↔ (y.run T).1 = .ok ())

theorem Follows.bind {x x' : Attempt Fault Memory Unit} {y y' : Attempt Fault Tables Unit}
    (h : Follows name x y) (h' : Follows name x' y') :
    Follows name (x >>= fun _ => x') (y >>= fun _ => y') := by
  intro m T hm
  obtain ⟨r, hx, hiff⟩ := h m T hm
  rcases hy : y.run T with ⟨e | _, T₁⟩
  · rw [hy] at hx hiff
    cases r with
    | ok _ => exact absurd (hiff.mp rfl) nofun
    | error e' =>
      rw [Attempt.run_bind_of_error hx, Attempt.run_bind_of_error hy]
      exact ⟨_, rfl, iff_of_false nofun nofun⟩
  · rw [hy] at hx hiff
    obtain rfl : r = .ok () := hiff.mpr rfl
    have hm₁ : (Keyed.set name T₁ m).lookup name = some T₁ := by
      rw [Keyed.lookup_set, if_pos (beq_self_eq_true name)]
    obtain ⟨r', hx', hiff'⟩ := h' _ T₁ hm₁
    rw [Attempt.run_bind_of_ok hx, Attempt.run_bind_of_ok hy, hx', Keyed.set_set]
    exact ⟨r', rfl, hiff'⟩

theorem follows_forM {α β : Type} {f : α → Attempt Fault Memory Unit}
    {g : β → Attempt Fault Tables Unit}
    {l : List α} {l' : List β} (h : List.Forall₂ (fun a b => Follows name (f a) (g b)) l l') :
    Follows name (l.forM f) (l'.forM g) := by
  induction h with
  | nil =>
    intro m T hm
    have hrun : (List.forM [] g).run T = (.ok (), T) := rfl
    rw [hrun, Keyed.set_of_lookup hm]
    exact ⟨_, rfl, Iff.rfl⟩
  | cons hab _ ih => exact hab.bind ih

/-- A failed command never comes to a success. -/
theorem report_error (f : Fault) : (∃ e, Tables.report (.error f) = .error e) ∨
    ∃ r, Tables.report (.error f) = .ok r ∧ r.succeeded = false := by
  by_cases hengine : ∃ e, f = .engine e
  · obtain ⟨e, rfl⟩ := hengine
    exact Or.inr ⟨_, rfl, rfl⟩
  · rw [Database.report_of_ne fun e heq => hengine ⟨e, heq⟩]
    split
    · exact Or.inr ⟨_, rfl, rfl⟩
    · exact Or.inl ⟨f, rfl⟩

theorem run_seedCommand {c : Command} (hc : Command.ofText text = .ok c)
    (hm : m.lookup standard = some T) : (seedCommand site standard text).run m =
      ((Tables.report ((Tables.run site standard c).run T).1).bind fun r =>
          if r.succeeded then .ok () else .error (.seeding text r.message),
        Keyed.set standard ((Tables.run site standard c).run T).2 m) := by
  have hexecute : (Tables.execute site standard text).run T =
      (Tables.report ((Tables.run site standard c).run T).1,
        ((Tables.run site standard c).run T).2) := by
    unfold Tables.execute
    rw [hc]
    rfl
  have hserved : (execute site standard text none).run m =
      (Tables.report ((Tables.run site standard c).run T).1,
        Keyed.set standard ((Tables.run site standard c).run T).2 m) := by
    have hserving : Engine.serving standard none = standard := rfl
    unfold execute
    rw [Attempt.run_bind_of_ok (Attempt.run_get _), hserving, hm, Option.isSome_some, if_pos rfl,
      Registry.run_memory_on hm, hexecute]
  unfold seedCommand
  rw [Attempt.run_bind, hserved]
  cases Tables.report ((Tables.run site standard c).run T).1 with
  | error e => rfl
  | ok r =>
    dsimp only [Except.bind]
    cases r.succeeded <;> rfl

/-- A command that must not fail goes as the command. -/
theorem follows_seedCommand {c : Command} (hc : Command.ofText text = .ok c)
    (hr : Attempt.Returns (·.succeeded = true) (Tables.run site standard c)) :
    Follows standard (seedCommand site standard text)
    (do let _ ← Tables.run site standard c) := by
  intro m T hm
  rw [run_seedCommand hc hm, Attempt.snd_run_andReturn]
  refine ⟨_, rfl, ?_⟩
  rw [Attempt.run_bind]
  rcases hrun : (Tables.run site standard c).run T with ⟨f | r, T'⟩
  · refine iff_of_false ?_ nofun
    rcases report_error f with ⟨e, hreport⟩ | ⟨r, hreport, hfailed⟩
    · rw [hreport]
      exact nofun
    · rw [hreport]
      simp [Except.bind, hfailed]
  · refine iff_of_true ?_ rfl
    simp [Tables.report, Except.bind, hr T r T' hrun]

theorem returns_create {table : String} {columns : List Column} :
    Attempt.Returns (·.succeeded = true) (Tables.create site standard table columns true) := by
  refine Attempt.Returns.bind fun tables => ?_
  split
  · exact Attempt.returns_pure rfl
  · exact Attempt.Returns.bind fun _ => Attempt.Returns.bind fun _ => Attempt.returns_pure rfl

theorem returns_insert {table : String} {literals : List Literal} :
    Attempt.Returns (·.succeeded = true) (Tables.insert table literals) := by
  refine Attempt.Returns.bind fun t => ?_
  split
  · exact Attempt.returns_throw _
  · exact Attempt.Returns.bind fun _ => Attempt.Returns.bind fun _ => Attempt.Returns.bind fun _ =>
      Attempt.Returns.bind fun _ => Attempt.returns_pure rfl

theorem follows_find {table : String} {f : Table → Attempt Fault Memory Unit}
    {g : Table → Attempt Fault Tables Unit} (h : ∀ t, Follows name (f t) (g t)) :
    Follows name (on name (Tables.find table) >>= f) (Tables.find table >>= g) := by
  intro m T hm
  have hon := Registry.run_memory_on hm (Tables.find table)
  cases ht : T.lookup table with
  | none =>
    rw [Database.run_find_none ht] at hon
    rw [Attempt.run_bind_of_error hon, Attempt.run_bind_of_error (Database.run_find_none ht)]
    exact ⟨_, rfl, iff_of_false nofun nofun⟩
  | some t =>
    rw [Database.run_find ht, Keyed.set_of_lookup hm] at hon
    rw [Attempt.run_bind_of_ok hon, Attempt.run_bind_of_ok (Database.run_find ht)]
    exact h t m T hm

theorem follows_seedDemo (site : Site) (standard : String) :
    Follows standard (seedDemo site standard) (Tables.seed site standard) := by
  have htables : Follows standard (Engine.demoTables.forM (seedCommand site standard))
      (demoSchemas.forM fun s => do
        let _ ← Tables.create site standard s.name s.columns true) := by
    refine follows_forM (ofText_demoTables.imp fun text s hc => ?_)
    exact follows_seedCommand (c := .createTable s.name s.columns true) hc returns_create
  have hrows : Follows standard (Engine.demoRows.forM (seedCommand site standard))
      (demoRows.forM fun p => do let _ ← Tables.insert p.1 p.2) := by
    refine follows_forM (ofText_demoRows.imp fun text p hc => ?_)
    exact follows_seedCommand (c := .insert p.1 p.2) hc returns_insert
  refine htables.bind (follows_find fun users => ?_)
  split
  · exact hrows
  · intro m T hm
    rw [Attempt.run_pure, Attempt.run_pure, Keyed.set_of_lookup hm]
    exact ⟨_, rfl, Iff.rfl⟩

theorem run_seedDemo (site : Site) (hn : Plain (Name.sanitize standard))
    (hm : m.lookup standard = some T) :
    ∃ r T', (seedDemo site standard).run m = (r, Keyed.set standard T' m) ∧ T.Extends T' ∧
      (r = .ok () ↔ T.Seedable) := by
  obtain ⟨r', T', hseed, hkept, hiff⟩ := Tables.run_seed site hn T
  obtain ⟨r, hrun, hsame⟩ := follows_seedDemo site standard m T hm
  rw [hseed] at hrun hsame
  exact ⟨r, T', hrun, hkept, hsame.trans hiff⟩

/-! ## Starting again -/

/-- What has to be so for a start over databases to succeed: there is a place for the database that
serves, and, if tables are seeded, its tables can be. -/
structure Reopens (standard : String) (seeds : Bool) (m : Memory) : Prop where
  place : Name.HasPlace (Keyed.keys m) standard
  tables : seeds = true → ((m.lookup standard).getD []).Seedable

theorem Reopens.perm (h : m'.Perm m) (hd : (Keyed.keys m).Nodup) (hm : Reopens standard seeds m') :
    Reopens standard seeds m where
  place := by
    have hkeys {name : String} : name ∈ Keyed.keys m ↔ name ∈ Keyed.keys m' :=
      (h.map Prod.fst).mem_iff.symm
    simpa only [Name.HasPlace, hkeys] using hm.place
  tables hseeds := by
    rw [Keyed.lookup_perm h.symm hd]
    exact hm.tables hseeds

theorem run_createDatabase_of_storable (hstorable : Name.isStorable (Name.sanitize name) = true)
    (hpermit : site.permit [Name.sanitize name] = .ok ()) (hm : m.lookup name = none) :
    (createDatabase site name).run m =
      if m.any fun d => Name.sanitize d.1 = Name.sanitize name then
        (.error (.engine (.databaseExists name)), m)
      else (.ok (site.home name), m ++ [(name, [])]) := by
  unfold createDatabase
  rw [Attempt.run_bind_of_ok (Attempt.run_get _)]
  simp only [hm, hstorable, Option.isSome_none, Bool.not_true, Bool.false_eq_true, if_false]
  split
  · rfl
  · simp only [hpermit]
    rfl

/-- The database that serves is there afterwards if its name has a place, and otherwise nothing is
made. -/
theorem run_provide (hstorable : Name.isStorable (Name.sanitize standard) = true)
    (hpermit : site.permit [Name.sanitize standard] = .ok ()) (m : Memory) :
    (Name.HasPlace (Keyed.keys m) standard ∧ ∃ m',
      (provide site standard).run m = (.ok (), m') ∧
      m.Extends m' ∧ m'.lookup standard = some ((m.lookup standard).getD [])) ∨
    (¬Name.HasPlace (Keyed.keys m) standard ∧ ∃ e,
      (provide site standard).run m = (.error e, m)) := by
  unfold provide
  rw [Attempt.run_bind_of_ok (Attempt.run_get _)]
  cases hm : m.lookup standard with
  | some T => exact Or.inl ⟨Or.inl (Keyed.mem_keys_of_lookup hm), m, rfl, .refl m, hm⟩
  | none =>
    have hrun := run_createDatabase_of_storable hstorable hpermit hm
    split at hrun
    · rename_i hany
      refine Or.inr ⟨?_, _, Attempt.run_bind_of_error hrun⟩
      obtain ⟨d, hd, heq⟩ := List.any_eq_true.mp hany
      rintro (hmem | hfree)
      · exact Keyed.not_mem_keys_of_lookup hm hmem
      · exact hfree d.1 (List.mem_map_of_mem hd) (of_decide_eq_true heq)
    · rename_i hany
      refine Or.inl ⟨Or.inr fun other hother heq => ?_, _, Attempt.run_bind_of_ok hrun,
        extends_append m _, ?_⟩
      · obtain ⟨d, hd, rfl⟩ := List.mem_map.mp hother
        exact hany (List.any_eq_true.mpr ⟨d, hd, decide_eq_true heq⟩)
      · rw [List.lookup_append, hm]
        simp

/-- A start over databases succeeds exactly if there is a place for what it makes, and then the one
that serves is among them.  In any case all tables keep their rows. -/
theorem run_reopen (hstorable : Name.isStorable (Name.sanitize standard) = true)
    (hpermit : site.permit [Name.sanitize standard] = .ok ()) (seeds : Bool) (m : Memory) :
    ∃ r m', (reopen site standard seeds).run m = (r, m') ∧ m.Extends m' ∧
      (r = .ok () ↔ Reopens standard seeds m) ∧
      (r = .ok () → standard ∈ Keyed.keys m') := by
  have hn : Plain (Name.sanitize standard) :=
    Registry.plain_of_permit (Registry.ne_up_of_storable hstorable) hpermit
  unfold reopen
  rcases run_provide hstorable hpermit m with ⟨hplace, m₁, hrun, hkept, hm₁⟩ |
    ⟨hplace, e, hrun⟩
  · rw [Attempt.run_bind_of_ok hrun]
    cases seeds with
    | false =>
      exact ⟨_, m₁, rfl, hkept, iff_of_true rfl ⟨hplace, nofun⟩,
        fun _ => Keyed.mem_keys_of_lookup hm₁⟩
    | true =>
      obtain ⟨r, T', hseed, hkept', hiff⟩ := run_seedDemo site hn hm₁
      refine ⟨r, _, hseed, hkept.trans (extends_set hm₁ hkept'), ?_, fun _ => ?_⟩
      · exact hiff.trans ⟨fun h => ⟨hplace, fun _ => h⟩, fun h => h.tables rfl⟩
      · rw [Keyed.keys_set_of_mem (Keyed.mem_keys_of_lookup hm₁)]
        exact Keyed.mem_keys_of_lookup hm₁
  · rw [Attempt.run_bind_of_error hrun]
    exact ⟨_, m, rfl, .refl m, iff_of_false nofun fun h => hplace h.place, nofun⟩

/-- A name under which a first start has made a database can stand for a directory. -/
theorem storable_of_start (h : ((start site standard seeds).run []).1 = .ok ()) :
    Name.isStorable (Name.sanitize standard) = true ∧
    site.permit [Name.sanitize standard] = .ok () := by
  unfold start createDatabase at h
  cases hstorable : Name.isStorable (Name.sanitize standard) with
  | false =>
    simp [Attempt.run_bind, hstorable] at h
  | true =>
    refine ⟨rfl, ?_⟩
    cases hpermit : site.permit [Name.sanitize standard] with
    | ok _ => rfl
    | error e => simp [Attempt.run_bind, hstorable, hpermit] at h

end Memory
end Tabulary
