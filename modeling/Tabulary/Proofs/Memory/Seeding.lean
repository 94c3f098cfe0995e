import Tabulary.Proofs.Catalog.Registry
import Tabulary.Proofs.Memory.Names
import Tabulary.Proofs.Store.Validation

/-!
The tables to try things on, seen in the tables of one database.  Tables are made where there is a
place for them, and then rows are inserted if there are no users.  Main statement: when all of this
succeeds; and whatever becomes of it, the tables that there were keep their rows (`run_seed`).
-/

namespace Tabulary

open Files

/-- A name is among some, or none of them stands for its file. -/
def Name.HasPlace (names : List String) (name : String) : Prop :=
  name ∈ names ∨ ∀ other ∈ names, sanitize other ≠ sanitize name

instance (names : List String) (name : String) : Decidable (Name.HasPlace names name) := by
  unfold Name.HasPlace
  infer_instance

namespace Memory

/-! ## What is kept -/

/-- Every table is still there, with its schema and with its rows before any others. -/
def Tables.Extends (T T' : Tables) : Prop :=
  ∀ table t, T.lookup table = some t →
    ∃ t', T'.lookup table = some t' ∧ t'.schema = t.schema ∧ t.rows <+: t'.rows

/-- Every database is still there, with every table. -/
def Extends (m m' : Memory) : Prop :=
  ∀ name T, m.lookup name = some T → ∃ T', m'.lookup name = some T' ∧ T.Extends T'

namespace Tables

variable {T T' T'' : Tables} {table : String} {t : Table}

theorem Extends.refl (T : Tables) : T.Extends T :=
  fun _ t ht => ⟨t, ht, rfl, List.prefix_refl _⟩

theorem Extends.trans (h : T.Extends T') (h' : T'.Extends T'') : T.Extends T'' := by
  intro table t ht
  obtain ⟨t', ht', hschema, hrows⟩ := h table t ht
  obtain ⟨t'', ht'', hschema', hrows'⟩ := h' table t' ht'
  exact ⟨t'', ht'', hschema'.trans hschema, hrows.trans hrows'⟩

theorem extends_append (T T' : Tables) : T.Extends (T ++ T') := by
  intro table t ht
  exact ⟨t, by rw [List.lookup_append, ht]; rfl, rfl, List.prefix_refl _⟩

theorem extends_set {rows : Rows} (ht : T.lookup table = some t) (hrows : t.rows <+: rows) :
    T.Extends (Keyed.set table { t with rows } T) := by
  intro other t' ht'
  rw [Keyed.lookup_set]
  by_cases heq : other = table
  · subst heq
    obtain rfl : t = t' := Option.some.inj (ht.symm.trans ht')
    exact ⟨_, if_pos (beq_self_eq_true _), rfl, hrows⟩
  · exact ⟨t', by rw [if_neg (by simpa using heq), ht'], rfl, List.prefix_refl _⟩

end Tables

variable {site : Site} {standard text : String} {m m' m'' : Memory} {name : String} {T T' : Tables}

theorem Extends.refl (m : Memory) : m.Extends m := fun _ T h => ⟨T, h, Tables.Extends.refl _⟩

theorem Extends.trans (h : m.Extends m') (h' : m'.Extends m'') : m.Extends m'' := by
  intro name T hm
  obtain ⟨T', hm', hkept⟩ := h name T hm
  obtain ⟨T'', hm'', hkept'⟩ := h' name T' hm'
  exact ⟨T'', hm'', hkept.trans hkept'⟩

theorem extends_append (m m' : Memory) : m.Extends (m ++ m') := by
  intro name T hm
  exact ⟨T, by rw [List.lookup_append, hm]; rfl, Tables.Extends.refl _⟩

theorem extends_set (hm : m.lookup name = some T) (h : T.Extends T') :
    m.Extends (Keyed.set name T' m) := by
  intro other found hfound
  rw [Keyed.lookup_set]
  by_cases heq : other = name
  · subst heq
    obtain rfl : T = found := Option.some.inj (hm.symm.trans hfound)
    exact ⟨_, if_pos (beq_self_eq_true _), h⟩
  · exact ⟨found, by rw [if_neg (by simpa using heq), hfound], Tables.Extends.refl _⟩

theorem extends_of_perm (h : m'.Perm m) (hd : (Keyed.keys m).Nodup) : m.Extends m' := by
  intro name T hm
  rw [Keyed.lookup_perm h.symm hd] at hm
  exact ⟨T, hm, .refl T⟩

/-! ## Insertions -/

namespace Table

variable {t : Table} {table : String} {literals : List Literal} {rows : Rows}

/-- The rows of a table after an insertion of literals. -/
def insertion (table : String) (t : Table) (literals : List Literal) : Except Fault Rows := do
  if literals.length ≠ t.schema.columns.length then
    throw (.engine (.command (.valueCount t.schema.columns.length table literals.length)))
  let values ← Database.convertAll t.schema.columns literals
  let row ← (Row.ofValues values).mapError Fault.engine
  t.rows.insert t.schema row >>= row.recorded t.schema

theorem prefix_of_append {s : Schema} {r : Row} {rows rows' : Rows}
    (h : rows.append s r = .ok rows') : rows <+: rows' := by
  obtain ⟨u, -, hrest⟩ := Attempt.of_bind_ok h
  cases hrest
  exact List.prefix_append _ _

theorem prefix_of_insert {s : Schema} {r : Row} {rows rows' : Rows}
    (h : rows.insert s r = .ok rows') : rows <+: rows' := by
  obtain ⟨u, -, hadd⟩ := Attempt.of_bind_ok h
  unfold Rows.add at hadd
  split at hadd
  · cases hadd
  · exact prefix_of_append hadd

/-- An insertion leaves the rows that there were before the new one. -/
theorem prefix_insertion (h : t.insertion table literals = .ok rows) : t.rows <+: rows := by
  unfold insertion at h
  split at h
  · cases h
  · obtain ⟨values, -, h⟩ := Attempt.of_bind_ok h
    obtain ⟨row, -, h⟩ := Attempt.of_bind_ok h
    obtain ⟨rows', hinsert, h⟩ := Attempt.of_bind_ok h
    obtain ⟨bytes, -, hrows⟩ := Attempt.of_bind_ok h
    cases hrows
    exact prefix_of_insert hinsert

/-- An insertion of short values into a table without unique columns fails only if the key is in
use. -/
theorem insertion_eq (values : List (String × Value)) {id : Value}
    (hvalues : Database.convertAll t.schema.columns literals = .ok values)
    (hlength : literals.length = t.schema.columns.length)
    (hid : values.lookup Value.keyColumn = some id)
    (hfits : Row.Fits t.schema ⟨id, values, false⟩) (hshort : Row.Short ⟨id, values, false⟩)
    (hunique : t.schema.uniqueColumns = []) :
    t.insertion table literals =
      if (t.rows.find id).isSome then .error (.engine (.duplicateKey id))
      else .ok (t.rows ++ [Row.stored t.schema ⟨id, values, false⟩ false]) := by
  have hrow : Row.ofValues values = .ok ⟨id, values, false⟩ := by
    unfold Row.ofValues
    rw [hid]
  have hfree : t.rows.taken? t.schema ⟨id, values, false⟩ = none := by
    unfold Rows.taken?
    rw [hunique]
    rfl
  have hinsert : t.rows.insert t.schema ⟨id, values, false⟩ =
      if (t.rows.find id).isSome then .error (.engine (.duplicateKey id))
      else .ok (t.rows ++ [Row.stored t.schema ⟨id, values, false⟩ false]) := by
    have hraised : Fault.raised (.duplicateKey id) = .engine (.duplicateKey id) :=
      Fault.raised_of_writable hfits.writable.id
    unfold Rows.insert Rows.add Rows.append
    rw [Row.fits_iff_fault?.mp hfits, hfree]
    dsimp only
    rw [hraised]
    rfl
  obtain ⟨tail, hencode, -⟩ := Record.exists_encode hfits hshort
  unfold insertion Row.recorded
  rw [if_neg (not_not_intro hlength), hvalues]
  simp only [bind, Except.bind, hrow, Except.mapError, hinsert, hencode]
  split
  · rename_i herror
    rw [herror]
  · rename_i hok
    rw [hok]
    rfl

end Table

namespace Tables

variable {database table : String} {t : Table}

theorem run_insert (ht : T.lookup table = some t) (literals : List Literal) :
    (insert table literals).run T =
      match t.insertion table literals with
      | .ok rows => (.ok (.done "OK: 1 row inserted" 1), Keyed.set table { t with rows } T)
      | .error e => (.error e, T) := by
  unfold insert Table.insertion
  rw [Attempt.run_bind_of_ok (Database.run_find ht)]
  dsimp only
  split
  · rfl
  · cases Database.convertAll t.schema.columns literals with
    | error e => rfl
    | ok values =>
      show (Attempt.ofExcept ((Row.ofValues values).mapError Fault.engine) >>= _).run T = _
      cases hrow : (Row.ofValues values).mapError Fault.engine with
      | error e =>
        simp only [bind, Except.bind, hrow]
        rfl
      | ok row =>
        show (Attempt.ofExcept (t.rows.insert t.schema row >>= row.recorded t.schema) >>= _).run T =
          _
        cases hrows : t.rows.insert t.schema row >>= row.recorded t.schema with
        | error e =>
          simp only [bind, Except.bind, hrow] at hrows ⊢
          rw [hrows]
          rfl
        | ok rows =>
          simp only [bind, Except.bind, hrow] at hrows ⊢
          rw [hrows]
          rfl

/-- Literals that can be inserted one after another, each into the table of its name. -/
def Takes : Tables → List (String × List Literal) → Prop
  | _, [] => True
  | T, (table, literals) :: rest =>
    ∃ t rows, T.lookup table = some t ∧ t.insertion table literals = .ok rows ∧
      Takes (Keyed.set table { t with rows } T) rest

theorem takes_cons {literals : List Literal} {rest : List (String × List Literal)} {rows : Rows}
    (ht : T.lookup table = some t) (hrows : t.insertion table literals = .ok rows) :
    T.Takes ((table, literals) :: rest) ↔ Takes (Keyed.set table { t with rows } T) rest := by
  constructor
  · rintro ⟨t', rows', ht', hrows', htakes⟩
    obtain rfl : t = t' := Option.some.inj (ht.symm.trans ht')
    obtain rfl : rows = rows' := Except.ok.inj (hrows.symm.trans hrows')
    exact htakes
  · exact fun htakes => ⟨t, rows, ht, hrows, htakes⟩

theorem not_takes_cons {literals : List Literal} {rest : List (String × List Literal)} {e : Fault}
    (ht : T.lookup table = some t) (hrows : t.insertion table literals = .error e) :
    ¬T.Takes ((table, literals) :: rest) := by
  rintro ⟨t', rows, ht', hrows', -⟩
  obtain rfl : t = t' := Option.some.inj (ht.symm.trans ht')
  rw [hrows] at hrows'
  cases hrows'

theorem run_forM_insert (l : List (String × List Literal)) (T : Tables) :
    ∃ r T', (l.forM fun p => do let _ ← insert p.1 p.2).run T = (r, T') ∧ T.Extends T' ∧
      (r = .ok () ↔ T.Takes l) := by
  induction l generalizing T with
  | nil => exact ⟨_, T, rfl, .refl T, iff_of_true rfl trivial⟩
  | cons p l ih =>
    obtain ⟨table, literals⟩ := p
    cases ht : T.lookup table with
    | none =>
      have hrun : (insert table literals).run T = (.error (.engine (.noTable table)), T) :=
        Attempt.run_bind_of_error (Database.run_find_none ht)
      refine ⟨_, T, Attempt.run_bind_of_error (Attempt.run_bind_of_error hrun), .refl T,
        iff_of_false nofun ?_⟩
      rintro ⟨t, rows, ht', -⟩
      rw [ht] at ht'
      cases ht'
    | some t =>
      have hrun := run_insert ht literals
      cases hrows : t.insertion table literals with
      | error e =>
        rw [hrows] at hrun
        exact ⟨_, T, Attempt.run_bind_of_error (Attempt.run_bind_of_error hrun), .refl T,
          iff_of_false nofun (not_takes_cons ht hrows)⟩
      | ok rows =>
        rw [hrows] at hrun
        obtain ⟨r, T', hrest, hkept, hiff⟩ := ih (Keyed.set table { t with rows } T)
        exact ⟨r, T', (Attempt.run_bind_of_ok (Attempt.run_bind_of_ok hrun)).trans hrest,
          (extends_set ht (Table.prefix_insertion hrows)).trans hkept,
          hiff.trans (takes_cons ht hrows).symm⟩

/-! ## Tables that are provided -/

/-- The tables with one of a schema, which goes behind the others if there is none of its name. -/
def offer (T : Tables) (s : Schema) : Tables :=
  if s.name ∈ Keyed.keys T then T else T ++ [(s.name, ⟨s, []⟩)]

theorem extends_offer (T : Tables) (s : Schema) : T.Extends (T.offer s) := by
  unfold offer
  split
  · exact .refl T
  · exact extends_append T _

theorem extends_offers (schemas : List Schema) (T : Tables) :
    T.Extends (schemas.foldl offer T) := by
  induction schemas generalizing T with
  | nil => exact .refl T
  | cons s schemas ih => exact (extends_offer T s).trans (ih (T.offer s))

theorem hasPlace_offer {s : Schema} (hne : Name.sanitize s.name ≠ Name.sanitize table) :
    Name.HasPlace (Keyed.keys (T.offer s)) table ↔ Name.HasPlace (Keyed.keys T) table := by
  have hname : table ≠ s.name := fun heq => hne (heq ▸ rfl)
  unfold offer
  split
  · rfl
  · simp only [Name.HasPlace, Keyed.keys, List.map_append, List.map_cons, List.map_nil,
      List.mem_append, List.mem_singleton, hname, or_false, or_imp, forall_and, forall_eq, hne,
      ne_eq, not_false_eq_true, and_true]

/-- A schema that can be made from its columns, of a name that can stand for a file. -/
structure Storable (s : Schema) : Prop where
  build : Schema.build s.name s.columns = .ok s
  storable : Name.isStorable (Name.sanitize s.name) = true
  plain : Plain (Name.tableFile s.name)

theorem permit_of_plain {front name : String} (hfront : Plain front) (hn : Plain name) :
    site.permit [front, name] = .ok () := by
  have hpermits : site.Permits [front] name := Site.permits (by simpa using hfront) hn.down
  cases hpermits with
  | hidden nul result => exact absurd nul (by simp [hn.visible])
  | long visible long result => exact absurd hn.short (Nat.not_le.mpr long)
  | plain plain result => exact result

theorem run_createTable (site : Site) {s : Schema} (hs : Storable s)
    (hn : Plain (Name.sanitize database))
    (ht : T.lookup s.name = none) : (createTable site database s).run T =
      match T.find? fun t => Name.sanitize t.1 = Name.sanitize s.name with
      | some other => (.error (.engine (.schema (.fileCollision s.name other.1))), T)
      | none => (.ok (), T ++ [(s.name, ⟨s, []⟩)]) := by
  unfold createTable
  rw [Attempt.run_bind_of_ok (Attempt.run_get _)]
  simp only [ht, hs.storable, Option.isSome_none, Bool.not_true, Bool.false_eq_true, if_false]
  cases T.find? fun t => Name.sanitize t.1 = Name.sanitize s.name with
  | some other => rfl
  | none =>
    simp only [permit_of_plain hn hs.plain]
    rfl

/-- A table is provided if its name has a place, and otherwise nothing is made. -/
theorem run_create (site : Site) {s : Schema} (hs : Storable s)
    (hn : Plain (Name.sanitize database)) (T : Tables) :
    (Name.HasPlace (Keyed.keys T) s.name ∧
      ∃ r, (create site database s.name s.columns true).run T = (.ok r, T.offer s)) ∨
    (¬Name.HasPlace (Keyed.keys T) s.name ∧
      ∃ e, (create site database s.name s.columns true).run T = (.error e, T)) := by
  unfold create
  rw [Attempt.run_bind_of_ok (Attempt.run_get _)]
  cases ht : T.lookup s.name with
  | some t =>
    have hmem : s.name ∈ Keyed.keys T := Keyed.mem_keys_of_lookup ht
    rw [offer, if_pos hmem]
    exact Or.inl ⟨Or.inl hmem, _, rfl⟩
  | none =>
    have hmem : s.name ∉ Keyed.keys T := Keyed.not_mem_keys_of_lookup ht
    have hrun := run_createTable site hs hn ht
    rw [offer, if_neg hmem, hs.build]
    cases hfind : T.find? fun t => Name.sanitize t.1 = Name.sanitize s.name with
    | some other =>
      rw [hfind] at hrun
      refine Or.inr ⟨?_, _, (Attempt.run_bind_of_ok rfl).trans (Attempt.run_bind_of_error hrun)⟩
      rintro (hmem' | hfree)
      · exact hmem hmem'
      · refine hfree other.1 (List.mem_map_of_mem (List.mem_of_find?_eq_some hfind)) ?_
        simpa using List.find?_some hfind
    | none =>
      rw [hfind] at hrun
      exact Or.inl ⟨Or.inr (Database.ne_of_find?_none hfind), _,
        (Attempt.run_bind_of_ok rfl).trans (Attempt.run_bind_of_ok hrun)⟩

theorem run_forM_create (site : Site) (hn : Plain (Name.sanitize database)) {schemas : List Schema}
    (hs : ∀ s ∈ schemas, Storable s)
    (hapart : (schemas.map fun s => Name.sanitize s.name).Nodup)
    (T : Tables) : ∃ r T', (schemas.forM fun s => do
        let _ ← create site database s.name s.columns true).run T = (r, T') ∧ T.Extends T' ∧
      (r = .ok () ↔ ∀ s ∈ schemas, Name.HasPlace (Keyed.keys T) s.name) ∧
      (r = .ok () → T' = schemas.foldl offer T) := by
  induction schemas generalizing T with
  | nil => exact ⟨_, T, rfl, .refl T, iff_of_true rfl nofun, fun _ => rfl⟩
  | cons s schemas ih =>
    rw [List.forall_mem_cons]
    obtain ⟨hnew, hapart⟩ := List.nodup_cons.mp hapart
    rcases run_create site (hs s List.mem_cons_self) hn T with ⟨hplace, a, hrun⟩ |
      ⟨hplace, e, hrun⟩
    · obtain ⟨r, T', hrest, hkept, hiff, hend⟩ :=
        ih (fun s' hs' => hs s' (List.mem_cons_of_mem s hs')) hapart (T.offer s)
      refine ⟨r, T', (Attempt.run_bind_of_ok (Attempt.run_bind_of_ok hrun)).trans hrest,
        (extends_offer T s).trans hkept, ?_, hend⟩
      rw [hiff, and_iff_right hplace]
      refine forall₂_congr fun s' hs' => hasPlace_offer fun heq => hnew ?_
      exact List.mem_map.mpr ⟨s', hs', heq.symm⟩
    · exact ⟨_, T, Attempt.run_bind_of_error (Attempt.run_bind_of_error hrun), .refl T,
        iff_of_false nofun fun h => hplace h.1, nofun⟩

end Tables

/-! ## Tables to try things on -/

def demoUsers : Schema where
  name := "users"
  columns := [⟨"id", .integer, true, false⟩, ⟨"username", .text, false, false⟩,
    ⟨"age", .integer, false, false⟩]
  sound := by decide

def demoOrders : Schema where
  name := "orders"
  columns := [⟨"id", .integer, true, false⟩, ⟨"user_id", .integer, false, false⟩,
    ⟨"item", .text, false, false⟩]
  sound := by decide

/-- The schemas of the tables that a start provides, in the order in which they are made. -/
def demoSchemas : List Schema := [demoUsers, demoOrders]

/-- The rows that a start inserts. -/
def john : Row := ⟨.int 1, [("id", .int 1), ("username", .text "John Doe"), ("age", .int 25)],
    false⟩

def jane : Row := ⟨.int 2, [("id", .int 2), ("username", .text "Jane Smith"), ("age", .int 30)],
    false⟩

def laptop : Row := ⟨.int 101, [("id", .int 101), ("user_id", .int 1), ("item", .text "Laptop")],
    false⟩

/-- The literals of these rows, by table, in the order of their insertion. -/
def demoRows : List (String × List Literal) :=
  [("users", [⟨"1", false⟩, ⟨"John Doe", true⟩, ⟨"25", false⟩]),
    ("users", [⟨"2", false⟩, ⟨"Jane Smith", true⟩, ⟨"30", false⟩]),
    ("orders", [⟨"101", false⟩, ⟨"1", false⟩, ⟨"Laptop", true⟩])]

theorem ofText_demoTables : List.Forall₂
    (fun text (s : Schema) => Command.ofText text = .ok (.createTable s.name s.columns true))
    Engine.demoTables demoSchemas :=
  .cons (by decide +kernel) (.cons (by decide +kernel) .nil)

theorem ofText_demoRows : List.Forall₂
    (fun text (p : String × List Literal) => Command.ofText text = .ok (.insert p.1 p.2))
    Engine.demoRows demoRows :=
  .cons (by decide +kernel) (.cons (by decide +kernel) (.cons (by decide +kernel) .nil))

theorem storable_demoSchemas : ∀ s ∈ demoSchemas, Tables.Storable s := by
  have hbuild : ∀ s ∈ demoSchemas, Schema.build s.name s.columns = .ok s := by decide
  have hstorable : ∀ s ∈ demoSchemas, Name.isStorable (Name.sanitize s.name) = true := by decide
  have hplain : ∀ s ∈ demoSchemas, Plain (Name.tableFile s.name) := by decide
  exact fun s hs => ⟨hbuild s hs, hstorable s hs, hplain s hs⟩

namespace Tables

/-- The tables to try things on are provided, and filled if there are no users. -/
def seed (site : Site) (database : String) : Attempt Fault Tables Unit := do
  demoSchemas.forM fun s => do let _ ← create site database s.name s.columns true
  let users ← find "users"
  if users.rows.length = 0 then demoRows.forM fun p => do let _ ← insert p.1 p.2

/-- There is a place for each of the tables to try things on, and they take the rows if there are no
users. -/
structure Seedable (T : Tables) : Prop where
  places : ∀ s ∈ demoSchemas, Name.HasPlace (Keyed.keys T) s.name
  rows : ∀ users, (demoSchemas.foldl offer T).lookup "users" = some users → users.rows = [] →
    (demoSchemas.foldl offer T).Takes demoRows

theorem mem_keys_offer (T : Tables) (s : Schema) : s.name ∈ Keyed.keys (T.offer s) := by
  unfold offer
  split
  · assumption
  · simp [Keyed.keys]

theorem Extends.mem_keys (h : T.Extends T') {table : String} (hmem : table ∈ Keyed.keys T) :
    table ∈ Keyed.keys T' := by
  obtain ⟨t, ht⟩ := Keyed.exists_lookup hmem
  obtain ⟨t', ht', -⟩ := h table t ht
  exact Keyed.mem_keys_of_lookup ht'

theorem mem_keys_offers {s : Schema} {schemas : List Schema} (T : Tables) (hs : s ∈ schemas) :
    s.name ∈ Keyed.keys (schemas.foldl offer T) := by
  induction schemas generalizing T with
  | nil => cases hs
  | cons s' schemas ih =>
    rcases List.mem_cons.mp hs with rfl | hs
    · exact (extends_offers schemas (T.offer s)).mem_keys (mem_keys_offer T s)
    · exact ih (T.offer s') hs

theorem run_seed (site : Site) (hn : Plain (Name.sanitize database)) (T : Tables) :
    ∃ r T', (seed site database).run T = (r, T') ∧ T.Extends T' ∧
    (r = .ok () ↔ T.Seedable) := by
  obtain ⟨r, T₁, hcreate, hkept, hiff, hend⟩ :=
    run_forM_create site hn storable_demoSchemas (by decide) T
  cases r with
  | error e =>
    refine ⟨_, T₁, Attempt.run_bind_of_error hcreate, hkept, iff_of_false nofun fun h => ?_⟩
    exact nomatch hiff.mpr h.places
  | ok _ =>
    obtain rfl := hend rfl
    have husers : "users" ∈ Keyed.keys (demoSchemas.foldl offer T) :=
      mem_keys_offers (s := demoUsers) T List.mem_cons_self
    obtain ⟨users, husers⟩ := Keyed.exists_lookup husers
    unfold seed
    rw [Attempt.run_bind_of_ok hcreate, Attempt.run_bind_of_ok (Database.run_find husers)]
    by_cases hempty : users.rows.length = 0
    · rw [if_pos hempty]
      obtain ⟨r, T', hinsert, hkept', htakes⟩ :=
        run_forM_insert demoRows (demoSchemas.foldl offer T)
      refine ⟨r, T', hinsert, hkept.trans hkept',
        htakes.trans ⟨fun h => ⟨hiff.mp rfl, fun _ _ _ => h⟩, ?_⟩⟩
      exact fun h => h.rows users husers (List.length_eq_zero_iff.mp hempty)
    · rw [if_neg hempty]
      refine ⟨_, _, rfl, hkept, iff_of_true rfl
        ⟨hiff.mp rfl, fun users' husers' hnil => ?_⟩⟩
      obtain rfl : users = users' := Option.some.inj (husers.symm.trans husers')
      exact absurd (congrArg List.length hnil) hempty

/-- Where the tables have the schemas that they are made with, the rows can only fail to go in
because the key of the order is in use. -/
theorem takes_demoRows {users orders : Table} (husers : T.lookup "users" = some users)
    (horders : T.lookup "orders" = some orders) (hs : users.schema = demoUsers)
    (ho : orders.schema = demoOrders) (hempty : users.rows = []) :
    T.Takes demoRows ↔ orders.rows.find (.int 101) = none := by
  obtain ⟨_, _⟩ := users
  obtain ⟨_, rows⟩ := orders
  obtain rfl := hs
  obtain rfl := ho
  obtain rfl := hempty
  have hfirst : (Table.mk demoUsers []).insertion "users"
      [⟨"1", false⟩, ⟨"John Doe", true⟩, ⟨"25", false⟩] = .ok [john] :=
    Table.insertion_eq john.values rfl rfl rfl (by decide) (by decide) rfl
  have hsecond : (Table.mk demoUsers [john]).insertion "users"
      [⟨"2", false⟩, ⟨"Jane Smith", true⟩, ⟨"30", false⟩] = .ok [john, jane] :=
    Table.insertion_eq jane.values rfl rfl rfl (by decide) (by decide) rfl
  have hthird : (Table.mk demoOrders rows).insertion "orders"
      [⟨"101", false⟩, ⟨"1", false⟩, ⟨"Laptop", true⟩] =
      if (rows.find (.int 101)).isSome then .error (.engine (.duplicateKey (.int 101)))
      else .ok (rows ++ [laptop]) :=
    Table.insertion_eq laptop.values rfl rfl rfl (show laptop.Fits demoOrders by decide)
      (by decide) rfl
  have horders₂ (t₁ t₂ : Table) :
      (Keyed.set "users" t₂ (Keyed.set "users" t₁ T)).lookup "orders" =
      some ⟨demoOrders, rows⟩ := by
    rw [Keyed.set_set, Keyed.lookup_set, if_neg (by decide), horders]
  have husers₁ (t₁ : Table) : (Keyed.set "users" t₁ T).lookup "users" = some t₁ := by
    rw [Keyed.lookup_set, if_pos (by decide)]
  unfold demoRows
  rw [takes_cons husers hfirst, takes_cons (husers₁ _) hsecond]
  cases hfind : rows.find (.int 101) with
  | some r =>
    rw [hfind] at hthird
    exact iff_of_false (not_takes_cons (horders₂ _ _) hthird) nofun
  | none =>
    rw [hfind] at hthird
    rw [takes_cons (horders₂ _ _) hthird]
    exact iff_of_true trivial rfl

theorem offer_of_mem {s : Schema} (h : s.name ∈ Keyed.keys T) : T.offer s = T := if_pos h

/-- With both tables there as they are made, seeding succeeds exactly if there are users left or the
key of the order is free. -/
theorem seedable_iff {users orders : Table} (husers : T.lookup "users" = some users)
    (horders : T.lookup "orders" = some orders) (hs : users.schema = demoUsers)
    (ho : orders.schema = demoOrders) :
    T.Seedable ↔ users.rows ≠ [] ∨ orders.rows.find (.int 101) = none := by
  have hmem : "users" ∈ Keyed.keys T := Keyed.mem_keys_of_lookup husers
  have hmem' : "orders" ∈ Keyed.keys T := Keyed.mem_keys_of_lookup horders
  have hoffers : demoSchemas.foldl offer T = T := by
    show (T.offer demoUsers).offer demoOrders = T
    rw [offer_of_mem (s := demoUsers) hmem, offer_of_mem hmem']
  have htakes := takes_demoRows husers horders hs ho
  constructor
  · intro h
    refine or_iff_not_imp_left.mpr fun hempty => ?_
    have hempty : users.rows = [] := Decidable.not_not.mp hempty
    exact (htakes hempty).mp (hoffers ▸ h.rows users (hoffers.symm ▸ husers) hempty)
  · intro h
    refine ⟨fun s hmems => ?_, fun users' husers' hempty => ?_⟩
    · rcases List.mem_pair.mp hmems with rfl | rfl
      · exact Or.inl hmem
      · exact Or.inl hmem'
    · rw [hoffers] at husers' ⊢
      obtain rfl : users = users' := Option.some.inj (husers.symm.trans husers')
      exact (htakes hempty).mpr (h.resolve_left (not_not_intro hempty))

/-- A database without tables can be seeded. -/
theorem seedable_nil : Seedable [] where
  places := by decide
  rows users husers hempty := by
    obtain rfl : ⟨demoUsers, []⟩ = users := Option.some.inj husers
    exact (takes_demoRows (T := [(_, ⟨demoUsers, []⟩), (_, ⟨demoOrders, []⟩)])
      rfl rfl rfl rfl rfl).mpr rfl

end Tables

end Memory
end Tabulary
