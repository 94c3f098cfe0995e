import Tabulary.Proofs.Command.Reading
import Tabulary.Proofs.Engine.Life
import Tabulary.Proofs.Memory.Raising

/-!
What an engine raises when it is given a text.  Main statement: an integer column takes and refuses
texts exactly by the integers that they denote, up to a number of digits, and a text raises nothing
but a literal of its command that is too large, or a name of a new table that no file can have
(`conversion_exact_to_limit`).
-/

namespace Tabulary
namespace Engine

open Text

variable {site : Memory.Site} {root dataDir : Path} {standard : String} {x : Engine × World}
  {m : Memory}

/-- What is kept in files has names that files can have, and texts that records can hold. -/
theorem At.recordable (h : At site root standard true x m) :
    ∀ d ∈ m, Files.hasNul [Name.sanitize d.1] = false ∧ d.2.Recordable := by
  intro d hd
  obtain ⟨database, -, hplain, hshows⟩ := h.registry.databases.of_mem_right hd
  refine ⟨hplain.visible, fun t ht r hr => ?_⟩
  obtain ⟨st, -, hstore⟩ := hshows.tables.of_mem_right ht
  obtain ⟨handle, records, hopened, hrows⟩ := hstore.opened
  rw [← hrows] at hr
  obtain ⟨stored, hmem, rfl⟩ := List.mem_map.mp hr
  have hstored := List.mem_of_mem_filter hmem
  exact ⟨hopened.laid.short_of_mem hstored, (hopened.laid.fits_of_mem hstored).writable⟩

/-- An engine that is running raises what the command of a text raises. -/
theorem Lived.raises_of_execute (h : Lived dataDir x) (hstarted : x.1.started = true)
    {text : String} {database? : Option String} {f : Fault} {y : Engine × World}
    (hrun : (execute text database?).run x = (.error f, y)) :
    ∃ c, Command.ofText text = .ok c ∧ c.Raises f := by
  obtain ⟨anchor, root, hkeeping⟩ := h.keeping
  obtain ⟨m, hat⟩ := hkeeping.exists_at hstarted
  have hresult := (simulates_execute text database? x m hat).1
  rw [hrun] at hresult
  exact Memory.raises_of_execute hat.recordable hresult.symm

/-- An integer column takes a text just if it denotes an integer of 64 bits, and refuses it by its
type just if it does not, where the numeral has no more digits than are read; a longer one is a
failure of its own.  Whatever came before, a text that an engine is given raises that failure for
one of its literals, or another for a literal that is too long for a record, or one for a table that
is to be created, and nothing else. -/
theorem conversion_exact_to_limit (h : Lived dataDir x) (hstarted : x.1.started = true) {c : Column}
    (hc : c.type = .integer) :
    (∀ t v, c.convert (.text t) = .ok v ↔ ∃ ds n, Denotes t ds n ∧
        ds.length ≤ Text.maxDigits ∧
        (Value.minInt ≤ n ∧ n ≤ Value.maxInt) ∧ v = .int n) ∧
      (∀ t f, c.convert (.text t) = .error f ↔
        (∃ ds n, Denotes t ds n ∧ Text.maxDigits < ds.length ∧ f = .digitLimit ds.length) ∨
          f = .engine (.typeMismatch c.name (.text t) .integer) ∧ ∀ ds n, Denotes t ds n →
            ds.length ≤ Text.maxDigits ∧ ¬(Value.minInt ≤ n ∧ n ≤ Value.maxInt)) ∧
      ∀ text database? f y, (execute text database?).run x = (.error f, y) →
        ∃ command, Command.ofText text = .ok command ∧ command.Raises f :=
  ⟨fun _ _ => Column.convert_eq_ok_iff hc, fun _ _ => Column.convert_eq_error_iff hc,
    fun _ _ _ _ hrun => h.raises_of_execute hstarted hrun⟩

/-- The table whose rows the samples below ask for. -/
def users : List Operation := [.execute "CREATE TABLE users (id INT, name STRING)" none]

def usersSite : Memory.Site := ⟨(World.empty "/").files.anchor, ["data"]⟩

/-- What an engine keeps that was started on no files and given that table. -/
def usersKept : Memory :=
  ((Operation.replay usersSite "default" users).run
    ((Memory.start usersSite "default" false).run []).2).2

theorem exists_users : ∃ x root, Lived ["data"] x ∧
    At usersSite root "default" true x usersKept := by
  have hs : (World.empty "/").files.Sane := Files.sane_empty "/"
  have hb : (World.empty "/").files.Bare ["data"] := Files.bare_empty "/" (by decide)
  have hstart : ((Memory.start ⟨"/", ["data"]⟩ "default" false).run []).1 = .ok () := rfl
  obtain ⟨e, w, root, hrunning, hat⟩ := exists_running () hs hb hstart users
  refine ⟨(e, w), root, lived_of_running hs hb hrunning, ?_⟩
  unfold usersKept usersSite
  exact hat

/-- Digits of another script, the least integer that is too large, and a name that no file has. -/
theorem conversion_exact_to_limit_users :
    ∃ (x : Engine × World) (c : Column), Lived ["data"] x ∧
    x.1.started = true ∧ c.type = .integer ∧ c.convert (.text "\t+\u0664\u0662 ") =
    .ok (.int 42) ∧ c.convert (.text "9223372036854775808") =
      .error (.engine (.typeMismatch c.name (.text "9223372036854775808") .integer)) ∧
    ∃ y, (execute "CREATE TABLE `a\x00b` (id INT)" none).run x = (.error .nulInPath, y) ∧
      ∃ command, Command.ofText "CREATE TABLE `a\x00b` (id INT)" = .ok command ∧
      command.Raises .nulInPath := by
  obtain ⟨x, root, hlived, hat⟩ := exists_users
  have hresult := (simulates_execute "CREATE TABLE `a\x00b` (id INT)" none _ _ hat).1
  have hmemory : ((Memory.execute usersSite "default" "CREATE TABLE `a\x00b` (id INT)" none).run
      usersKept).1 = .error .nulInPath := by
    decide +kernel
  rw [hmemory] at hresult
  have hhidden := Attempt.run_of_fst hresult
  obtain ⟨htaken, hrefused, hraised⟩ :=
    conversion_exact_to_limit hlived hat.started (c := ⟨"age", .integer, false, false⟩) rfl
  refine ⟨x, ⟨"age", .integer, false, false⟩, hlived, hat.started, rfl, ?_, ?_, _, hhidden,
    hraised _ _ _ _ hhidden⟩
  · refine (htaken _ _).mpr ⟨[4, 2], 42, ?_, by decide, by decide, rfl⟩
    exact denotes_iff.mpr ⟨⟨false, [4, 2]⟩, by decide, rfl, rfl⟩
  · refine (hrefused _ _).mpr (.inr ⟨rfl, fun ds n hdenotes => ?_⟩)
    obtain ⟨m, hread, rfl, rfl⟩ := denotes_iff.mp hdenotes
    obtain rfl :
        (⟨false, [9, 2, 2, 3, 3, 7, 2, 0, 3, 6, 8, 5, 4, 7, 7, 5, 8, 0, 8]⟩ : Numeral) = m :=
      Option.some.inj ((by decide : _ = Numeral.read? _).trans hread)
    decide

/-! ## A numeral that is too long -/

/-- A numeral of ones. -/
def ones (k : Nat) : String := String.ofList (List.replicate k '1')

theorem isNumeral_ones {k : Nat} (hk : 0 < k) : IsNumeral (ones k) := by
  refine ⟨?_, fun c hc => ?_⟩
  · rw [ones, ne_eq, ← String.toList_inj, String.toList_ofList]
    exact fun h => by simp at h; omega
  · rw [ones, String.toList_ofList] at hc
    rw [List.eq_of_mem_replicate hc]
    rfl

theorem denotes_ones {k : Nat} (hk : 0 < k) : Denotes (ones k) (List.replicate k 1)
    (Nat.ofDigits 10 (List.replicate k 1) : Nat) := by
  refine ⟨[], [], List.replicate k '1', [], false, ?_, nofun, nofun, .bare, ?_, ?_, ?_⟩
  · rw [ones, String.toList_ofList, List.nil_append, List.nil_append, List.append_nil]
  · rw [ne_eq, List.replicate_eq_nil_iff]
    omega
  · rw [List.map_replicate, List.map_replicate]
    rfl
  · rw [List.reverse_replicate, if_neg Bool.false_ne_true, one_mul]

theorem convert_ones {c : Column} (hc : c.type = .integer) {k : Nat} (hk : Text.maxDigits < k) :
    c.convert (.text (ones k)) = .error (.digitLimit k) := by
  refine (Column.convert_eq_error_iff hc).mpr (.inl ⟨_, _, denotes_ones (by omega), ?_, ?_⟩)
  · rwa [List.length_replicate]
  · rw [List.length_replicate]

/-- The row of a key that is written with this many ones. -/
def keyed (k : Nat) : Command := .select "users" (some ⟨⟨none, "id"⟩, ⟨ones k, false⟩⟩)

/-- The text that asks for it. -/
def asked (k : Nat) : String :=
  String.ofList ("SELECT * FROM \x60users\x60 WHERE \x60id\x60 = ".toList ++ (ones k).toList)

theorem ofText_asked {k : Nat} (hk : 0 < k) : Command.ofText (asked k) = .ok (keyed k) := by
  have hwritten : (keyed k).Written
      [.word "SELECT", .symbol '*', .word "FROM", .name "users", .word "WHERE", .name "id",
        .symbol '=', .number (ones k)] :=
    .select (by simp [IsName])
      (.columnFirst (.bare (by simp [IsName])) (.number (isNumeral_ones hk)))
  have hkey : Sql.Writes [.name "id", .symbol '=', .number (ones k)]
      ("\x60id\x60".toList ++ [' '] ++ (['='] ++ [' '] ++ (ones k).toList)) :=
    .next rfl (by decide) (by decide) (.next rfl (by decide) (by simp) (.last rfl))
  have htable : Sql.Writes [.name "users", .word "WHERE", .name "id", .symbol '=', .number (ones k)]
      ("\x60users\x60".toList ++ [' '] ++ ("WHERE".toList ++ [' '] ++ _)) :=
    .next rfl (by decide) (by decide)
      (.next ⟨by decide, by decide⟩ (by decide) (by decide) hkey)
  have hbody : Sql.Writes [.word "SELECT", .symbol '*', .word "FROM", .name "users", .word "WHERE",
        .name "id",
        .symbol '=', .number (ones k)]
      ("SELECT".toList ++ [' '] ++ (['*'] ++ [' '] ++ ("FROM".toList ++ [' '] ++ _))) :=
    .next ⟨by decide, by decide⟩ (by decide) (by decide) (.next rfl (by decide) (by decide)
      (.next ⟨by decide, by decide⟩ (by decide) (by decide) htable))
  have hapart : (keyed k).Apart := ⟨by simp [IsName], by decide⟩
  have hgap : Sql.IsGap [] := by decide
  have hread := Command.ofText_written hwritten hapart hgap hgap hbody
  rw [List.append_nil] at hread
  exact hread

theorem resolve_keyed (schema : Schema) {k : Nat} (hk : Text.maxDigits < k) :
    Database.resolve schema ⟨⟨none, "id"⟩, ⟨ones k, false⟩⟩ =
    .error (.digitLimit k) := by
  have hkey : schema.column? "id" = some schema.key := by
    rw [Schema.column?, ← schema.key_cons_dataColumns]
    exact List.find?_cons_of_pos (decide_eq_true schema.key_name)
  unfold Database.resolve
  dsimp only
  rw [hkey]
  show (schema.key.convert (.text (ones k)) >>= _) = _
  rw [convert_ones schema.key_type hk]
  rfl

/-- A query for a key with one digit too many is no failed result: it is raised, though its text
denotes an integer and the key column refuses no text but by its type. -/
theorem long_numeral_raised : ∃ x y, Lived ["data"] x ∧ x.1.started = true ∧
    Command.ofText (asked (Text.maxDigits + 1)) = .ok (keyed (Text.maxDigits + 1)) ∧
    (∃ ds n, Denotes (ones (Text.maxDigits + 1)) ds n) ∧
    (∀ c : Column, c.type = .integer →
      c.convert (.text (ones (Text.maxDigits + 1))) = .error (.digitLimit (Text.maxDigits + 1))) ∧
    (execute (asked (Text.maxDigits + 1)) none).run x =
    (.error (.digitLimit (Text.maxDigits + 1)), y) := by
  generalize hk : Text.maxDigits + 1 = k
  obtain ⟨x, root, hlived, hat⟩ := exists_users
  have htext : Command.ofText (asked k) = .ok (keyed k) := ofText_asked (by omega)
  have hresult := (simulates_execute (asked k) none _ _ hat).1
  have hfound : ((usersKept.lookup "default").bind fun tables => tables.lookup "users").isSome =
      true := by
    decide +kernel
  obtain ⟨t, hfound⟩ := Option.isSome_iff_exists.mp hfound
  obtain ⟨tables, htables, ht⟩ := Option.bind_eq_some_iff.mp hfound
  have hselect (site : Memory.Site) :
      ((Memory.Tables.run site "default" (keyed k)).run tables).1 = .error (.digitLimit k) := by
    show ((Memory.Tables.select "users" _).run tables).1 = _
    unfold Memory.Tables.select
    rw [Attempt.run_bind_of_ok (Database.run_find ht), Database.pick_some,
      resolve_keyed t.schema (by omega : Text.maxDigits < k)]
    rfl
  have hserving : usersKept.lookup (serving "default" none) = some tables := htables
  rw [Memory.fst_run_execute hserving, Memory.Tables.fst_run_execute htext] at hresult
  have hraised := hresult.trans (congrArg Memory.Tables.report (hselect _))
  exact ⟨x, _, hlived, hat.started, htext, ⟨_, _, denotes_ones (by omega)⟩,
    fun c hc => convert_ones hc (by omega), Attempt.run_of_fst hraised⟩

end Engine
end Tabulary
