import Tabulary.Proofs.Json.Line
import Tabulary.Proofs.Keyed
import Tabulary.Proofs.Record.Word
import Tabulary.Result.Basic

/-!
The text of the rows of a query: the rows are on a line each, and each line is read as the fields of
its row, integers as integers and texts as texts.
-/

namespace Tabulary
namespace Value

/-- The value that is written so, of the same type. -/
def ofJson? : Json → Option Value
  | .int n => some (.int n)
  | .text s => some (.text s)
  | .bool b => some (.bool b)
  | .null => some .null
  | _ => none

/-- An integer of no more digits than can be read; any other value can. -/
def Readable : Value → Prop
  | .int n => (Nat.toDigits 10 n.natAbs).length ≤ 4300
  | _ => True

instance : (v : Value) → Decidable v.Readable
  | .int n => Nat.decLe (Nat.toDigits 10 n.natAbs).length 4300
  | .null | .text _ | .bool _ => .isTrue trivial

theorem ofJson?_toJson (v : Value) : ofJson? v.toJson = some v := by
  cases v <;> rfl

theorem Readable.nests {v : Value} (h : v.Readable) (depth : Nat) : Json.Nests depth v.toJson := by
  cases v with
  | int n => cases depth <;> exact h
  | _ => cases depth <;> exact trivial

/-- What can be written can be read. -/
theorem readable_of_inRange {n : Int} (h : inRange n = true) : (int n).Readable :=
  of_decide_eq_true (writable_of_inRange h)

end Value

namespace ResultRow

/-- The fields of the object on a line, each name once: of several fields of one name the last gives
the value. -/
def fieldsOfLine? (line : List Char) : Option (List (String × Value)) :=
  match Json.read? (String.ofList line) with
  | some (.object fields) =>
    (fields.mapM fun f => (Value.ofJson? f.2).map fun v => (f.1, v)).map fun fields =>
      fields.foldl (fun done f => Keyed.set f.1 f.2 done) []
  | _ => none

theorem nodup_keys_fields (r : ResultRow) : (Keyed.keys r.fields).Nodup :=
  @Keyed.nodup_keys_foldl_set _ _ _ _ _ [] List.nodup_nil

theorem mem_values_of_mem_fields {r : ResultRow} {f : String × Value} (h : f ∈ r.fields) :
    f.2 ∈ r.values :=
  (List.of_mem_zip ((Keyed.mem_foldl_set h).resolve_left List.not_mem_nil)).2

/-- The line of a row is read as its fields. -/
theorem fieldsOfLine?_render {r : ResultRow} (h : ∀ v ∈ r.values, v.Readable) :
    fieldsOfLine? r.toJson.render.toList = some r.fields := by
  have hread : Json.read? r.toJson.render = some r.toJson := by
    refine Json.read?_render fun f hf => ?_
    obtain ⟨g, hg, rfl⟩ := List.mem_map.mp hf
    exact (h g.2 (mem_values_of_mem_fields hg)).nests _
  have hvalues : (r.fields.map fun f => (f.1, f.2.toJson)).mapM
      (fun f => (Value.ofJson? f.2).map fun v => (f.1, v)) = some r.fields := by
    induction r.fields with
    | nil => rfl
    | cons f fields ih =>
      rw [List.map_cons, List.mapM_cons, ih, Value.ofJson?_toJson]
      rfl
  have hfields : r.fields.foldl (fun done f => Keyed.set f.1 f.2 done) [] = r.fields :=
    @Keyed.foldl_set_of_nodup _ _ _ _ [] _ r.nodup_keys_fields
  unfold fieldsOfLine?
  rw [String.ofList_toList, hread]
  unfold toJson
  dsimp only
  rw [hvalues, Option.map_some, hfields]

end ResultRow

namespace Result

/-- The text of the result, cut at the line feeds, has a piece for each row, and each piece is read
as the fields of its row: the same names in the same order, with the same values of the same
types. -/
def ReadsBack (r : Result) : Prop :=
  (r.toText.toList.splitOn '\n').map ResultRow.fieldsOfLine? = r.rows.map fun row => some row.fields

theorem toText_rows {r : Result} (hok : r.errorKind = none) (hquery : r.isQuery = true)
    (hrows : r.rows ≠ []) :
    r.toText = "\n".intercalate (r.rows.map fun row => row.toJson.render) := by
  unfold toText
  rw [hok, hquery]
  dsimp only
  rw [if_pos rfl, if_neg (by simpa using hrows)]

theorem splitOn_toText {r : Result} (hok : r.errorKind = none) (hquery : r.isQuery = true)
    (hrows : r.rows ≠ []) :
    r.toText.toList.splitOn '\n' = r.rows.map fun row => row.toJson.render.toList := by
  have hlines : ∀ line ∈ r.rows.map fun row => row.toJson.render.toList, '\n' ∉ line := by
    intro line hline
    obtain ⟨row, -, rfl⟩ := List.mem_map.mp hline
    exact Json.newline_not_mem_render row.toJson
  have hseparator : "\n".toList = ['\n'] := rfl
  have hpieces : (r.rows.map fun row => row.toJson.render).map String.toList =
      r.rows.map fun row => row.toJson.render.toList := List.map_map
  rw [toText_rows hok hquery hrows, String.toList_intercalate, hpieces, hseparator]
  exact List.splitOn_intercalate '\n' hlines (mt List.map_eq_nil_iff.mp hrows)

theorem readsBack {r : Result} (hok : r.errorKind = none) (hquery : r.isQuery = true)
    (hrows : r.rows ≠ [])
    (hvalues : ∀ row ∈ r.rows, ∀ v ∈ row.values, v.Readable) : r.ReadsBack := by
  unfold ReadsBack
  rw [splitOn_toText hok hquery hrows, List.map_map]
  refine List.map_congr_left fun row hrow => ?_
  rw [Function.comp_apply, ResultRow.fieldsOfLine?_render (hvalues row hrow)]

end Result
end Tabulary
