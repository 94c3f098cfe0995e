import Tabulary.Proofs.Json.RoundTrip

/-!
Values on one line.  Main statements: what is written on one line is read as what it was
(`read?_render`), and no line ends in it, since a string has its line feeds escaped
(`newline_not_mem_render`).
-/

namespace Tabulary
namespace Json

open Reader

theorem renderItems_eq (vs : List Json) : renderItems vs = vs.map render := by
  induction vs with
  | nil => rw [renderItems, List.map_nil]
  | cons v vs ih => rw [renderItems, List.map_cons, ih]

theorem renderFields_eq (fs : List (String × Json)) :
    renderFields fs = fs.map fun f => quote f.1 ++ ": " ++ render f.2 := by
  induction fs with
  | nil => rw [renderFields, List.map_nil]
  | cons f fs ih =>
    obtain ⟨name, v⟩ := f
    rw [renderFields, List.map_cons, ih]

/-! ## Reading -/

/-- Pieces between brackets, with a comma and a blank between each two. -/
theorem toList_pieces (opening closing : String) (pieces : List String) :
    (opening ++ ", ".intercalate pieces ++ closing).toList = opening.toList ++
      ([',', ' '].intercalate ((pieces.map String.toList).map ([] ++ ·)) ++ closing.toList) := by
  have hid : (fun cs : List Char => [] ++ cs) = id := rfl
  rw [String.toList_append, String.toList_append, String.toList_intercalate, List.append_assoc, hid,
    List.map_id]
  rfl

theorem writes_items {depth : Nat} {vs : List Json}
    (h : ∀ v ∈ vs, Writes (value depth) (render v).toList v) :
    Writes (value (depth + 1)) (render (array vs)).toList (array vs) := by
  rw [render, renderItems_eq]
  by_cases hvs : vs = []
  · rw [hvs]
    exact ⟨fun _ _ => rfl, '[', _, rfl, rfl, by decide, by decide⟩
  · rw [toList_pieces]
    refine ⟨fun rest _ => ?_, '[', _, rfl, rfl, by decide, by decide⟩
    rw [List.append_assoc, List.append_assoc]
    exact value_array_lines [] [] rfl rfl rfl rfl (forall₂_writes h) (by simpa using hvs) rest

theorem writes_fields {depth : Nat} {fs : List (String × Json)}
    (h : ∀ f ∈ fs, Writes (value depth) (render f.2).toList f.2) :
    Writes (value (depth + 1)) (render (object fs)).toList (object fs) := by
  rw [render, renderFields_eq]
  by_cases hfs : fs = []
  · rw [hfs]
    exact ⟨fun _ _ => rfl, '\x7b', _, rfl, rfl, by decide, by decide⟩
  · rw [toList_pieces]
    refine ⟨fun rest _ => ?_, '\x7b', _, rfl, rfl, by decide, by decide⟩
    rw [List.append_assoc, List.append_assoc]
    exact value_object_lines [] [] rfl rfl rfl rfl (forall₂_writesField h)
      (by simpa using hfs) rest

/-- Every value is read from the line that is written of it. -/
theorem writes_render {depth : Nat} {v : Json} (h : Nests depth v) :
    Writes (value depth) (render v).toList v := by
  induction depth generalizing v with
  | zero =>
    cases v with
    | null => exact value_null 0
    | bool b => exact value_bool 0 b
    | int n => exact value_int 0 h
    | text s => exact value_text 0 s
    | _ => cases h
  | succ depth ih =>
    cases v with
    | null => exact value_null (depth + 1)
    | bool b => exact value_bool (depth + 1) b
    | int n => exact value_int (depth + 1) h
    | text s => exact value_text (depth + 1) s
    | array vs => exact writes_items fun v hv => ih (h v hv)
    | object fs => exact writes_fields fun f hf => ih (h f hf)
    | _ => cases h

/-- What is written on one line is read as what it was. -/
theorem read?_render {v : Json} (h : Nests maxDepth v) : read? v.render = some v := by
  have hv := writes_render h
  have hopens := hv.opens.skipBlanks_append []
  have hreads := hv.reads [] ends_nil
  rw [List.append_nil] at hopens hreads
  rw [read?, hopens, hreads]
  rfl

/-! ## Line feeds -/

theorem hexDigit_ne_newline (d : Nat) : Text.hexDigit (d % 16) ≠ '\n' := by
  have hall : ∀ d < 16, Text.hexDigit d ≠ '\n' := by decide
  exact hall _ (Nat.mod_lt d (by decide))

theorem newline_not_mem_hexFixed (width n : Nat) : '\n' ∉ Text.hexFixed width n := by
  induction width generalizing n with
  | zero => exact List.not_mem_nil
  | succ width ih =>
    rw [Text.hexFixed, List.mem_append, List.mem_singleton, not_or]
    exact ⟨ih (n / 16), (hexDigit_ne_newline n).symm⟩

/-- A line feed is escaped, and no escape has one in it. -/
theorem newline_not_mem_escapeChar (c : Char) : '\n' ∉ escapeChar c := by
  unfold escapeChar
  by_cases hline : c = '\n'
  · subst hline
    decide
  rw [if_neg hline]
  repeat' split
  all_goals first
    | decide
    | simp [newline_not_mem_hexFixed, Ne.symm hline]

theorem newline_not_mem_quote (s : String) : '\n' ∉ (quote s).toList := by
  have hbody : '\n' ∉ s.toList.flatMap escapeChar := by
    intro h
    obtain ⟨c, -, hc⟩ := List.mem_flatMap.mp h
    exact newline_not_mem_escapeChar c hc
  rw [quote, String.toList_ofList, List.mem_append, List.mem_cons, not_or, not_or]
  exact ⟨⟨by decide, hbody⟩, by decide⟩

theorem newline_not_mem_decimal (n : Int) : '\n' ∉ (Text.decimal n).toList := by
  have hdigits : '\n' ∉ Nat.toDigits 10 n.natAbs := by
    intro h
    exact absurd (Nat.isDigit_of_mem_toDigits (by decide) (by decide) h) (by decide)
  rw [Text.toList_decimal, List.mem_append, not_or]
  refine ⟨?_, hdigits⟩
  split <;> decide

theorem not_mem_intercalate {α : Type} {a : α} {sep : List α} {pieces : List (List α)}
    (hsep : a ∉ sep) (h : ∀ piece ∈ pieces, a ∉ piece) : a ∉ sep.intercalate pieces := by
  induction pieces with
  | nil => exact List.not_mem_nil
  | cons piece pieces ih =>
    have hpiece := h piece List.mem_cons_self
    have hpieces := ih fun p hp => h p (List.mem_cons_of_mem piece hp)
    cases pieces with
    | nil => rwa [List.intercalate_singleton]
    | cons next pieces =>
      rw [List.intercalate_cons_cons, List.mem_append, List.mem_append, not_or, not_or]
      exact ⟨⟨hpiece, hsep⟩, hpieces⟩

/-- Pieces on one line each are on one line together. -/
theorem newline_not_mem_pieces {opening closing : String} {pieces : List String}
    (hopening : '\n' ∉ opening.toList) (hclosing : '\n' ∉ closing.toList)
    (h : ∀ piece ∈ pieces, '\n' ∉ piece.toList) :
    '\n' ∉ (opening ++ ", ".intercalate pieces ++ closing).toList := by
  have hbetween : '\n' ∉ (", ".intercalate pieces).toList := by
    rw [String.toList_intercalate]
    refine not_mem_intercalate (by decide) fun cs hcs => ?_
    obtain ⟨piece, hpiece, rfl⟩ := List.mem_map.mp hcs
    exact h piece hpiece
  rw [String.toList_append, String.toList_append, List.mem_append, List.mem_append, not_or, not_or]
  exact ⟨⟨hopening, hbetween⟩, hclosing⟩

mutual

/-- Whatever is written on one line ends nowhere in it. -/
theorem newline_not_mem_render : ∀ v : Json, '\n' ∉ v.render.toList
  | null => by rw [render]; decide
  | bool b => by cases b <;> rw [render] <;> decide
  | int n => by rw [render]; exact newline_not_mem_decimal n
  | decimal m e => by
    rw [render, String.toList_append, String.toList_append, List.mem_append, List.mem_append,
      not_or, not_or]
    exact ⟨⟨newline_not_mem_decimal m, by decide⟩, newline_not_mem_decimal e⟩
  | notANumber => by rw [render]; decide
  | text s => by rw [render]; exact newline_not_mem_quote s
  | array vs => by
    rw [render]
    exact newline_not_mem_pieces (by decide) (by decide) (newline_not_mem_renderItems vs)
  | object fs => by
    rw [render]
    exact newline_not_mem_pieces (by decide) (by decide) (newline_not_mem_renderFields fs)

theorem newline_not_mem_renderItems : ∀ vs :
    List Json, ∀ line ∈ renderItems vs, '\n' ∉ line.toList
  | [] => fun _ h => by cases h
  | v :: vs => by
    rw [renderItems, List.forall_mem_cons]
    exact ⟨newline_not_mem_render v, newline_not_mem_renderItems vs⟩

theorem newline_not_mem_renderFields :
    ∀ fs : List (String × Json), ∀ line ∈ renderFields fs, '\n' ∉ line.toList
  | [] => fun _ h => by cases h
  | (name, v) :: fs => by
    rw [renderFields, List.forall_mem_cons, String.toList_append, String.toList_append,
      List.mem_append, List.mem_append, not_or, not_or]
    exact ⟨⟨⟨newline_not_mem_quote name, by decide⟩, newline_not_mem_render v⟩,
      newline_not_mem_renderFields fs⟩

end

end Json
end Tabulary
