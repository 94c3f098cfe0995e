/-!
Lists of pairs as finite maps in the order of insertion.  `List.lookup` is the view; setting a key
that is there keeps its place, and a new key goes to the end.
-/

namespace Tabulary
namespace Keyed

variable {κ α : Type} [BEq κ]

def set (k : κ) (v : α) : List (κ × α) → List (κ × α)
  | [] => [(k, v)]
  | p :: rest => if k == p.1 then (p.1, v) :: rest else p :: set k v rest

def erase (k : κ) (l : List (κ × α)) : List (κ × α) := l.filter fun p => !(k == p.1)

def keys (l : List (κ × α)) : List κ := l.map (·.1)

variable [LawfulBEq κ]

omit [LawfulBEq κ] in
theorem lookup_cons_eq (k a : κ) (b : α) (l : List (κ × α)) :
    ((a, b) :: l).lookup k = if k == a then some b else l.lookup k := by
  rw [List.lookup_cons]
  cases k == a <;> rfl

theorem lookup_set (k k' : κ) (v : α) (l : List (κ × α)) :
    (set k v l).lookup k' = if k' == k then some v else l.lookup k' := by
  induction l with
  | nil => exact lookup_cons_eq k' k v []
  | cons p rest ih =>
    obtain ⟨a, b⟩ := p
    simp only [set]
    by_cases h : k = a
    · subst h
      simp only [beq_self_eq_true, if_true, lookup_cons_eq]
      split <;> rfl
    · simp only [beq_iff_eq, h, if_false, lookup_cons_eq, ih] at ih ⊢
      by_cases h' : k' = a
      · subst h'
        simp [Ne.symm h]
      · simp [h']

theorem set_set (k : κ) (v v' : α) (l : List (κ × α)) : set k v' (set k v l) = set k v' l := by
  induction l with
  | nil => simp [set]
  | cons p rest ih =>
    rw [set]
    split
    · rename_i h
      rw [set, set, if_pos h, if_pos h]
    · rename_i h
      rw [set, set, if_neg h, if_neg h, ih]

theorem lookup_erase (k k' : κ) (l : List (κ × α)) :
    (erase k l).lookup k' = if k' == k then none else l.lookup k' := by
  induction l with
  | nil => simp [erase]
  | cons p rest ih =>
    obtain ⟨a, b⟩ := p
    simp only [erase, List.filter_cons] at ih ⊢
    by_cases h : k = a
    · subst h
      simp only [beq_self_eq_true, Bool.not_true, Bool.false_eq_true, if_false, ih, lookup_cons_eq]
      split <;> rfl
    · have hk : (k == a) = false := by simpa using h
      simp only [hk, Bool.not_false, if_true, lookup_cons_eq, ih]
      by_cases h' : k' = a
      · subst h'
        simp [Ne.symm h]
      · simp [h']

theorem lookup_filter_key (keep : κ → Bool) (k : κ) (l : List (κ × α)) :
    (l.filter fun p => keep p.1).lookup k = if keep k then l.lookup k else none := by
  induction l with
  | nil => simp
  | cons p rest ih =>
    obtain ⟨a, b⟩ := p
    rw [List.filter_cons]
    by_cases hk : k = a
    · subst hk
      split
      · simp only [lookup_cons_eq, beq_self_eq_true, if_true]
      · rename_i hkeep
        rw [ih, if_neg hkeep]
    · have hne : ¬(k == a) = true := by simpa using hk
      split
      · rw [lookup_cons_eq, lookup_cons_eq, if_neg hne, if_neg hne, ih]
      · rw [lookup_cons_eq, if_neg hne, ih]

theorem lookup_eq_none (k : κ) (l : List (κ × α)) (h : k ∉ keys l) : l.lookup k = none := by
  induction l with
  | nil => rfl
  | cons p rest ih =>
    obtain ⟨a, b⟩ := p
    simp only [keys, List.map_cons, List.mem_cons, not_or] at h ih
    rw [lookup_cons_eq, if_neg (by simpa using h.1), ih h.2]

theorem exists_lookup {k : κ} {l : List (κ × α)} (h : k ∈ keys l) :
    ∃ v, l.lookup k = some v := by
  obtain ⟨p, hp, rfl⟩ := List.mem_map.mp h
  cases hv : l.lookup p.1 with
  | none => exact absurd hp (by simpa using List.lookup_eq_none_iff.mp hv p)
  | some v => exact ⟨v, rfl⟩

theorem lookup_of_mem {k : κ} {v : α} {l : List (κ × α)} (hd : (keys l).Nodup)
    (h : (k, v) ∈ l) : l.lookup k = some v := by
  induction l with
  | nil => cases h
  | cons p rest ih =>
    obtain ⟨a, b⟩ := p
    obtain ⟨ha, hrest⟩ := List.nodup_cons.mp hd
    rw [lookup_cons_eq]
    rcases List.mem_cons.mp h with heq | hmem
    · cases heq
      rw [if_pos (beq_self_eq_true k)]
    · have hk : k ∈ keys rest := List.mem_map_of_mem hmem
      rw [if_neg, ih hrest hmem]
      intro heq
      exact ha ((eq_of_beq heq) ▸ hk)

/-- A new key goes to the end. -/
theorem set_of_not_mem {k : κ} {l : List (κ × α)} (h : k ∉ keys l) (v : α) :
    set k v l = l ++ [(k, v)] := by
  induction l with
  | nil => rfl
  | cons p rest ih =>
    simp only [keys, List.map_cons, List.mem_cons, not_or] at h ih
    rw [set, if_neg (by simpa using h.1), ih h.2, List.cons_append]

theorem erase_of_not_mem {k : κ} {l : List (κ × α)} (h : k ∉ keys l) : erase k l = l := by
  refine List.filter_eq_self.mpr fun p hp => ?_
  rw [Bool.not_eq_true', beq_eq_false_iff_ne]
  intro heq
  exact h (heq ▸ List.mem_map_of_mem hp)

/-- Erasing takes out the one pair of a key. -/
theorem erase_append_cons {k : κ} {v : α} {xs ys : List (κ × α)}
    (h : (keys (xs ++ (k, v) :: ys)).Nodup) : erase k (xs ++ (k, v) :: ys) = xs ++ ys := by
  simp only [keys, List.map_append, List.map_cons] at h
  obtain ⟨-, hys, hxs⟩ := List.nodup_append.mp h
  have hx : k ∉ keys xs := fun hk => hxs k hk k List.mem_cons_self rfl
  have hy : k ∉ keys ys := (List.nodup_cons.mp hys).1
  have hk : erase k ((k, v) :: ys) = ys := by
    rw [erase, List.filter_cons_of_neg (by simp)]
    exact erase_of_not_mem hy
  calc erase k (xs ++ (k, v) :: ys)
      = erase k xs ++ erase k ((k, v) :: ys) := List.filter_append xs ((k, v) :: ys)
    _ = xs ++ ys := by rw [erase_of_not_mem hx, hk]

/-- A map given by a function on a list of keys. -/
theorem lookup_map_of_mem (f : κ → α) {ks : List κ} {k : κ} (h : k ∈ ks) :
    (ks.map fun k => (k, f k)).lookup k = some (f k) := by
  induction ks with
  | nil => cases h
  | cons a rest ih =>
    rw [List.map_cons, lookup_cons_eq]
    by_cases ha : k = a
    · subst ha
      rw [if_pos (beq_self_eq_true k)]
    · rw [if_neg (by simpa using ha), ih ((List.mem_cons.mp h).resolve_left ha)]

end Keyed
end Tabulary
