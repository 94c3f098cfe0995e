import Mathlib.Data.List.Forall2
import Mathlib.Data.List.Nodup
import Mathlib.Data.List.Perm.Subperm
import Tabulary.Keyed

/-!
Two maps side by side: the same keys in the same order, with values that belong together.
-/

namespace Tabulary
namespace Keyed

variable {κ α β : Type} {R R' : κ → α → β → Prop} {l : List (κ × α)}
  {m : List (κ × β)}

/-- The maps have the same keys, and their values are related key by key. -/
abbrev Match (R : κ → α → β → Prop) (l : List (κ × α)) (m : List (κ × β)) : Prop :=
  List.Forall₂ (fun x y => x.1 = y.1 ∧ R x.1 x.2 y.2) l m

namespace Match

theorem keys_eq (h : Match R l m) : keys l = keys m := by
  induction h with
  | nil => rfl
  | cons hxy _ ih => exact congrArg₂ List.cons hxy.1 ih

theorem of_mem_right (h : Match R l m) {y : κ × β} (hy : y ∈ m) :
    ∃ a, (y.1, a) ∈ l ∧ R y.1 a y.2 := by
  induction h with
  | nil => cases hy
  | @cons x z l m hxz _ ih =>
    rcases List.mem_cons.mp hy with rfl | hy
    · refine ⟨x.2, ?_, hxz.1 ▸ hxz.2⟩
      rw [← hxz.1]
      exact List.mem_cons_self
    · obtain ⟨a, ha, hr⟩ := ih hy
      exact ⟨a, List.mem_cons_of_mem x ha, hr⟩

theorem of_mem_left (h : Match R l m) {x : κ × α} (hx : x ∈ l) :
    ∃ b, (x.1, b) ∈ m ∧ R x.1 x.2 b := by
  induction h with
  | nil => cases hx
  | @cons z y l m hzy _ ih =>
    rcases List.mem_cons.mp hx with rfl | hx
    · refine ⟨y.2, ?_, hzy.2⟩
      rw [hzy.1]
      exact List.mem_cons_self
    · obtain ⟨b, hb, hr⟩ := ih hx
      exact ⟨b, List.mem_cons_of_mem y hb, hr⟩

/-- What is taken from related values is the same on both sides. -/
theorem map_eq {γ : Type} {f : κ × α → γ} {g : κ × β → γ} (h : Match R l m)
    (hfg : ∀ k a b, R k a b → f (k, a) = g (k, b)) : l.map f = m.map g := by
  induction h with
  | nil => rfl
  | @cons x y l m hxy _ ih =>
    obtain ⟨k, a⟩ := x
    obtain ⟨k', b⟩ := y
    obtain ⟨rfl, hab⟩ := hxy
    rw [List.map_cons, List.map_cons, hfg k a b hab, ih]

/-- What is taken from values that are related to the same ones is the same. -/
theorem map_congr {α' γ : Type} {S : κ → α' → β → Prop} {l' : List (κ × α')}
    {f : κ × α → γ} {f' : κ × α' → γ} (h : Match R l m) (h' : Match S l' m)
    (hff : ∀ k a a' b, (k, b) ∈ m → R k a b → S k a' b → f (k, a) = f' (k, a')) :
    l.map f = l'.map f' := by
  induction h generalizing l' with
  | nil =>
    cases h'
    rfl
  | @cons x y l m hxy _ ih =>
    cases h' with
    | @cons x' _ l' _ hxy' hrest =>
      obtain ⟨k, a⟩ := x
      obtain ⟨k', a'⟩ := x'
      obtain ⟨j, b⟩ := y
      obtain ⟨rfl, hab⟩ := hxy
      obtain ⟨rfl, hab'⟩ := hxy'
      rw [List.map_cons, List.map_cons, hff _ a a' b List.mem_cons_self hab hab',
        ih hrest fun k a a' b hmem => hff k a a' b (List.mem_cons_of_mem _ hmem)]

/-- A relation may be given up for another one, value by value. -/
theorem mono (h : Match R l m) (himp : ∀ k a b, (k, a) ∈ l → R k a b → R' k a b) :
    Match R' l m := by
  induction h with
  | nil => exact .nil
  | @cons x y l m hxy _ ih =>
    refine .cons ⟨hxy.1, himp x.1 x.2 y.2 List.mem_cons_self hxy.2⟩ (ih fun k a b hm => ?_)
    exact himp k a b (List.mem_cons_of_mem x hm)

theorem concat (h : Match R l m) {k : κ} {a : α} {b : β} (hab : R k a b) :
    Match R (l ++ [(k, a)]) (m ++ [(k, b)]) :=
  List.rel_append h (.cons ⟨rfl, hab⟩ .nil)

variable [BEq κ] [LawfulBEq κ] {k : κ} {a : α} {b : β}

theorem lookup (h : Match R l m) (k : κ) :
    l.lookup k = none ∧ m.lookup k = none ∨
      ∃ a b, l.lookup k = some a ∧ m.lookup k = some b ∧ R k a b := by
  induction h with
  | nil => exact Or.inl ⟨rfl, rfl⟩
  | @cons x y l m hxy _ ih =>
    obtain ⟨j, a⟩ := x
    obtain ⟨j', b⟩ := y
    obtain ⟨rfl, hab⟩ := hxy
    rw [lookup_cons_eq, lookup_cons_eq]
    by_cases hk : k = j
    · subst hk
      rw [if_pos (beq_self_eq_true k), if_pos (beq_self_eq_true k)]
      exact Or.inr ⟨a, b, rfl, rfl, hab⟩
    · rw [if_neg (by simpa using hk), if_neg (by simpa using hk)]
      exact ih

theorem of_lookup (h : Match R l m) (ha : l.lookup k = some a) :
    ∃ b, m.lookup k = some b ∧ R k a b := by
  rcases h.lookup k with ⟨hnone, -⟩ | ⟨a', b, ha', hb, hab⟩
  · cases hnone.symm.trans ha
  · cases ha'.symm.trans ha
    exact ⟨b, hb, hab⟩

theorem isSome_lookup (h : Match R l m) (k : κ) : (l.lookup k).isSome = (m.lookup k).isSome := by
  rcases h.lookup k with ⟨hl, hm⟩ | ⟨a, b, hl, hm, -⟩
  · rw [hl, hm]
    rfl
  · rw [hl, hm]
    rfl

/-- One value is replaced, and the others stay related in a way that may have changed. -/
theorem update (h : Match R l m) (hd : (keys l).Nodup) (hab : R' k a b)
    (hother : ∀ j a b, (j, a) ∈ l → j ≠ k → R j a b → R' j a b) :
    Match R' (set k a l) (set k b m) := by
  induction h with
  | nil => exact .cons ⟨rfl, hab⟩ .nil
  | @cons x y l m hxy hrest ih =>
    obtain ⟨j, a'⟩ := x
    obtain ⟨j', b'⟩ := y
    obtain ⟨rfl, hr⟩ := hxy
    obtain ⟨hj, hd'⟩ := List.nodup_cons.mp hd
    simp only [set]
    by_cases hk : k = j
    · subst hk
      simp only [beq_self_eq_true, if_true]
      refine .cons ⟨rfl, hab⟩ (Match.mono hrest fun i c d hm => ?_)
      refine hother i c d (List.mem_cons_of_mem _ hm) ?_
      rintro rfl
      exact hj (List.mem_map.mpr ⟨_, hm, rfl⟩)
    · have hne : ¬(k == j) = true := by simpa using hk
      simp only [if_neg hne]
      refine .cons ⟨rfl, hother j a' b' List.mem_cons_self (Ne.symm hk) hr⟩ (ih hd' ?_)
      exact fun i c d hm => hother i c d (List.mem_cons_of_mem _ hm)

theorem erase (h : Match R l m) (hother : ∀ j a b, (j, a) ∈ l → j ≠ k →
    R j a b → R' j a b) : Match R' (erase k l) (erase k m) := by
  induction h with
  | nil => exact .nil
  | @cons x y l m hxy _ ih =>
    obtain ⟨j, a'⟩ := x
    obtain ⟨j', b'⟩ := y
    obtain ⟨rfl, hr⟩ := hxy
    have hrest := ih fun i c d hm => hother i c d (List.mem_cons_of_mem _ hm)
    by_cases hk : k = j
    · have hdrop : (!(k == j)) = false := by simpa using hk
      simp only [Keyed.erase, List.filter_cons, hdrop] at hrest ⊢
      exact hrest
    · have hkeep : (!(k == j)) = true := by simpa using hk
      simp only [Keyed.erase, List.filter_cons, hkeep, if_true] at hrest ⊢
      exact .cons ⟨rfl, hother j a' b' List.mem_cons_self (Ne.symm hk) hr⟩ hrest

end Match

theorem mem_keys_of_lookup {κ α : Type} [BEq κ] [LawfulBEq κ] {k : κ} {v : α}
    {l : List (κ × α)} (h : l.lookup k = some v) : k ∈ keys l := by
  obtain ⟨xs, ys, rfl, -⟩ := List.lookup_eq_some_iff.mp h
  exact List.mem_map.mpr ⟨(k, v), by simp, rfl⟩

theorem not_mem_keys_of_lookup {κ α : Type} [BEq κ] [LawfulBEq κ] {k : κ} {l : List (κ × α)}
    (h : l.lookup k = none) : k ∉ keys l := by
  intro hmem
  obtain ⟨v, hv⟩ := exists_lookup hmem
  rw [h] at hv
  cases hv

/-- In which order distinct keys stand does not matter to what is found under them. -/
theorem lookup_perm {κ α : Type} [BEq κ] [LawfulBEq κ] {l l' : List (κ × α)} (h : l.Perm l')
    (hd : (keys l).Nodup) (k : κ) : l.lookup k = l'.lookup k := by
  cases hk : l'.lookup k with
  | none =>
    refine lookup_eq_none k l fun hmem => ?_
    exact not_mem_keys_of_lookup hk ((h.map Prod.fst).mem_iff.mp hmem)
  | some v =>
    obtain ⟨xs, ys, rfl, -⟩ := List.lookup_eq_some_iff.mp hk
    exact lookup_of_mem hd (h.mem_iff.mpr (by simp))

/-- Setting a key to the value that it has changes nothing. -/
theorem set_of_lookup {κ α : Type} [BEq κ] [LawfulBEq κ] {k : κ} {v : α} {l : List (κ × α)}
    (h : l.lookup k = some v) : set k v l = l := by
  induction l with
  | nil => cases h
  | cons p rest ih =>
    obtain ⟨a, b⟩ := p
    rw [lookup_cons_eq] at h
    rw [set]
    split
    · rename_i hk
      rw [if_pos hk] at h
      cases h
      rfl
    · rename_i hk
      rw [if_neg hk] at h
      rw [ih h]

theorem map_set {κ α γ : Type} [BEq κ] [LawfulBEq κ] {k : κ} {v : α} {l : List (κ × α)}
    (f : κ × α → γ) (hf : ∀ old, l.lookup k = some old → f (k, old) = f (k, v))
    (hk : k ∈ keys l) : (set k v l).map f = l.map f := by
  induction l with
  | nil => cases hk
  | cons p rest ih =>
    obtain ⟨a, b⟩ := p
    rw [set]
    split
    · rename_i heq
      obtain rfl : k = a := eq_of_beq heq
      rw [List.map_cons, List.map_cons, ← hf b (by rw [lookup_cons_eq, if_pos heq])]
    · rename_i hne
      have hrest : k ∈ keys rest := by
        refine (List.mem_cons.mp hk).resolve_left ?_
        simpa using hne
      rw [List.map_cons, List.map_cons, ih (fun old hold => hf old ?_) hrest]
      rw [lookup_cons_eq, if_neg hne, hold]

theorem keys_set_of_mem {κ α : Type} [BEq κ] [LawfulBEq κ] {k : κ} {l : List (κ × α)}
    (h : k ∈ keys l) (v : α) : keys (set k v l) = keys l := by
  induction l with
  | nil => cases h
  | cons p rest ih =>
    rw [set]
    split
    · rfl
    · rename_i hk
      have hne : k ≠ p.1 := by simpa using hk
      exact congrArg (p.1 :: ·) (ih ((List.mem_cons.mp h).resolve_left hne))

theorem mem_set {κ α : Type} [BEq κ] [LawfulBEq κ] {k : κ} {v : α} {p : κ × α}
    {l : List (κ × α)} (h : p ∈ set k v l) : p = (k, v) ∨ p ∈ l := by
  induction l with
  | nil => exact Or.inl (List.mem_singleton.mp h)
  | cons q rest ih =>
    rw [set] at h
    split at h
    · rename_i hk
      rcases List.mem_cons.mp h with rfl | h
      · exact Or.inl (by rw [eq_of_beq hk])
      · exact Or.inr (List.mem_cons_of_mem q h)
    · rcases List.mem_cons.mp h with rfl | h
      · exact Or.inr List.mem_cons_self
      · exact (ih h).imp_right (List.mem_cons_of_mem q)

theorem keys_erase {κ α : Type} [BEq κ] (k : κ) (l : List (κ × α)) :
    keys (erase k l) = (keys l).filter fun j => !(k == j) := by
  rw [keys, erase, keys, List.filter_map]
  rfl

theorem mem_keys_erase {κ α : Type} [BEq κ] [LawfulBEq κ] {j k : κ} {l : List (κ × α)} :
    j ∈ keys (erase k l) ↔ j ∈ keys l ∧ j ≠ k := by
  rw [keys_erase, List.mem_filter]
  refine and_congr_right fun _ => ?_
  rw [Bool.not_eq_true', beq_eq_false_iff_ne]
  exact ne_comm

theorem nodup_keys_set {κ α : Type} [BEq κ] [LawfulBEq κ] {l : List (κ × α)}
    (h : (keys l).Nodup) (k : κ) (v : α) : (keys (set k v l)).Nodup := by
  by_cases hk : k ∈ keys l
  · rw [keys_set_of_mem hk]
    exact h
  · rw [set_of_not_mem hk, keys, List.map_append]
    exact List.Nodup.append h (List.nodup_singleton k) (List.disjoint_singleton.mpr hk)

theorem lookup_map_snd {κ α β : Type} [BEq κ] (f : α → β) (k : κ) (l : List (κ × α)) :
    (l.map fun p => (p.1, f p.2)).lookup k = (l.lookup k).map f := by
  induction l with
  | nil => rfl
  | cons p l ih =>
    rw [List.map_cons, List.lookup_cons, List.lookup_cons, ih]
    cases k == p.1 <;> rfl

theorem mem_keys_set {κ α : Type} [BEq κ] [LawfulBEq κ] {j k : κ} {v : α}
    {l : List (κ × α)} : j ∈ keys (set k v l) ↔ j = k ∨ j ∈ keys l := by
  by_cases hk : k ∈ keys l
  · rw [keys_set_of_mem hk]
    refine ⟨Or.inr, ?_⟩
    rintro (rfl | hj)
    · exact hk
    · exact hj
  · rw [set_of_not_mem hk, keys, List.map_append, List.mem_append, or_comm]
    simp [keys]

/-- Entries of different keys come one after another in the order in which they are set. -/
theorem foldl_set_of_nodup {κ α : Type} [BEq κ] [LawfulBEq κ] {before fields : List (κ × α)}
    (h : (keys (before ++ fields)).Nodup) :
    fields.foldl (fun done f => set f.1 f.2 done) before = before ++ fields := by
  induction fields generalizing before with
  | nil => exact (List.append_nil before).symm
  | cons f fields ih =>
    have hsplit : before ++ f :: fields = before ++ [f] ++ fields := by simp
    have hnew : f.1 ∉ keys before := by
      unfold keys at h
      rw [List.map_append, List.nodup_append] at h
      exact fun hmem => h.2.2 f.1 hmem f.1 (by simp) rfl
    rw [hsplit] at h ⊢
    rw [List.foldl_cons, set_of_not_mem hnew]
    exact ih h

section foldl

variable {κ α : Type} [BEq κ] [LawfulBEq κ] {before fields : List (κ × α)}

theorem nodup_keys_foldl_set (fields : List (κ × α)) {before : List (κ × α)}
    (h : (keys before).Nodup) :
    (keys (fields.foldl (fun done f => set f.1 f.2 done) before)).Nodup := by
  induction fields generalizing before with
  | nil => exact h
  | cons f fields ih => exact ih (nodup_keys_set h f.1 f.2)

theorem mem_foldl_set {p : κ × α}
    (h : p ∈ fields.foldl (fun done f => set f.1 f.2 done) before) :
    p ∈ before ∨ p ∈ fields := by
  induction fields generalizing before with
  | nil => exact .inl h
  | cons f fields ih =>
    rcases ih h with hset | hrest
    · rcases mem_set hset with rfl | hbefore
      · exact .inr List.mem_cons_self
      · exact .inl hbefore
    · exact .inr (List.mem_cons_of_mem f hrest)

/-- Where a key comes a second time, an entry is lost. -/
theorem length_foldl_set_lt (h : ¬(keys fields).Nodup) :
    (fields.foldl (fun done f => set f.1 f.2 done) []).length < fields.length := by
  have hnodup := @nodup_keys_foldl_set κ α _ _ fields [] List.nodup_nil
  have hsub : keys (fields.foldl (fun done f => set f.1 f.2 done) []) ⊆ keys fields := by
    intro k hk
    obtain ⟨p, hp, rfl⟩ := List.mem_map.mp hk
    exact List.mem_map_of_mem ((mem_foldl_set hp).resolve_left List.not_mem_nil)
  by_contra hlong
  have hperm := (hnodup.subperm hsub).perm_of_length_le (by simpa [keys] using hlong)
  exact h (hperm.nodup_iff.mp hnodup)

end foldl

end Keyed
end Tabulary
