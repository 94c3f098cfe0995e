import Tabulary.Proofs.Attempt
import Tabulary.Proofs.Table.Stage
import Tabulary.Store.Disk

/-!
What a disk that may refuse leaves of a change.

`Left` says that a part of a patch has reached a file, of which the rest may still wait; every step
that the disk stops leaves that much.  The counts of the refusals that are yet to come carry the
rest: a disk that has none left lets every step succeed, so that after a single refusal the file is
cut back and the flag set back.  Main statements: what the patches of an added, a deleted and a
replaced row come to (`triple_commit_add`, `triple_commit_delete`, `triple_commit_replace`).
-/

namespace Tabulary

open Attempt

namespace Reply

def isRefusal : Reply → Bool
  | refused _ => true
  | _ => false

end Reply

namespace Disk

/-- How many of the requests to come are refused. -/
def refusals (disk : Disk) : Nat := disk.replies.countP Reply.isRefusal

/-- Whether what is written is forced out, and how many requests are refused at most. -/
structure Within (forced : Bool) (n : Nat) (disk : Disk) : Prop where
  forced : disk.forced = forced
  refusals : disk.refusals ≤ n

end Disk

namespace Patch

variable {file bytes : Bytes} {offset : Nat}

theorem apply_of_le (h : offset ≤ file.length) :
    apply ⟨offset, bytes⟩ file =
      file.take offset ++ bytes ++ file.drop (offset + bytes.length) := by
  simp [apply, Nat.sub_eq_zero_of_le h]

/-- Writing a flag within the file changes one byte. -/
theorem apply_flagByte (h : offset < file.length) (deleted : Bool) :
    (Table.flag offset deleted).apply file = file.set offset (Record.flagByte deleted) := by
  rw [List.set_eq_take_append_cons_drop, if_pos h]
  simp [apply, Table.flag, Nat.sub_eq_zero_of_le (Nat.le_of_lt h)]

/-- Bytes that follow one another can be written one after another. -/
theorem apply_append (h : offset ≤ file.length) (first last : Bytes) :
    apply ⟨offset + first.length, last⟩ (apply ⟨offset, first⟩ file) =
      apply ⟨offset, first ++ last⟩ file := by
  have hfront : (file.take offset ++ first).length = offset + first.length := by simp [h]
  rw [apply_of_le h, apply_of_le (by simp [h]), apply_of_le h, ← hfront, List.take_left,
    List.drop_append, List.drop_of_length_le (by omega), List.drop_drop]
  simp
  omega

end Patch

namespace Draft

/-- So many bytes of a patch have reached a file, and the others wait at their place. -/
structure Passed (start : Bytes) (p : Patch) (k : Nat) (d : Draft) : Prop where
  file : d.file = Patch.apply ⟨p.offset, p.bytes.take k⟩ start
  pending : d.pending = p.bytes.drop k
  place : k < p.bytes.length → d.place = p.offset + k

/-- A file of which nothing waits to be written. -/
structure Clean (forced : Bool) (n : Nat) (file : Bytes) (d : Draft) : Prop where
  file : d.file = file
  pending : d.pending = []
  disk : d.disk.Within forced n

/-- A part of a patch has reached a file, and of the rest either all waits or none does. -/
structure Left (forced : Bool) (n : Nat) (start : Bytes) (p : Patch) (k : Nat) (d : Draft) :
    Prop where
  file : d.file = Patch.apply ⟨p.offset, p.bytes.take k⟩ start
  pending : d.pending = [] ∨ Passed start p k d
  disk : d.disk.Within forced n

variable {start file bytes : Bytes} {p : Patch} {k n slack offset : Nat} {d : Draft} {b : Bool}
  {rest : List Reply}

/-! ## Passing bytes on -/

theorem Passed.took (h : Passed start p k d) (hp : p.offset ≤ start.length)
    (hk : k < p.bytes.length) (taken : Nat) : Passed start p (k + taken) (d.took taken) where
  file := by
    have hlength : (p.bytes.take k).length = k := List.length_take_of_le (Nat.le_of_lt hk)
    show Patch.apply ⟨d.place, d.pending.take taken⟩ d.file = _
    rw [h.place hk, h.pending, h.file, List.take_add, ← Patch.apply_append hp, hlength]
  pending := by
    show d.pending.drop taken = _
    rw [h.pending, List.drop_drop]
  place _ := by
    show d.place + taken = _
    rw [h.place hk, Nat.add_assoc]

theorem Passed.facing (h : Passed start p k d) (replies : List Reply) :
    Passed start p k (d.facing replies) := ⟨h.file, h.pending, h.place⟩

theorem Passed.length_pending (h : Passed start p k d) : d.pending.length = p.bytes.length - k := by
  rw [h.pending, List.length_drop]

/-- Passing bytes on either leaves no more than the slack, or it is refused while more wait. -/
theorem pour_ends (slack : Nat) (hp : p.offset ≤ start.length) (replies : List Reply)
    (h : Passed start p k d) (hforced : d.disk.forced = b) :
    ∃ k', Passed start p k' (pour slack d replies).2 ∧
      (pour slack d replies).2.disk.forced = b ∧
      match (pour slack d replies).1 with
      | .ok _ => p.bytes.length ≤ k' + slack ∧
          (pour slack d replies).2.disk.refusals ≤ replies.countP Reply.isRefusal
      | .error _ => k' < p.bytes.length ∧
          (pour slack d replies).2.disk.refusals + 1 ≤ replies.countP Reply.isRefusal := by
  induction replies generalizing k d with
  | nil =>
    have hlength := h.length_pending
    unfold pour
    split
    · exact ⟨k, h.facing [], hforced, by omega, Nat.le_refl 0⟩
    · exact ⟨_, (h.took hp (by omega) _).facing [], hforced, by omega, Nat.le_refl 0⟩
  | cons reply rest ih =>
    have hlength := h.length_pending
    unfold pour
    split
    · exact ⟨k, h.facing _, hforced, by omega, Nat.le_refl _⟩
    · have hk : k < p.bytes.length := by omega
      cases reply with
      | granted => exact ⟨_, (h.took hp hk _).facing rest, hforced, by omega, Nat.le_refl _⟩
      | part taken =>
        rw [List.countP_cons_of_neg (by exact Bool.false_ne_true)]
        exact ih (h.took hp hk taken) hforced
      | refused why =>
        rw [List.countP_cons_of_pos (by rfl)]
        exact ⟨k, h.facing rest, hforced, hk, Nat.le_refl _⟩

/-- A draft of which a patch has been passed on in part, on such a disk. -/
def Passing (forced : Bool) (n : Nat) (start : Bytes) (p : Patch) (d : Draft) : Prop :=
  ∃ k, Passed start p k d ∧ d.disk.Within forced n

theorem triple_pass (hp : p.offset ≤ start.length) :
    Triple (Passing b n start p) (pass slack)
      (fun _ d => ∃ k, Passed start p k d ∧ p.bytes.length ≤ k + slack ∧ d.disk.Within b n)
      (fun d => ∃ k m, n = m + 1 ∧ Passed start p k d ∧ k < p.bytes.length ∧
        d.disk.Within b m) := by
  rintro d ⟨k, h, hdisk⟩
  obtain ⟨k', hpassed, hforced, hends⟩ := pour_ends slack hp d.disk.replies h hdisk.forced
  have hn := hdisk.refusals
  have hrun : (pass slack).run d = pour slack d d.disk.replies := rfl
  rw [hrun]
  generalize pour slack d d.disk.replies = ending at hpassed hforced hends ⊢
  obtain ⟨result, d'⟩ := ending
  unfold Disk.refusals at hn
  cases result with
  | ok =>
    obtain ⟨hslack, hrefusals⟩ := hends
    exact ⟨k', hpassed, hslack, hforced, Nat.le_trans hrefusals hn⟩
  | error =>
    obtain ⟨hk, hrefusals⟩ := hends
    exact ⟨k', n - 1, by omega, hpassed, hk, hforced, by dsimp only at hrefusals; omega⟩

/-- Moving on passes on all that waits. -/
theorem triple_flush_passing (hp : p.offset ≤ start.length) :
    Triple (Passing b n start p) flush (fun _ => Clean b n (p.apply start))
      (fun d => ∃ k m, n = m + 1 ∧ Passed start p k d ∧ k < p.bytes.length ∧
        d.disk.Within b m) := by
  refine (triple_pass hp).mono (fun _ h => h) (fun _ d h => ?_) fun _ h => h
  obtain ⟨k, hpassed, hk, hdisk⟩ := h
  refine ⟨?_, ?_, hdisk⟩
  · exact hpassed.file.trans (by rw [List.take_of_length_le (by exact hk)])
  · exact hpassed.pending.trans (List.drop_of_length_le hk)

theorem triple_flush_clean :
    Triple (Clean b n file) flush (fun _ => Clean b n file) fun _ => False := by
  have hnone : Patch.apply ⟨0, []⟩ file = file := Patch.apply_nil (Nat.zero_le _)
  refine (triple_flush_passing (p := ⟨0, []⟩) (b := b) (n := n) (Nat.zero_le file.length)).mono
    (fun d h => ?_) (fun _ d h => ?_) fun d h => ?_
  · exact ⟨0, ⟨h.file.trans hnone.symm, h.pending, fun hk => absurd hk (Nat.not_lt_zero 0)⟩,
      h.disk⟩
  · rwa [hnone] at h
  · obtain ⟨k, m, -, -, hk, -⟩ := h
    exact absurd hk (Nat.not_lt_zero k)

theorem triple_flush_left (hp : p.offset ≤ start.length) :
    Triple (fun d => ∃ k, Left b n start p k d) flush
      (fun _ d => ∃ k, Clean b n (Patch.apply ⟨p.offset, p.bytes.take k⟩ start) d)
      (fun d => ∃ m, n = m + 1 ∧ ∃ k, Left b m start p k d) := by
  refine .of_run fun d h => ?_
  obtain ⟨k, h⟩ := h
  rcases h.pending with hnone | hpassed
  · exact ⟨_, _, _, ⟨h.file, hnone, h.disk⟩, triple_flush_clean, fun _ _ h' => ⟨k, h'⟩,
      fun _ => False.elim⟩
  · refine ⟨_, _, _, ⟨k, hpassed, h.disk⟩, triple_flush_passing hp, fun _ _ h' => ?_,
      fun _ h' => ?_⟩
    · refine ⟨p.bytes.length, ?_⟩
      rwa [List.take_length]
    · obtain ⟨k', m, hn, hpassed', -, hdisk⟩ := h'
      exact ⟨m, hn, k', hpassed'.file, .inr hpassed', hdisk⟩

/-! ## One request after another -/

theorem triple_write (hp : p.offset ≤ file.length) :
    Triple (Clean b n file) (write p) (fun _ => Passing b n file p)
      (fun d => ∃ m, n = m + 1 ∧ ∃ k < p.bytes.length, Left b m file p k d) := by
  refine (triple_modify (Q := fun _ => Passing b n file p) fun d h => ?_).bind fun _ => ?_
  · refine ⟨0, ⟨?_, rfl, fun _ => rfl⟩, h.disk⟩
    rw [List.take_zero, Patch.apply_nil hp]
    exact h.file
  · refine ((triple_pass hp).mono (fun _ h => h) (fun _ d h => ?_) fun _ h => h).tryCatch
      fun why =>
      ?_
    · obtain ⟨k, hpassed, -, hdisk⟩ := h
      exact ⟨k, hpassed, hdisk⟩
    · refine (triple_modify fun d h => ?_).bind fun _ => triple_throw fun _ h => h
      obtain ⟨k, m, hn, hpassed, hk, hdisk⟩ := h
      exact ⟨m, hn, k, hk, hpassed.file, .inl rfl, hdisk⟩

theorem triple_request :
    Triple (Clean b n file) request (fun _ => Clean b n file)
      (fun d => ∃ m, n = m + 1 ∧ Clean b m file d) := by
  intro d h
  unfold request
  dsimp only
  have hn := h.disk.refusals
  unfold Disk.refusals at hn
  cases hreplies : d.disk.replies with
  | nil => exact h
  | cons reply rest =>
    rw [hreplies] at hn
    cases reply with
    | granted => exact ⟨h.file, h.pending, h.disk.forced, hn⟩
    | part taken => exact ⟨h.file, h.pending, h.disk.forced, hn⟩
    | refused why =>
      rw [List.countP_cons_of_pos (by rfl)] at hn
      exact ⟨n - 1, by omega, h.file, h.pending, h.disk.forced, Nat.le_sub_one_of_lt hn⟩

theorem triple_sync :
    Triple (Clean b n file) sync (fun _ => Clean b n file)
      (fun d => b = true ∧ ∃ m, n = m + 1 ∧ Clean b m file d) := by
  intro d h
  have hforced := h.disk.forced
  have hends := triple_request d h
  unfold sync
  rw [run_bind_of_ok (run_get d)]
  cases b with
  | false =>
    rw [if_neg (by simp [hforced])]
    exact h
  | true =>
    rw [if_pos hforced]
    generalize request.run d = ending at hends ⊢
    obtain ⟨result, d'⟩ := ending
    cases result with
    | ok => exact hends
    | error => exact ⟨rfl, hends⟩

theorem triple_put (hp : p.offset ≤ file.length) :
    Triple (Clean b n file) (put p) (fun _ => Clean b n (p.apply file))
      (fun d => ∃ m, n = m + 1 ∧
        ((∃ k < p.bytes.length, Left b m file p k d) ∨ b = true ∧
          Clean b m (p.apply file) d)) := by
  refine ((triple_write hp).mono (fun _ h => h) (fun _ _ h => h) fun d h => ?_).bind fun _ => ?_
  · obtain ⟨m, hn, hleft⟩ := h
    exact ⟨m, hn, .inl hleft⟩
  refine ((triple_flush_passing hp).mono (fun _ h => h) (fun _ _ h => h) fun d h => ?_).bind
    fun _ => ?_
  · obtain ⟨k, m, hn, hpassed, hk, hdisk⟩ := h
    exact ⟨m, hn, .inl ⟨k, hk, hpassed.file, .inr hpassed, hdisk⟩⟩
  refine triple_sync.mono (fun _ h => h) (fun _ _ h => h) fun d h => ?_
  obtain ⟨hforced, m, hn, hclean⟩ := h
  exact ⟨m, hn, .inr ⟨hforced, hclean⟩⟩

/-! ## A flag -/

theorem triple_put_flag (h : offset < file.length) (deleted : Bool) :
    Triple (Clean b n file) (put (Table.flag offset deleted))
      (fun _ => Clean b n (file.set offset (Record.flagByte deleted)))
      (fun d => ∃ m, n = m + 1 ∧
        (d.file = file ∨ b = true ∧ d.file = file.set offset (Record.flagByte deleted))) := by
  have hle : offset ≤ file.length := Nat.le_of_lt h
  refine (triple_put (p := Table.flag offset deleted) hle).mono (fun _ h => h) (fun _ d hd => ?_)
    fun d hd => ?_
  · rwa [Patch.apply_flagByte h] at hd
  · obtain ⟨m, hn, ⟨k, hk, hleft⟩ | ⟨hb, hclean⟩⟩ := hd
    · obtain rfl : k = 0 := Nat.lt_one_iff.mp hk
      refine ⟨m, hn, .inl (hleft.file.trans ?_)⟩
      rw [List.take_zero]
      exact Patch.apply_nil hle
    · refine ⟨m, hn, .inr ⟨hb, ?_⟩⟩
      rw [hclean.file, Patch.apply_flagByte h]

theorem triple_overwrite_flag (h : offset < file.length) (deleted : Bool) :
    Triple (Clean b n file) (overwrite (Table.flag offset deleted))
      (fun _ => Clean b n (file.set offset (Record.flagByte deleted)))
      (fun d => ∃ m, n = m + 1 ∧
        (d.file = file ∨ b = true ∧ d.file = file.set offset (Record.flagByte deleted))) :=
  (triple_flush_clean.mono (fun _ h => h) (fun _ _ h => h) fun _ => False.elim).bind fun _ =>
    triple_put_flag h deleted

/-! ## A record -/

theorem apply_take_end (file bytes : Bytes) (k : Nat) :
    Patch.apply ⟨file.length, bytes.take k⟩ file = file ++ bytes.take k :=
    Patch.apply_end file _

/-- Cutting the file back takes off whatever part of the record has reached it. -/
theorem triple_cut :
    Triple (fun d => ∃ k, Left b n file ⟨file.length, bytes⟩ k d) (cut file.length)
      (fun _ => Clean b n file)
      (fun d => ∃ m, n = m + 1 ∧ ∃ k, Left b m file ⟨file.length, bytes⟩ k d) := by
  refine (triple_flush_left (Nat.le_refl file.length)).bind fun _ => ?_
  refine .of_run fun d h => ?_
  obtain ⟨k, h⟩ := h
  rw [apply_take_end] at h
  refine ⟨_, _, _, h, triple_request.bind fun _ => triple_modify fun d' h' => ?_, fun _ _ h => h,
    fun d' h' => ?_⟩
  · refine ⟨?_, h'.pending, h'.disk⟩
    rw [h'.file]
    exact List.take_left
  · obtain ⟨m, hn, h'⟩ := h'
    exact ⟨m, hn, k, h'.file.trans (apply_take_end file bytes k).symm, .inl h'.pending, h'.disk⟩

/-- A record is appended whole or, where one request only is refused, not at all. -/
theorem triple_append (file bytes : Bytes) :
    Triple (Clean b n file) (append ⟨file.length, bytes⟩) (fun _ => Clean b n (file ++ bytes))
      (fun d => ∃ m, n = m + 1 ∧ (Clean b m file d ∨
        ∃ l, m = l + 1 ∧ ∃ k, Left b l file ⟨file.length, bytes⟩ k d)) := by
  have hput : Triple (Clean b n file) (put ⟨file.length, bytes⟩)
      (fun _ => Clean b n (file ++ bytes))
      (fun d => ∃ m, n = m + 1 ∧ ∃ k, Left b m file ⟨file.length, bytes⟩ k d) := by
    refine (triple_put (p := ⟨file.length, bytes⟩) (Nat.le_refl file.length)).mono
      (fun _ h => h) (fun _ d h => ?_) fun d h => ?_
    · rwa [Patch.apply_end] at h
    · obtain ⟨m, hn, ⟨k, -, h⟩ | ⟨-, h⟩⟩ := h
      · exact ⟨m, hn, k, h⟩
      · refine ⟨m, hn, bytes.length, h.file.trans ?_, .inl h.pending, h.disk⟩
        rw [List.take_length]
  refine (triple_flush_clean.mono (fun _ h => h) (fun _ _ h => h) fun _ => False.elim).bind fun _ =>
    ?_
  refine hput.tryCatch fun why => .of_run fun d h => ?_
  obtain ⟨m, hn, h⟩ := h
  refine ⟨_, fun _ _ => False, _, h,
    (triple_cut.mono (fun _ h => h) (fun _ _ h => h) fun d h => ?_).bind
    fun _ => triple_throw fun d h => ?_, fun _ _ => False.elim, fun _ h => h⟩
  · exact ⟨m, hn, .inr h⟩
  · exact ⟨m, hn, .inl h⟩

/-! ## A change -/

/-- What is left of a file where the flag at a place may have been set, and a part of a record
appended. -/
def Partly (file : Bytes) (offset : Nat) (bytes image : Bytes) : Prop :=
  ∃ front, (front = file ∨ front = file.set offset 1) ∧ ∃ k, image = front ++ bytes.take k

theorem partly_front {image : Bytes} (h : image = file ∨ image = file.set offset 1) :
    Partly file offset bytes image :=
  ⟨image, h, 0, by rw [List.take_zero, List.append_nil]⟩

theorem set_back (hlive : file[offset]? = some 0) : (file.set offset 1).set offset 0 = file := by
  obtain ⟨h, hvalue⟩ := List.getElem?_eq_some_iff.mp hlive
  rw [List.set_set, ← hvalue]
  exact List.set_getElem_self h

/-- Behind whatever part of a record, the flag is set back or it is not. -/
theorem triple_put_back (hlive : file[offset]? = some 0) (k : Nat) :
    Triple (Clean b n (file.set offset 1 ++ bytes.take k)) (put (Table.flag offset false))
      (fun _ d => Partly file offset bytes d.file) (fun d => Partly file offset bytes d.file) := by
  have h : offset < (file.set offset 1).length := by
    rw [List.length_set]
    exact (List.getElem?_eq_some_iff.mp hlive).1
  have hset : (file.set offset 1 ++ bytes.take k).set offset (Record.flagByte false) =
      file ++ bytes.take k := by
    rw [List.set_append_left _ _ h]
    exact congrArg (· ++ bytes.take k) (set_back hlive)
  refine (triple_put_flag (by rw [List.length_append]; omega) false).mono (fun _ h => h)
    (fun _ d h => ?_) fun d h => ?_
  · rw [hset] at h
    exact ⟨file, .inl rfl, k, h.file⟩
  · obtain ⟨m, -, h | ⟨-, h⟩⟩ := h
    · exact ⟨_, .inr rfl, k, h⟩
    · rw [hset] at h
      exact ⟨file, .inl rfl, k, h⟩

/-- Where a record was refused behind a flag, the flag is set back as far as the disk lets it. -/
theorem triple_restore (hlive : file[offset]? = some 0) (why : DiskFault)
    {Q : Unit → Draft → Prop} :
    Triple
      (fun d => Clean b n (file.set offset 1) d ∨
        ∃ l, n = l + 1 ∧ ∃ k, Left b l (file.set offset 1) ⟨file.length, bytes⟩ k d)
      (do overwrite (Table.flag offset false); throw why) Q
      (fun d => Partly file offset bytes d.file ∧ (n = 0 → d.file = file)) := by
  have hlength : (file.set offset 1).length = file.length := List.length_set
  have hend (k : Nat) : Patch.apply ⟨file.length, bytes.take k⟩ (file.set offset 1) =
      file.set offset 1 ++ bytes.take k := by
    rw [← hlength]
    exact apply_take_end _ bytes k
  refine .of_run fun d h => ?_
  rcases h with h | ⟨l, hn, h⟩
  · have hoffset : offset < (file.set offset 1).length := by
      rw [hlength]
      exact (List.getElem?_eq_some_iff.mp hlive).1
    refine ⟨_, Q, _, h, ((triple_overwrite_flag hoffset false).mono (fun _ h => h)
      (fun _ _ h => h)
      fun d h => ?_).bind fun _ => triple_throw fun d h => ?_, fun _ _ h => h, fun _ h => h⟩
    · obtain ⟨m, hn, h⟩ := h
      refine ⟨partly_front ?_, fun hzero => by omega⟩
      rcases h with h | ⟨-, h⟩
      · exact .inr h
      · exact .inl (h.trans (set_back hlive))
    · have hfile := h.file.trans (set_back hlive)
      exact ⟨partly_front (.inl hfile), fun _ => hfile⟩
  · have hflush : Triple (fun d => ∃ k, Left b l (file.set offset 1)
        ⟨file.length, bytes⟩ k d) flush
        (fun _ d => ∃ k, Clean b l (file.set offset 1 ++ bytes.take k) d)
        (fun d => Partly file offset bytes d.file) := by
      refine (triple_flush_left (p := ⟨file.length, bytes⟩) (Nat.le_of_eq hlength.symm)).mono
        (fun _ h => h) (fun _ d h => ?_) fun d h => ?_
      · obtain ⟨k, h⟩ := h
        exact ⟨k, hend k ▸ h⟩
      · obtain ⟨m, -, k, h⟩ := h
        exact ⟨_, .inr rfl, k, h.file.trans (hend k)⟩
    have hput : Triple (fun d => ∃ k, Clean b l (file.set offset 1 ++ bytes.take k) d)
        (put (Table.flag offset false)) (fun _ d => Partly file offset bytes d.file)
        (fun d => Partly file offset bytes d.file) := by
      refine .of_run fun d h => ?_
      obtain ⟨k, h⟩ := h
      exact ⟨_, _, _, h, triple_put_back hlive k, fun _ _ h => h, fun _ h => h⟩
    have hback : Triple (fun d => ∃ k, Left b l (file.set offset 1) ⟨file.length, bytes⟩ k d)
        (do overwrite (Table.flag offset false); throw why) Q
        (fun d => Partly file offset bytes d.file) :=
      (hflush.bind fun _ => hput).bind fun _ => triple_throw fun _ h => h
    exact ⟨_, _, _, h, hback, fun _ _ h => h, fun d h => ⟨h, fun hzero => by omega⟩⟩

theorem commit_record (stop : Nat) (bytes : Bytes) :
    commit stop [⟨stop, bytes⟩] = (do append ⟨stop, bytes⟩; pure ()) :=
    if_neg (Nat.lt_irrefl stop)

theorem commit_flag {stop : Nat} (h : offset < stop) (ps : List Patch) :
    commit stop (Table.flag offset true :: ps) = (do
      overwrite (Table.flag offset true)
      tryCatch (commit stop ps) fun why => do
        overwrite (Table.flag offset false)
        throw why) := if_pos h

theorem triple_commit_add :
    Triple (Clean b n file) (commit file.length [⟨file.length, bytes⟩])
      (fun _ => Clean b n (file ++ bytes))
      (fun d => 0 < n ∧ (∃ k, d.file = file ++ bytes.take k) ∧
        (n = 1 → d.file = file)) := by
  rw [commit_record]
  refine ((triple_append file bytes).mono (fun _ h => h) (fun _ _ h => h) fun d h => ?_).bind
    fun _ => triple_pure fun _ h => h
  obtain ⟨m, hn, h | ⟨l, hm, k, h⟩⟩ := h
  · exact ⟨by omega, ⟨0, by rw [List.take_zero, List.append_nil, h.file]⟩, fun _ => h.file⟩
  · exact ⟨by omega, ⟨k, h.file.trans (apply_take_end file bytes k)⟩, fun hone => by omega⟩

theorem triple_commit_delete (h : offset < file.length) :
    Triple (Clean b n file) (commit file.length [Table.flag offset true])
      (fun _ => Clean b n (file.set offset 1))
      (fun d => 0 < n ∧ (d.file = file ∨ b = true ∧ d.file = file.set offset 1)) := by
  rw [commit_flag h]
  refine ((triple_overwrite_flag h true).mono (fun _ h => h) (fun _ _ h => h) fun d h => ?_).bind
    fun _ => ?_
  · obtain ⟨m, hn, h⟩ := h
    exact ⟨by omega, h⟩
  · exact triple_pure fun _ h => h

theorem triple_commit_replace (hlive : file[offset]? = some 0) :
    Triple (Clean b n file) (commit file.length [Table.flag offset true, ⟨file.length, bytes⟩])
      (fun _ => Clean b n (file.set offset 1 ++ bytes))
      (fun d => 0 < n ∧ Partly file offset bytes d.file ∧
        (n = 1 → b = false → d.file = file)) := by
  have hoffset : offset < file.length := (List.getElem?_eq_some_iff.mp hlive).1
  have happend := triple_append (b := b) (n := n) (file.set offset 1) bytes
  rw [List.length_set] at happend
  rw [commit_flag hoffset, commit_record]
  refine ((triple_overwrite_flag hoffset true).mono (fun _ h => h)
    (fun _ _ h => h) fun d h => ?_).bind fun _ => ?_
  · obtain ⟨m, hn, h⟩ := h
    refine ⟨by omega, partly_front (h.imp_right fun h => h.2), fun _ hb => ?_⟩
    rcases h with h | ⟨hforced, -⟩
    · exact h
    · cases hb.symm.trans hforced
  · have hrecord := happend.bind fun _ => triple_pure (a := ())
      (Q := fun _ => Clean b n _) fun _ h => h
    refine hrecord.tryCatch fun why => .of_run fun d h => ?_
    obtain ⟨m, hn, h⟩ := h
    refine ⟨_, _, _, h, triple_restore hlive why, fun _ _ h => h, fun d h => ?_⟩
    exact ⟨by omega, h.1, fun hone _ => h.2 (by omega)⟩

end Draft
end Tabulary
