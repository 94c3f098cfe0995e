import Tabulary.Proofs.Catalog.Registry
import Tabulary.Proofs.Store.Lifecycle

/-!
Closing.  Whatever is open is closed, and the files stay as they are.
-/

namespace Tabulary

/-- All tables are closed one after another. -/
theorem Tables.run_close (ts : Tables) (w : World) :
    ∃ y, (onEach Store.close).run (ts, w) = (.ok (), y) ∧ y.2.files = w.files := by
  have hstep : ∀ name ∈ Keyed.keys ts, ∀ x : Tables × World,
      (Keyed.keys x.1 = Keyed.keys ts ∧ x.2.files = w.files) →
        ∃ x', (on name Store.close).run x = (.ok (), x') ∧
          Keyed.keys x'.1 = Keyed.keys ts ∧ x'.2.files = w.files := by
    rintro name hname ⟨ts₁, w₁⟩ ⟨hkeys, hfiles⟩
    have hname₁ : name ∈ Keyed.keys ts₁ := hkeys ▸ hname
    obtain ⟨st, hst⟩ := Keyed.exists_lookup hname₁
    obtain ⟨w₂, hclose, hsame⟩ := Store.run_close st w₁
    refine ⟨(Keyed.set name { st with handle := none } ts₁, w₂), ?_, ?_, hsame.trans hfiles⟩
    · rw [Tables.run_on hst, hclose]
    · exact (Keyed.keys_set_of_mem hname₁ _).trans hkeys
  have hstart : Keyed.keys ts = Keyed.keys ts ∧ w.files = w.files := ⟨rfl, rfl⟩
  obtain ⟨y, hrun, -, hfiles⟩ := Attempt.exists_run_forM hstep (s := (ts, w)) hstart
  exact ⟨y, hrun, hfiles⟩

theorem Database.run_close (d : Database) (w : World) :
    ∃ y, close.run (d, w) = (.ok (), y) ∧ y.2.files = w.files := by
  obtain ⟨⟨ts, w'⟩, hrun, hfiles⟩ := Tables.run_close d.tables w
  refine ⟨({ d with tables := ts }, w'), ?_, hfiles⟩
  show (((Tables.onEach Store.close).run (d.tables, w)).1,
    ({ d with tables := ((Tables.onEach Store.close).run (d.tables, w)).2.1 },
      ((Tables.onEach Store.close).run (d.tables, w)).2.2)) = _
  rw [hrun]

/-- All databases are closed one after another, and none is open then. -/
theorem Registry.run_close (r : Registry) (w : World) :
    ∃ w', close.run (r, w) = (.ok (), (⟨r.dataDir, []⟩, w')) ∧ w'.files = w.files := by
  have hstep : ∀ name ∈ r.names, ∀ x : Registry × World,
      (x.1.dataDir = r.dataDir ∧ x.1.names = r.names ∧ x.2.files = w.files) →
        ∃ x', (on name Database.close).run x = (.ok (), x') ∧
          x'.1.dataDir = r.dataDir ∧ x'.1.names = r.names ∧ x'.2.files = w.files := by
    rintro name hname ⟨r₁, w₁⟩ ⟨hdir, hnames, hfiles⟩
    rw [← hnames] at hname
    have hname₁ : name ∈ Keyed.keys r₁.databases := hname
    obtain ⟨d, hd⟩ := Keyed.exists_lookup hname₁
    obtain ⟨y, hclose, hsame⟩ := Database.run_close d w₁
    refine ⟨({ r₁ with databases := Keyed.set name y.1 r₁.databases }, y.2), ?_, hdir, ?_,
      hsame.trans hfiles⟩
    · rw [Registry.run_on hd, hclose]
    · exact (Keyed.keys_set_of_mem hname₁ y.1).trans hnames
  have hstart : r.dataDir = r.dataDir ∧ r.names = r.names ∧ w.files = w.files :=
    ⟨rfl, rfl, rfl⟩
  obtain ⟨⟨r₁, w₁⟩, hrun, hdir, -, hfiles⟩ :=
    Attempt.exists_run_forM hstep (s := (r, w)) hstart
  refine ⟨w₁, ?_, hfiles⟩
  dsimp only at hdir
  unfold close
  rw [Attempt.run_bind_of_ok (Work.run_state _), Attempt.run_bind_of_ok hrun, ← hdir]
  rfl

end Tabulary
