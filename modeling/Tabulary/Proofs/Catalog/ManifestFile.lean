import Tabulary.Proofs.Catalog.Database
import Tabulary.Proofs.Catalog.Manifest
import Tabulary.Proofs.Catalog.ManifestText
import Tabulary.Proofs.Files.Local

/-!
The manifest as the catalog writes it.  Main statement: what a database writes for its tables is
read as the same database with the same tables in the same order, each in the file of its name, and
each entry gives its schema back (`Database.saved_manifest`).  A manifest that cannot be written
leaves the old one (`Database.saveManifest_cases`).
-/

namespace Tabulary

namespace Manifest

/-- Building normalizes the columns, so what the manifest leaves out of a built schema is what
building puts back. -/
theorem map_toSchema {schemas : List Schema}
    (h : ∀ s ∈ schemas, ∃ name columns, Schema.build name columns = .ok s) :
    (schemas.map Table.ofSchema).map Table.toSchema = schemas.map .ok := by
  rw [List.map_map]
  refine List.map_congr_left fun s hs => ?_
  obtain ⟨name, columns, hbuild⟩ := h s hs
  exact Table.toSchema_ofSchema hbuild

end Manifest

namespace Database

open Attempt Files

variable {d : Database} {w : World} {x : Database × World}

/-- The manifest's text is what a file system holds at its place once it has been saved. -/
theorem read_manifestPath (h : saveManifest.run (d, w) = (.ok (), x)) :
    x.2.files.read d.manifestPath = .ok (Text.toBytes d.manifest.render) := by
  unfold saveManifest at h
  rw [Attempt.run_bind_of_ok (Work.run_state _), Attempt.run_bind, Work.run_change] at h
  dsimp only at h
  cases hwrite : w.files.write d.draftPath (Text.toBytes d.manifest.render) with
  | error e =>
    rw [hwrite] at h
    cases h
  | ok fs₁ =>
    rw [hwrite] at h
    dsimp only at h
    rw [Work.run_change] at h
    dsimp only at h
    cases hmove : fs₁.move d.draftPath d.manifestPath with
    | error e =>
      rw [hmove] at h
      cases h
    | ok fs₂ =>
      rw [hmove] at h
      cases h
      obtain ⟨node, hopen, hbytes⟩ := Files.openFile_of_write hwrite
      obtain ⟨hopen', hbytes'⟩ := Files.openFile_of_move hmove hopen
      show (Files.read fs₂ d.manifestPath) = _
      rw [Files.read, hopen']
      show Except.ok (fs₂.nodeBytes node) = _
      rw [hbytes', hbytes]

/-- Writing the manifest either fails, and at most the draft has been written, or the draft has
become the manifest. -/
theorem saveManifest_cases (d : Database) (hs : w.files.Sane) :
    (∃ e w', saveManifest.run (d, w) = (.error e, (d, w')) ∧ w'.metrics = w.metrics ∧
        Local d.directory [draftName] w.files w'.files ∧
        (hasNul d.directory = false → e.isFileFailure = true)) ∨
      ∃ w', saveManifest.run (d, w) = (.ok (), (d, w')) ∧ w'.metrics = w.metrics ∧
        Local d.directory [draftName, manifestName] w.files w'.files := by
  have hrun : saveManifest.run (d, w) = (do
      Work.change fun fs => fs.write d.draftPath (Text.toBytes d.manifest.render)
      Work.change fun fs => fs.move d.draftPath d.manifestPath : Work Database Unit).run (d, w) :=
      rfl
  rw [hrun, run_bind, Work.run_change]
  dsimp only
  cases hwrite : w.files.write d.draftPath (Text.toBytes d.manifest.render) with
  | error e =>
    refine Or.inl ⟨e, w, rfl, rfl, .refl hs, fun hnul => ?_⟩
    exact isFileFailure_of_write (hasNul_child hnul (by decide)) hwrite
  | ok fs₁ =>
    have hlocal : Local d.directory [draftName] w.files fs₁ := local_write hs hwrite
    dsimp only
    rw [Work.run_change]
    dsimp only
    cases hmove : fs₁.move d.draftPath d.manifestPath with
    | error e =>
      refine Or.inl ⟨e, { w with files := fs₁ }, rfl, rfl, hlocal, fun hnul => ?_⟩
      exact isFileFailure_of_move (hasNul_child hnul (by decide))
        (hasNul_child hnul (by decide)) hmove
    | ok fs₂ =>
      obtain ⟨node, hopen, -⟩ := openFile_of_write hwrite
      refine Or.inr ⟨{ w with files := fs₂ }, rfl, rfl, (hlocal.mono (by simp)).trans ?_⟩
      exact local_move hlocal.sane plain_draftName.down plain_manifestName.down
        draftName_ne_manifestName hopen hmove

/-- What a database writes for tables whose schemas were built is read as that database with those
tables, in their order and each in the file of its name, and each entry gives its schema back. -/
theorem saved_manifest (name : String) {schemas : List Schema}
    (hbuilt : ∀ s ∈ schemas, ∃ table columns, Schema.build table columns = .ok s) :
    ∃ m : Manifest, m.database = name ∧
      m.tables.map (fun t => (t.name, t.file)) =
      schemas.map (fun s => (s.name, Name.tableFile s.name)) ∧
      m.tables.map (·.toSchema) = schemas.map .ok ∧
      Manifest.ofBytes (Text.toBytes m.render) = .ok m ∧
      ∀ (d : Database) w x, d.name = name → d.tables.map (·.2.schema) = schemas →
        saveManifest.run (d, w) = (.ok (), x) →
        x.2.files.read d.manifestPath = .ok (Text.toBytes m.render) := by
  refine ⟨⟨name, schemas.map .ofSchema⟩, rfl, ?_, Manifest.map_toSchema hbuilt,
    Manifest.ofBytes_render _, fun d w x hname htables hrun => ?_⟩
  · rw [List.map_map]
    rfl
  · have hmanifest : d.manifest = ⟨name, schemas.map .ofSchema⟩ := by
      rw [manifest, hname, ← htables, List.map_map]
      rfl
    rw [← hmanifest]
    exact read_manifestPath hrun

/-- A table with quotes, a backslash and a line feed in its name, and its key defined last. -/
def quirky : Schema :=
  ⟨"a \"b\" \\ c\nd", [⟨"id", .integer, true, false⟩,
    ⟨"größe", .text, false, true⟩], by decide⟩

theorem build_quirky :
    Schema.build quirky.name [⟨"größe", .text, false, true⟩,
      ⟨"id", .integer, true, true⟩] =
    .ok quirky := rfl

theorem saved_manifest_quirky :
    (∀ s ∈ [quirky], ∃ table columns, Schema.build table columns = .ok s) ∧
    ∃ m : Manifest, m.database = "münchen\t\x00" ∧
      m.tables.map (fun t => (t.name, t.file)) = [(quirky.name, Name.tableFile quirky.name)] ∧
      m.tables.map (·.toSchema) = [.ok quirky] ∧
      Manifest.ofBytes (Text.toBytes m.render) = .ok m ∧
      ∀ (d : Database) w x, d.name = "münchen\t\x00" →
        d.tables.map (·.2.schema) = [quirky] →
        saveManifest.run (d, w) = (.ok (), x) →
        x.2.files.read d.manifestPath = .ok (Text.toBytes m.render) := by
  have hbuilt : ∀ s ∈ [quirky], ∃ table columns, Schema.build table columns = .ok s := by
    intro s hs
    obtain rfl := List.mem_singleton.mp hs
    exact ⟨_, _, build_quirky⟩
  exact ⟨hbuilt, saved_manifest "münchen\t\x00" hbuilt⟩

end Database
end Tabulary
