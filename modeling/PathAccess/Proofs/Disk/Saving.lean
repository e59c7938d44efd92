import PathAccess.Disk.FileStore
import PathAccess.Proofs.Disk.Directories
/-!
# Saving is all or nothing

A database is saved in steps, and each of them may fail and leave something different behind. What the disk
holds is told by the steps that are still to come (`Stage`): before a temporary file is created the files are
those of the beginning, then there is one more, and when no step is left the content stands under the name of
the file. Every step leads from one stage to the next (`Stage.step`), and wherever the steps stop, clearing away
the temporary file gives the files of the beginning (`Stage.files_cleared`, `Stage.files_struck`). This is where
it matters that the temporary file is a new one (`isFile_temporaryPath`), since to set an entry and to remove it
again gives back the same mapping only if the key was not there.

None of this reads the content, so it holds for every way of writing a document as a text.
-/

namespace PathAccess

namespace Disk

variable {d : Disk} {path : String}

theorem isFile_eq_false_iff : d.isFile path = false ↔ path ∉ Entries.keys d.files := by
  rw [← Entries.find?_eq_none_iff, isFile, Entries.has, Option.isSome_eq_false_iff, Option.isNone_iff_eq_none]

/-! ### The temporary file is new -/

theorem le_foldl_max {ns : List Nat} {n bound : Nat} (h : n ∈ ns ∨ n ≤ bound) :
    n ≤ ns.foldl Nat.max bound := by
  induction ns generalizing bound with
  | nil => simpa using h
  | cons m ns ih =>
    refine ih ?_
    rcases h with h | h
    · rcases List.mem_cons.1 h with rfl | h
      · exact .inr (Nat.le_max_right _ _)
      · exact .inl h
    · exact .inr (Nat.le_trans h (Nat.le_max_left _ _))

theorem length_le_length_below (directory name : String) :
    name.length ≤ (FilePath.below directory name).length := by
  rw [FilePath.below]
  split
  · exact Nat.le_refl _
  · split <;> simp only [String.length_append] <;> omega

/-- **No file has the path of the temporary one**, which is longer than all of theirs. -/
theorem isFile_temporaryPath (d : Disk) (path : String) : d.isFile (d.temporaryPath path) = false := by
  rw [isFile_eq_false_iff]
  intro hmem
  have hle : (d.temporaryPath path).length ≤ ((Entries.keys d.files).map String.length).foldl Nat.max 0 :=
    le_foldl_max (.inl (List.mem_map_of_mem hmem))
  have hlt : ((Entries.keys d.files).map String.length).foldl Nat.max 0 < (d.temporaryPath path).length := by
    refine Nat.lt_of_lt_of_le ?_ (length_le_length_below _ _)
    have hdot : 0 < ".".length := by decide
    simp only [String.length_append, String.length_ofList, List.length_replicate]
    omega
  exact absurd hle (Nat.not_le_of_lt hlt)

/-! ### Making a directory -/

/-- To make a directory leaves the files alone. -/
theorem files_of_makeDirectory {d' : Disk} (h : d.makeDirectory path = .ok d') : d'.files = d.files := by
  rw [makeDirectory] at h
  split at h
  · exact Except.ok.inj h ▸ rfl
  split at h
  · cases h
  split at h
  · cases h
  · exact Except.ok.inj h ▸ rfl

end Disk

namespace Replacing

variable {d : Disk} {path content : String} {steps : List DiskStep} {s : DiskStep} {r r' : Replacing}

/-- How far the replacement of a file has come, told by the steps that are left: what the files are, from those
of the disk at the beginning, and whether there is a temporary file. -/
inductive Stage (d : Disk) (path content : String) : List DiskStep → Replacing → Prop
  /-- Nothing has been done. -/
  | begun {disk : Disk} (files : disk.files = d.files) : Stage d path content DiskStep.all { disk }
  /-- There is a directory for the file. -/
  | prepared {disk : Disk} (files : disk.files = d.files) :
      Stage d path content [.createTemporary, .writeTemporary, .moveIntoPlace] { disk }
  /-- There is an empty temporary file. -/
  | created {disk : Disk} {temporary : String} (new : d.isFile temporary = false)
      (files : disk.files = Entries.set d.files temporary "") :
      Stage d path content [.writeTemporary, .moveIntoPlace] { disk, temporary := some temporary }
  /-- The temporary file has the content. -/
  | written {disk : Disk} {temporary : String} (new : d.isFile temporary = false)
      (files : disk.files = Entries.set d.files temporary content) :
      Stage d path content [.moveIntoPlace] { disk, temporary := some temporary }
  /-- The file has the content. -/
  | replaced {disk : Disk} (files : disk.files = Entries.set d.files path content) :
      Stage d path content [] { disk }

/-- A new file that is removed again was never there. -/
theorem files_cleared_of_new {disk : Disk} {temporary text : String} (hnew : d.isFile temporary = false)
    (hfiles : disk.files = Entries.set d.files temporary text) :
    (cleared { disk, temporary := some temporary }).files = d.files := by
  have hisFile : disk.isFile temporary = true := by
    rw [Disk.isFile, Entries.has, hfiles, Entries.find?_set_self]
    rfl
  simp only [cleared, hisFile, if_true, Disk.remove, hfiles]
  exact Entries.remove_set_of_notMem (Disk.isFile_eq_false_iff.1 hnew) text

/-- **Where a step is left, no file has changed** but for the temporary one. -/
theorem Stage.files_cleared (h : Stage d path content (s :: steps) r) : r.cleared.files = d.files := by
  cases h with
  | begun hfiles => exact hfiles
  | prepared hfiles => exact hfiles
  | created hnew hfiles => exact files_cleared_of_new hnew hfiles
  | written hnew hfiles => exact files_cleared_of_new hnew hfiles

/-- **And so it is where a fault strikes**, also if only part of the content was written. -/
theorem Stage.files_struck (h : Stage d path content (s :: steps) r) {f : DiskFault} (hf : f.step = s) :
    (r.struck content f).cleared.files = d.files := by
  have hcleared := h.files_cleared
  cases h with
  | begun hfiles => simpa [struck, hf] using hcleared
  | prepared hfiles => simpa [struck, hf] using hcleared
  | @created disk temporary hnew hfiles =>
    simp only [struck, hf]
    have hwritten : (disk.write temporary (String.ofList (content.toList.take f.written))).files =
        Entries.set d.files temporary (String.ofList (content.toList.take f.written)) := by
      rw [Disk.write, hfiles, Entries.set_set]
    exact files_cleared_of_new hnew hwritten
  | written hnew hfiles => simpa [struck, hf] using hcleared

/-- **A step leads to the next stage.** -/
theorem Stage.step (h : Stage d path content (s :: steps) r) (hstep : r.step path content s = .ok r') :
    Stage d path content steps r' := by
  cases h with
  | @begun disk hfiles =>
    cases hmade : disk.makeDirectory (FilePath.parent path) with
    | error cause =>
      rw [Replacing.step, hmade] at hstep
      cases hstep
    | ok disk' =>
      rw [Replacing.step, hmade] at hstep
      obtain rfl := Except.ok.inj hstep
      exact .prepared ((Disk.files_of_makeDirectory hmade).trans hfiles)
  | @prepared disk hfiles =>
    obtain rfl := Except.ok.inj hstep
    have hnew : d.isFile (disk.temporaryPath path) = false := by
      have := disk.isFile_temporaryPath path
      rwa [Disk.isFile, hfiles] at this
    exact .created hnew (by rw [Disk.write, hfiles])
  | created hnew hfiles =>
    obtain rfl := Except.ok.inj hstep
    exact .written hnew (by rw [Disk.write, hfiles, Entries.set_set])
  | @written disk temporary hnew hfiles =>
    simp only [Replacing.step] at hstep
    split at hstep
    · cases hstep
    obtain rfl := Except.ok.inj hstep
    have hmoved : disk.content? temporary = some content := by
      rw [Disk.content?, hfiles, Entries.find?_set_self]
    have hremoved : (disk.remove temporary).files = d.files := by
      rw [Disk.remove, hfiles]
      exact Entries.remove_set_of_notMem (Disk.isFile_eq_false_iff.1 hnew) content
    exact .replaced (by rw [Disk.write, hmoved, hremoved, Option.getD_some])

/-- **Steps are all taken or leave nothing.** -/
theorem Stage.run (fault : Option DiskFault) (h : Stage d path content steps r) :
    match run path content fault r steps with
    | (.ok _, r) => Stage d path content [] r
    | (.error _, r) => r.cleared.files = d.files := by
  induction steps generalizing r with
  | nil => exact h
  | cons s steps ih =>
    rw [Replacing.run]
    cases hfault : fault.filter (·.step == s) with
    | some f =>
      have hf : f.step = s := by simpa using (Option.filter_eq_some_iff.1 hfault).2
      exact h.files_struck hf
    | none =>
      cases hstep : r.step path content s with
      | error cause => exact h.files_cleared
      | ok r' => exact ih (h.step hstep)

/-- Where a fault is bound to strike, the steps do not come to their end. -/
theorem run_ne_ok {f : DiskFault} (h : f.step ∈ steps) (r : Replacing) :
    (run path content (some f) r steps).1 ≠ .ok () := by
  induction steps generalizing r with
  | nil => exact absurd h List.not_mem_nil
  | cons s steps ih =>
    by_cases hs : f.step = s
    · simp [run, Option.filter, hs]
    · have hrest := ih (List.mem_of_ne_of_mem hs h)
      cases hstep : r.step path content s with
      | error cause => simp [run, Option.filter, hs, hstep]
      | ok r' => simpa [run, Option.filter, hs, hstep] using hrest r'

end Replacing

namespace Disk

variable (d : Disk) (fault : Option DiskFault) (path content : String)

/-- **A file is replaced as a whole or not at all.** -/
theorem files_replace :
    match d.replace fault path content with
    | (.ok _, d') => d'.files = Entries.set d.files path content
    | (.error _, d') => d'.files = d.files := by
  have hbegun : Replacing.Stage d path content DiskStep.all { disk := d } := .begun rfl
  have hrun := hbegun.run fault
  rw [replace]
  rcases hresult : Replacing.run path content fault { disk := d } DiskStep.all with ⟨cause | _, r⟩ <;>
    rw [hresult] at hrun
  · exact hrun
  · cases hrun with
    | replaced hfiles => exact hfiles

/-- **A file is replaced exactly if** no fault strikes, there can be a directory for it, and it is no directory
itself. -/
theorem replace_eq_ok_iff :
    (d.replace fault path content).1 = .ok () ↔
      fault = none ∧ (∃ d', d.makeDirectory (FilePath.parent path) = .ok d') ∧ d.isDirectory path = false := by
  cases fault with
  | some f =>
    have hmem : f.step ∈ DiskStep.all := by cases f.step <;> decide
    simpa [replace] using Replacing.run_ne_ok hmem { disk := d }
  | none =>
    cases hmade : d.makeDirectory (FilePath.parent path) with
    | error cause => simp [replace, DiskStep.all, Replacing.run, Replacing.step, Except.map, hmade]
    | ok d' =>
      have hdirectory := isDirectory_write_temporaryPath hmade content
      cases hpath : d.isDirectory path <;>
        simp [replace, DiskStep.all, Replacing.run, Replacing.step, Except.map, hmade, write_write, hdirectory, hpath]

end Disk

namespace FileStore

variable (s : FileStore) (d : Disk) (fault : Option DiskFault) (db : Database)

/-- **Saving is all or nothing**, whichever step fails and however much was written by then. Either the file
holds the document of the database and every other file is as before, or the error says that the file could not
be written, and all files are as before, a temporary one not being among them. It is the first exactly if no
fault strikes, there can be a directory for the file, and it is no directory itself. -/
theorem save_all_or_nothing :
    (match s.save d fault db with
      | (.ok _, d') => ∀ path, d'.content? path =
          if path = s.path then some (s.print db.toDocument) else d.content? path
      | (.error e, d') => (∃ cause, e = .unwritable s.path cause) ∧ d'.files = d.files) ∧
    ((s.save d fault db).1 = .ok () ↔
      fault = none ∧ (∃ d', d.makeDirectory (FilePath.parent s.path) = .ok d') ∧
        d.isDirectory s.path = false) := by
  have hfiles := d.files_replace fault s.path (s.print db.toDocument)
  have hok := d.replace_eq_ok_iff fault s.path (s.print db.toDocument)
  rw [save, saveDocument]
  rcases hresult : d.replace fault s.path (s.print db.toDocument) with ⟨cause | _, d'⟩ <;>
    rw [hresult] at hfiles hok
  · exact ⟨⟨⟨cause, rfl⟩, hfiles⟩, by simpa using hok⟩
  · refine ⟨fun path ↦ ?_, by simpa using hok⟩
    rw [Disk.content?, hfiles, Entries.find?_set]
    rfl

end FileStore

end PathAccess
