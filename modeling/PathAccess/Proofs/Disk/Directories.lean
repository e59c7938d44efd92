import PathAccess.Disk.Basic
import PathAccess.Proofs.Entries
import PathAccess.Proofs.Path.Append
/-!
# Directories that are made for a file

Where a file is replaced, its directory is made first and a temporary file is created there. Both bring
directories with them: the one that is made, and those around it and around the temporary file. None of them
has the path of the file itself (`isDirectory_write_temporaryPath`), so whether the file could take its name is
known before the first step.

Paths are told apart by the number of their parts. What a path in normal form was made of is read off it again
(`parts_ofParts`), so that the directory of a path has one part less, and what is around a path has fewer parts
than it.
-/

namespace PathAccess

namespace FilePath

/-! ### The parts of a path -/

theorem parts_append_slash (s t : String) : parts (s ++ "/" ++ t) = parts s ++ parts t := by
  rw [parts, Text.splitAt_slash, List.filter_append]
  rfl

theorem slash_notMem_of_mem_parts {s part : String} (h : part ∈ parts s) : '/' ∉ part.toList :=
  Text.notMem_of_mem_splitAt (List.mem_of_mem_filter h)

theorem parts_of_notMem {s : String} (h : '/' ∉ s.toList) :
    parts s = [s].filter fun part ↦ part != "" && part != "." := by
  rw [parts, Text.splitAt, Text.splitAt_go_of_notMem h]
  simp

theorem length_parts_le_one {s : String} (h : '/' ∉ s.toList) : (parts s).length ≤ 1 := by
  rw [parts_of_notMem h]
  exact List.length_filter_le _ [s]

/-- The slashes that a path begins with hold no part. -/
theorem parts_root_append (s t : String) : parts (root s ++ t) = parts t := by
  have hslash : ∀ t, parts ("/" ++ t) = parts t := parts_append_slash ""
  rw [root]
  split
  · rw [String.empty_append]
  · rw [show "//" ++ t = "/" ++ "/" ++ t from rfl, String.append_assoc, hslash, hslash]
  · exact hslash t

/-- **Parts are read off the path that is made of them.** -/
theorem parts_ofParts {s : String} {ps : List String} (h : ps ⊆ parts s) :
    parts (ofParts (root s) ps) = ps := by
  rw [ofParts]
  split <;> rename_i hroot
  · have hnil : ps = [] := List.isEmpty_iff.1 (Bool.and_eq_true_iff.1 hroot).2
    rw [hnil]
    rfl
  rw [parts_root_append]
  clear hroot
  induction ps with
  | nil => rfl
  | cons p ps ih =>
    obtain ⟨hp, hps⟩ := List.cons_subset.1 h
    have hpart : parts p = [p] := by
      rw [parts_of_notMem (slash_notMem_of_mem_parts hp), List.filter_singleton, (List.mem_filter.1 hp).2]
      rfl
    cases ps with
    | nil => exact hpart
    | cons q ps =>
      have hjoin : "/".intercalate (p :: q :: ps) = p ++ "/" ++ "/".intercalate (q :: ps) := by
        rw [← String.toList_inj]
        simp [String.toList_intercalate]
      rw [hjoin, parts_append_slash, hpart, ih hps, List.singleton_append]

/-- The directory of a path has all its parts but the last. -/
theorem parts_parent (s : String) : parts (parent s) = (parts s).dropLast :=
  parts_ofParts (List.dropLast_subset _)

/-- A directory around a path has fewer parts. -/
theorem length_parts_of_mem_ancestors {s directory : String} (h : directory ∈ ancestors s) :
    0 < (parts directory).length ∧ (parts directory).length < (parts s).length := by
  obtain ⟨i, hi, rfl⟩ := List.mem_map.1 h
  rw [List.mem_range] at hi
  rw [parts_ofParts (List.take_subset _ _), List.length_take]
  omega

theorem parts_below (directory name : String) :
    parts (below directory name) = parts directory ++ parts name := by
  rw [below]
  split <;> rename_i hdot
  · rw [beq_iff_eq.1 hdot]
    rfl
  split <;> rename_i hslash
  · -- The slash at the end is the one between the two.
    obtain ⟨init, hinit⟩ := String.Slice.endsWith_string_iff.1 hslash
    rw [String.copy_toSlice] at hinit
    obtain rfl : String.ofList init ++ "/" = directory := by
      rw [← String.toList_inj, String.toList_append, String.toList_ofList]
      exact hinit
    have hdirectory := parts_append_slash (String.ofList init) ""
    rw [String.append_empty] at hdirectory
    rw [parts_append_slash, hdirectory, show parts "" = [] from rfl, List.append_nil]
  · exact parts_append_slash directory name

end FilePath

namespace Disk

variable {d : Disk} {path : String}

/-! ### The directories of a disk -/

/-- What is always there, is made, or is around something is a directory. -/
theorem isDirectory_iff : d.isDirectory path ↔
    path ∈ [".", "/", "//"] ∨ path ∈ d.directories ∨
      ∃ inner, (inner ∈ d.directories ∨ inner ∈ Entries.keys d.files) ∧ path ∈ FilePath.ancestors inner := by
  simp only [isDirectory, allDirectories, Bool.or_eq_true, beq_iff_eq, List.contains_iff_mem, List.mem_eraseDups,
    List.mem_append, List.mem_flatMap, List.mem_cons, List.not_mem_nil, or_false, or_assoc, or_and_right, exists_or]

/-- A directory without parts is always there. -/
theorem isDirectory_of_parts_eq_nil (d : Disk) (h : FilePath.parts path = []) :
    d.isDirectory (FilePath.parent path) := by
  rw [isDirectory_iff, FilePath.parent, h]
  left
  rw [FilePath.root]
  split <;> decide

/-- **To make a directory** makes it and those around it. -/
theorem isDirectory_of_makeDirectory {made : String} {d' : Disk} (h : d.makeDirectory made = .ok d') :
    d'.isDirectory path ↔ d.isDirectory path ∨
      ¬ d.isDirectory made ∧ (path = made ∨ path ∈ FilePath.ancestors made) := by
  rw [makeDirectory] at h
  split at h <;> rename_i hdirectory
  · obtain rfl := Except.ok.inj h
    simp [hdirectory]
  split at h
  · cases h
  split at h
  · cases h
  obtain rfl := Except.ok.inj h
  rw [and_iff_right hdirectory]
  simp only [isDirectory_iff, List.mem_append, List.mem_singleton]
  grind

/-- A file has directories around it. -/
theorem isDirectory_write {file text : String} :
    (d.write file text).isDirectory path ↔ d.isDirectory path ∨ path ∈ FilePath.ancestors file := by
  simp only [isDirectory_iff, write, Entries.mem_keys_set]
  grind

theorem write_write (d : Disk) (file text text' : String) :
    (d.write file text).write file text' = d.write file text' := by
  simp only [write, Entries.set_set]

/-! ### What is made for a file -/

/-- The temporary file of a file is beside it. -/
theorem length_parts_temporaryPath (d : Disk) (path : String) :
    (FilePath.parts (d.temporaryPath path)).length ≤ (FilePath.parts path).dropLast.length + 1 := by
  have hname : '/' ∉ (FilePath.name path).toList := by
    rw [FilePath.name, List.getLastD_eq_getLast?]
    cases hlast : (FilePath.parts path).getLast? with
    | none => decide
    | some part => exact FilePath.slash_notMem_of_mem_parts (List.mem_of_getLast? hlast)
  rw [temporaryPath, FilePath.parts_below, FilePath.parts_parent, List.length_append]
  refine Nat.add_le_add_left (FilePath.length_parts_le_one ?_) _
  have hdot : '/' ∉ ".".toList := by decide
  have hend : '/' ∉ ".tmp".toList := by decide
  simp only [String.toList_append, String.toList_ofList, List.mem_append, not_or]
  exact ⟨⟨⟨⟨hdot, hname⟩, hdot⟩, fun hx ↦ absurd (List.eq_of_mem_replicate hx) (by decide)⟩, hend⟩

/-- **No directory that is made for a file has the path of the file**, neither for its own directory nor for the
temporary file in it. -/
theorem isDirectory_write_temporaryPath {d' : Disk} (h : d.makeDirectory (FilePath.parent path) = .ok d')
    (text : String) : (d'.write (d'.temporaryPath path) text).isDirectory path = d.isDirectory path := by
  have hparent : (FilePath.parts (FilePath.parent path)).length = (FilePath.parts path).length - 1 := by
    rw [FilePath.parts_parent, List.length_dropLast]
  have htemporary := d'.length_parts_temporaryPath path
  rw [List.length_dropLast] at htemporary
  rw [Bool.eq_iff_iff, isDirectory_write, isDirectory_of_makeDirectory h]
  refine ⟨?_, fun hdirectory ↦ .inl (.inl hdirectory)⟩
  rintro ((hdirectory | ⟨hnew, heq | haround⟩) | haround)
  · exact hdirectory
  · -- Only a path without parts is its own directory, and that is always there.
    have hnil : FilePath.parts path = [] := by
      rw [← heq] at hparent
      exact List.eq_nil_of_length_eq_zero (by omega)
    exact absurd (d.isDirectory_of_parts_eq_nil hnil) hnew
  · have hfewer := FilePath.length_parts_of_mem_ancestors haround
    omega
  · have hfewer := FilePath.length_parts_of_mem_ancestors haround
    omega

end Disk

end PathAccess
