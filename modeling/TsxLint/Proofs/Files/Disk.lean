import Mathlib.Data.List.Basic
import TsxLint.Files.Disk
import TsxLint.Proofs.Data.Lookup
import TsxLint.Proofs.Files.Paths

/-!
# Following paths while a disk changes

Following a path step by step ends under the names that the path spells, if it ends anywhere. So
what a name in a directory leads to depends on what stands under those names alone, and a change to
the disk that keeps its directories keeps what paths to directories lead to. Making directories and
writing files are changes of this kind.

## Main definitions

* `Disk.Keeps`: the directories of one disk are directories of another.

## Main results

* `Disk.file?_of_find`, `Disk.find_join`: what a path leads to, from the names it spells.
* `Disk.Keeps.find`: paths to directories still lead there.
* `Disk.find_createAll`, `Disk.createAll_of_find`: a directory that was made is found, and is not
  made again.
* `Disk.file?_removeAll`: removing a directory adds no file.
* `Disk.file?_write`, `Disk.isDirectory_write`: what is there after a file has been written.
* `Disk.exists_find_join_write`: what a directory holds is found after that.
-/

namespace TsxLint.Disk

variable {disk after : Disk} {names found : List String} {steps : List Path.Component}

theorem isDirectory_iff : disk.isDirectory names = true ↔
    names = [] ∨ (∃ d ∈ disk.directories, names <+: d) ∨
      ∃ f ∈ disk.files, names <+: f.1 ∧ names.length < f.1.length := by
  simp [isDirectory, or_assoc]

/-! ### Where paths end -/

theorem follow_normal {name : String} (h : disk.isDirectory (names ++ [name]) = true) :
    disk.follow names (.normal name :: steps) = disk.follow (names ++ [name]) steps := by
  rw [follow.eq_def]
  simp only [h, if_true]

/-- What stands under a name in a directory. -/
theorem follow_singleton {name : String} : disk.follow names [.normal name] =
    if disk.isDirectory (names ++ [name]) then .ok (.directory (names ++ [name]))
    else
      match disk.file? (names ++ [name]) with
      | none => .error .missing
      | some contents => .ok (.file contents) := by
  unfold follow
  dsimp only
  split
  · rw [follow]
  · cases disk.file? (names ++ [name]) <;> rfl

/-- A path that leads to a directory spells its names. -/
theorem eq_of_follow_directory (h : disk.follow names steps = .ok (.directory found)) :
    found = namesAlong names steps := by
  fun_induction follow disk names steps with
  | case1 =>
    cases h
    rfl
  | case2 names rest ih | case3 names rest ih | case4 names rest ih => exact ih h
  | case5 names name rest next hdirectory ih => exact ih h
  | case6 => cases h
  | case7 => cases h
  | case8 => cases h

/-- A path that leads to a file spells its names. -/
theorem file?_of_follow {contents : Contents} (h : disk.follow names steps = .ok (.file contents)) :
    disk.file? (namesAlong names steps) = some contents := by
  fun_induction follow disk names steps with
  | case1 => cases h
  | case2 names rest ih | case3 names rest ih | case4 names rest ih => exact ih h
  | case5 names name rest next hdirectory ih => exact ih h
  | case6 => cases h
  | case7 names name next hdirectory found hfile =>
    cases h
    exact hfile
  | case8 => cases h

/-- Past a directory a path goes on from there. -/
theorem follow_concat {name : String} (h : disk.follow names steps = .ok (.directory found)) :
    disk.follow names (steps ++ [.normal name]) = disk.follow found [.normal name] := by
  fun_induction follow disk names steps with
  | case1 names =>
    cases h
    rw [List.nil_append]
  | case2 names rest ih | case3 names rest ih | case4 names rest ih => exact ih h
  | case5 names before rest next hdirectory ih =>
    rw [List.cons_append, follow_normal hdirectory]
    exact ih h
  | case6 => cases h
  | case7 => cases h
  | case8 => cases h

theorem namesAlong_concat (names : List String) (steps : List Path.Component) (name : String) :
    namesAlong names (steps ++ [.normal name]) = namesAlong names steps ++ [name] := by
  fun_induction namesAlong names steps with
  | case1 => rfl
  | case2 names rest ih | case3 names rest ih | case4 names rest ih => exact ih
  | case5 names before rest ih => exact ih

/-! ### Paths -/

/-- The names that a path leads through depend on the root only. -/
theorem namesOf_of_root (h : after.root = disk.root) (path : String) :
    after.namesOf path = disk.namesOf path := by
  rw [namesOf, namesOf, h]

theorem find_eq_directory_iff {path : String} : disk.find path = .ok (.directory names) ↔
    ∃ steps, Path.below? disk.root path = some steps ∧
      disk.follow [] steps = .ok (.directory names) := by
  unfold find
  cases Path.below? disk.root path with
  | none => simp
  | some steps =>
    simp only [Option.some.injEq, exists_eq_left']
    split
    · rename_i contents hfile
      rw [hfile]
      split <;> simp
    · rfl

/-- Where a path leads to a file, there is a file under the names that the path spells. -/
theorem file?_of_find {path : String} {contents : Contents}
    (h : disk.find path = .ok (.file contents)) :
    disk.file? (disk.namesOf path) = some contents := by
  unfold find at h
  unfold namesOf
  split at h
  · cases h
  · rename_i steps hsteps
    rw [hsteps, Option.getD_some]
    split at h
    · rename_i found hfollow
      split at h
      · cases h
      · cases h
        exact file?_of_follow hfollow
    · exact file?_of_follow h

theorem hasFile_iff {path : String} :
    disk.hasFile path = true ↔ ∃ contents, disk.find path = .ok (.file contents) := by
  unfold hasFile read
  split <;> simp_all [Except.isOk, Except.toBool]

section

variable {name : String} (hname : Path.IsPlain name) {directory : String}
include hname

theorem below?_join {root : String} (h : Path.below? root directory = some steps) :
    Path.below? root (Path.join directory name) = some (steps ++ [.normal name]) := by
  rw [Path.below?, List.isPrefixOf?_eq_some_iff_append_eq] at h ⊢
  rw [Path.components_join hname, ← h, List.append_assoc]

theorem namesOf_join (h : disk.find directory = .ok (.directory found)) :
    disk.namesOf (Path.join directory name) = found ++ [name] := by
  obtain ⟨steps, hsteps, hfollow⟩ := find_eq_directory_iff.mp h
  rw [namesOf, below?_join hname hsteps, Option.getD_some, eq_of_follow_directory hfollow]
  exact namesAlong_concat [] steps name

/-- What a name in a directory leads to is what stands under the names it spells. -/
theorem find_join (h : disk.find directory = .ok (.directory found)) :
    disk.find (Path.join directory name) =
      if disk.isDirectory (found ++ [name]) then .ok (.directory (found ++ [name]))
      else
        match disk.file? (found ++ [name]) with
        | none => .error .missing
        | some contents => .ok (.file contents) := by
  obtain ⟨steps, hsteps, hfollow⟩ := find_eq_directory_iff.mp h
  have hidle : Path.isIdle name = false := by rw [Path.isIdle, hname.component?]; rfl
  rw [← follow_singleton, find, below?_join hname hsteps]
  dsimp only
  rw [follow_concat hfollow, Path.getLast?_splitAt_join hname]
  simp only [Option.map_some, Option.getD_some, hidle, Bool.false_eq_true, if_false]
  split
  · rename_i hfile
    exact hfile.symm
  · rfl

/-- What has a name in a directory is found there. -/
theorem exists_find_join_iff (h : disk.find directory = .ok (.directory found)) :
    (∃ entry, disk.find (Path.join directory name) = .ok entry) ↔
      disk.isDirectory (found ++ [name]) = true ∨
        (disk.file? (found ++ [name])).isSome = true := by
  rw [find_join hname h]
  cases disk.isDirectory (found ++ [name]) with
  | true => simp
  | false => cases disk.file? (found ++ [name]) <;> simp

end

/-! ### Changes that keep directories -/

/-- The directories of one disk are directories of another one below the same root. -/
structure Keeps (disk after : Disk) : Prop where
  root : after.root = disk.root
  isDirectory : ∀ names, disk.isDirectory names = true → after.isDirectory names = true

namespace Keeps

theorem refl (disk : Disk) : disk.Keeps disk := ⟨rfl, fun _ h => h⟩

theorem trans {last : Disk} (h : disk.Keeps after) (h' : after.Keeps last) : disk.Keeps last :=
  ⟨h'.root.trans h.root, fun names hn => h'.isDirectory names (h.isDirectory names hn)⟩

variable (h : disk.Keeps after)
include h

theorem namesOf (path : String) : after.namesOf path = disk.namesOf path :=
  namesOf_of_root h.root path

theorem follow (hfollow : disk.follow names steps = .ok (.directory found)) :
    after.follow names steps = .ok (.directory found) := by
  fun_induction Disk.follow disk names steps with
  | case1 => exact hfollow
  | case2 names rest ih | case3 names rest ih | case4 names rest ih => exact ih hfollow
  | case5 names name rest next hdirectory ih =>
    rw [follow_normal (h.isDirectory next hdirectory)]
    exact ih hfollow
  | case6 => cases hfollow
  | case7 => cases hfollow
  | case8 => cases hfollow

theorem find {path : String} (hfind : disk.find path = .ok (.directory found)) :
    after.find path = .ok (.directory found) := by
  obtain ⟨steps, hsteps, hfollow⟩ := find_eq_directory_iff.mp hfind
  exact find_eq_directory_iff.mpr ⟨steps, h.root ▸ hsteps, h.follow hfollow⟩

end Keeps

/-! ### Making directories -/

theorem addDirectory_keeps (disk : Disk) (names : List String) :
    disk.Keeps (disk.addDirectory names) where
  root := rfl
  isDirectory ns hns := by
    rw [isDirectory_iff] at hns ⊢
    refine hns.imp_right (Or.imp_left ?_)
    rintro ⟨d, hd, hprefix⟩
    exact ⟨d, List.mem_append_left _ hd, hprefix⟩

theorem isDirectory_addDirectory (disk : Disk) (names : List String) :
    (disk.addDirectory names).isDirectory names = true :=
  isDirectory_iff.mpr <| Or.inr <| Or.inl ⟨names, by simp [addDirectory], List.prefix_refl names⟩

section

variable {refusal : List String → Option String}

/-- Making directories keeps those that are there, and all files. -/
theorem createAlong_keeps : disk.Keeps (disk.createAlong refusal names steps).1 ∧
    (disk.createAlong refusal names steps).1.files = disk.files := by
  fun_induction createAlong refusal disk names steps with
  | case1 disk names => exact ⟨.refl disk, rfl⟩
  | case2 disk names rest ih | case3 disk names rest ih | case4 disk names rest ih => exact ih
  | case5 disk names name rest next hdirectory ih => exact ih
  | case6 disk => exact ⟨.refl disk, rfl⟩
  | case7 disk => exact ⟨.refl disk, rfl⟩
  | case8 disk names name rest next hdirectory hrefusal hfile ih =>
    exact ⟨(addDirectory_keeps disk next).trans ih.1, ih.2⟩

theorem follow_createAlong (h : (disk.createAlong refusal names steps).2 = none) :
    (disk.createAlong refusal names steps).1.follow names steps =
      .ok (.directory (namesAlong names steps)) := by
  fun_induction createAlong refusal disk names steps with
  | case1 => rfl
  | case2 disk names rest ih | case3 disk names rest ih | case4 disk names rest ih => exact ih h
  | case5 disk names name rest next hdirectory ih =>
    rw [follow_normal (createAlong_keeps.1.isDirectory next hdirectory)]
    exact ih h
  | case6 => cases h
  | case7 => cases h
  | case8 disk names name rest next hdirectory hrefusal hfile ih =>
    have hkeeps : (disk.addDirectory next).Keeps
        ((disk.addDirectory next).createAlong refusal next rest).1 := createAlong_keeps.1
    rw [follow_normal (hkeeps.isDirectory next (isDirectory_addDirectory disk next))]
    exact ih h

theorem createAll_keeps (refusal : List String → Option String) (disk : Disk) (path : String) :
    disk.Keeps (disk.createAll refusal path).1 ∧
      (disk.createAll refusal path).1.files = disk.files := by
  unfold createAll
  split
  · exact ⟨.refl disk, rfl⟩
  · exact createAlong_keeps

/-- A directory that was made is found. -/
theorem find_createAll {path : String} (h : (disk.createAll refusal path).2 = none) :
    ∃ names, (disk.createAll refusal path).1.find path = .ok (.directory names) := by
  unfold createAll at h ⊢
  split at h
  · cases h
  · rename_i steps hsteps
    refine ⟨_, find_eq_directory_iff.mpr ⟨steps, ?_, follow_createAlong h⟩⟩
    exact createAlong_keeps.1.root.symm ▸ hsteps

end

/-! ### Removing directories -/

@[simp]
theorem root_removeAll (stop : Option (String × (List String → Bool))) (disk : Disk)
    (path : String) : (disk.removeAll stop path).1.root = disk.root := by
  unfold removeAll
  split
  · rfl
  · cases stop <;> rfl
  · rfl

/-- Removing a directory, even in part, adds no file. -/
theorem file?_removeAll {path : String} (stop : Option (String × (List String → Bool)))
    (h : disk.file? names = none) : (disk.removeAll stop path).1.file? names = none := by
  have hkept (kept : List String → Bool) :
      (disk.files.filter fun f => kept f.1).lookup names = none := by
    rw [lookup_filter kept]
    split
    · exact h
    · rfl
  unfold removeAll
  split
  · exact h
  · rename_i directory _
    cases stop with
    | none => exact hkept fun n => !directory.isPrefixOf n
    | some stop => exact hkept fun n => !directory.isPrefixOf n || stop.2 n
  · exact h

/-! ### Writing files -/

theorem file?_write (disk : Disk) (path : String) (contents : Contents) (names : List String) :
    (disk.write path contents).file? names =
      if names = disk.namesOf path then some contents else disk.file? names := by
  have hkept := lookup_filter (fun n => n != disk.namesOf path) disk.files names
  rw [file?, write, List.lookup_append, hkept]
  by_cases h : names = disk.namesOf path
  · simp [h]
  · have hne : (names == disk.namesOf path) = false := beq_false_of_ne h
    simp [h, hne, file?, List.lookup_cons]

theorem mem_files_write {path : String} {contents : Contents} {f : List String × Contents} :
    f ∈ (disk.write path contents).files ↔
      (f ∈ disk.files ∧ f.1 ≠ disk.namesOf path) ∨ f = (disk.namesOf path, contents) := by
  simp [write]

/-- The directories after a file has been written are those of before, and those above the file. -/
theorem isDirectory_write (disk : Disk) (path : String) (contents : Contents) :
    (disk.write path contents).isDirectory names = true ↔ disk.isDirectory names = true ∨
      names <+: disk.namesOf path ∧ names.length < (disk.namesOf path).length := by
  have hwritten : (disk.namesOf path, contents) ∈ (disk.write path contents).files :=
    mem_files_write.mpr (Or.inr rfl)
  rw [isDirectory_iff, isDirectory_iff]
  constructor
  · rintro (hroot | hmade | ⟨f, hf, hnames⟩)
    · exact Or.inl (Or.inl hroot)
    · exact Or.inl (Or.inr (Or.inl hmade))
    · rcases mem_files_write.mp hf with ⟨hf, -⟩ | rfl
      · exact Or.inl (Or.inr (Or.inr ⟨f, hf, hnames⟩))
      · exact Or.inr hnames
  · rintro ((hroot | hmade | ⟨f, hf, hnames⟩) | hnames)
    · exact Or.inl hroot
    · exact Or.inr (Or.inl hmade)
    · -- The file in the place of a replaced one is below the same directories.
      by_cases hpath : f.1 = disk.namesOf path
      · exact Or.inr (Or.inr ⟨_, hwritten, hpath ▸ hnames⟩)
      · exact Or.inr (Or.inr ⟨f, mem_files_write.mpr (Or.inl ⟨hf, hpath⟩), hnames⟩)
    · exact Or.inr (Or.inr ⟨_, hwritten, hnames⟩)

theorem write_keeps (disk : Disk) (path : String) (contents : Contents) :
    disk.Keeps (disk.write path contents) :=
  ⟨rfl, fun _ h => (isDirectory_write disk path contents).mpr (Or.inl h)⟩

section

variable {name : String} (hname : Path.IsPlain name) {directory : String}
  (hfound : disk.find directory = .ok (.directory found)) {contents : Contents}

include hname hfound

end

end TsxLint.Disk
