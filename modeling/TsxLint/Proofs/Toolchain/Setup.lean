import TsxLint.Cli.Run
import TsxLint.Proofs.Files.Disk

/-!
# What a failed setup leaves behind

A toolchain counts as set up when its configuration is there, and the configuration is the first of
the files that setting up writes. So errors are of two kinds for the next run. One from before the
configuration has its path leaves a toolchain that is not set up. A later one, about the manifest or
of the installer, leaves one that is.

## Main definitions

* `Toolchain.Change.Leaves`: the disks that a change leaves, by its value or its error.
* `Toolchain.SetupError.isLate`: the errors after the configuration has its path.

## Main results

* `Toolchain.provide_leaves`: what providing a file leaves.
* `Toolchain.prepare_leaves`: what the steps up to the installer leave.
* `Toolchain.isSetUp_after_setUp`: what a setup makes of the next run.
-/

namespace TsxLint.Toolchain

/-! ### Paths -/

theorem isPlain_configName : Path.IsPlain configName := ⟨by decide, by decide⟩

theorem isPlain_manifestName : Path.IsPlain manifestName := ⟨by decide, by decide⟩

theorem configPath_ne_manifestPath (directory : String) :
    configPath directory ≠ manifestPath directory := by
  intro h
  have hnames := congrArg Path.components h
  rw [configPath, manifestPath, Path.components_join isPlain_configName,
    Path.components_join isPlain_manifestName] at hnames
  simp [configName, manifestName] at hnames

/-! ### Changes -/

namespace Change

variable {α β : Type}

/-- From disks of one kind a change leaves those of a kind that its value tells if it is done, and
of a kind that its error tells if it stops. -/
def Leaves (c : Change α) (before : Disk → Prop) (done : α → Disk → Prop)
    (stopped : SetupError → Disk → Prop) : Prop :=
  ∀ disk, before disk →
    match c disk with
    | (.ok a, after) => done a after
    | (.error e, after) => stopped e after

variable {before : Disk → Prop} {stopped : SetupError → Disk → Prop}

theorem leaves_pure {done : α → Disk → Prop} (a : α) (h : ∀ disk, before disk → done a disk) :
    (pure a : Change α).Leaves before done stopped := h

/-- One change after another leaves what the last one leaves, unless the first one stops. -/
theorem Leaves.bind {c : Change α} {next : α → Change β} {between : α → Disk → Prop}
    {done : β → Disk → Prop} (hc : c.Leaves before between stopped)
    (hnext : ∀ a, (next a).Leaves (between a) done stopped) :
    (c >>= next).Leaves before done stopped := by
  intro disk hdisk
  have hfirst := hc disk hdisk
  have hrun : (c >>= next) disk = match c disk with
      | (.ok a, after) => next a after
      | (.error e, after) => (.error e, after) := by
    show (match c disk with | (a, after) => ExceptT.bindCont next a after) = _
    rcases c disk with ⟨a | e, after⟩ <;> rfl
  rw [hrun]
  rcases hc' : c disk with ⟨e | a, after⟩ <;> rw [hc'] at hfirst
  · exact hfirst
  · exact hnext a after hfirst

theorem leaves_ofDisk {act : Disk → Disk × Option ChangeFailure} {error : String → SetupError}
    {done : Disk → Prop} (hdone : ∀ disk, before disk → (act disk).2 = none → done (act disk).1)
    (hstopped : ∀ disk failure, before disk → (act disk).2 = some failure →
      stopped (error failure.message) (act disk).1) :
    (ofDisk act error).Leaves before (fun _ => done) stopped := by
  intro disk hdisk
  have hdone := hdone disk hdisk
  have hstopped := fun failure => hstopped disk failure hdisk
  unfold ofDisk
  rcases hact : act disk with ⟨after, _ | failure⟩ <;> rw [hact] at hdone hstopped
  · exact hdone rfl
  · exact hstopped failure rfl

end Change

/-- What providing a file leaves: something has its path already, or the file is written where
nothing is, or it stops, and then nothing is written or a part of the file. -/
theorem provide_leaves {faults : Faults} {path : String} {contents : Contents}
    {before : Disk → Prop} {done : Bool → Disk → Prop} {stopped : SetupError → Disk → Prop}
    (hfound : ∀ disk, before disk → (∃ entry, disk.find path = .ok entry) → done false disk)
    (hwritten : ∀ disk, before disk → disk.find path = .error .missing →
      done true (disk.write path contents))
    (hunread : ∀ disk, before disk → ∀ cause, stopped (.inspection path cause) disk)
    (hunwritten : ∀ disk, before disk → ∀ cause, faults.writing path = some (cause, none) →
      stopped (.writing path cause) disk)
    (hleft : ∀ disk, before disk → disk.find path = .error .missing → ∀ cause left,
      faults.writing path = some (cause, some left) →
      stopped (.writing path cause) (disk.write path left)) :
    (provide faults path contents).Leaves before done stopped := by
  intro disk hdisk
  unfold provide
  cases faults.inspection path with
  | some cause => exact hunread disk hdisk cause
  | none =>
    rcases hfind : disk.find path with failure | entry
    · cases failure with
      | missing =>
        rcases hwriting : faults.writing path with _ | ⟨cause, _ | left⟩
        · exact hwritten disk hdisk hfind
        · exact hunwritten disk hdisk cause hwriting
        · exact hleft disk hdisk hfind cause left hwriting
      | throughFile => exact hunread disk hdisk _
      | isDirectory => exact hunread disk hdisk _
    · exact hfound disk hdisk ⟨entry, hfind⟩

/-! ### The configuration on the way -/

/-- No file has the path of the configuration. -/
def IsAbsent (directory : String) (disk : Disk) : Prop :=
  disk.file? (disk.namesOf (configPath directory)) = none

/-- The directory is there, and no file has the path of the configuration. -/
structure Awaits (directory : String) (disk : Disk) : Prop where
  found : ∃ names, disk.find directory = .ok (.directory names)
  absent : IsAbsent directory disk

/-- The directory is there, and something has the path of the configuration. -/
structure Holds (directory : String) (disk : Disk) : Prop where
  found : ∃ names, disk.find directory = .ok (.directory names)
  entry : disk.isDirectory (disk.namesOf (configPath directory)) = true ∨
    (disk.file? (disk.namesOf (configPath directory))).isSome

/-- Whether an error comes after the configuration has its path: it is about the manifest, or of the
installer, or the configuration was written in part. -/
def SetupError.isLate (faults : Faults) (directory : String) : SetupError → Bool
  | removal .. | creation .. => false
  | inspection path _ => path == manifestPath directory
  | writing path _ =>
    path == manifestPath directory || ((faults.writing path).bind Prod.snd).isSome
  | installer _ => true

/-- The disks that an error leaves. -/
def Stopped (faults : Faults) (directory : String) (e : SetupError) (disk : Disk) : Prop :=
  if e.isLate faults directory then Holds directory disk else IsAbsent directory disk

section

variable {faults : Faults} {directory : String} {disk : Disk}

theorem isSetUp_of_absent (h : IsAbsent directory disk) : isSetUp disk directory = false := by
  refine Bool.eq_false_iff.mpr fun hsetUp => ?_
  obtain ⟨contents, hfind⟩ := Disk.hasFile_iff.mp hsetUp
  cases h.symm.trans (Disk.file?_of_find hfind)

/-- What the path of the configuration leads to, once the directory is there. -/
theorem find_configPath {names : List String} (h : disk.find directory = .ok (.directory names)) :
    disk.find (configPath directory) =
      if disk.isDirectory (disk.namesOf (configPath directory)) then
        .ok (.directory (disk.namesOf (configPath directory)))
      else
        match disk.file? (disk.namesOf (configPath directory)) with
        | none => .error .missing
        | some contents => .ok (.file contents) := by
  rw [configPath, Disk.namesOf_join isPlain_configName h]
  exact Disk.find_join isPlain_configName h

theorem isSetUp_iff_of_holds (h : Holds directory disk) : isSetUp disk directory = true ↔
    disk.isDirectory (disk.namesOf (configPath directory)) = false := by
  obtain ⟨names, hfound⟩ := h.found
  rw [isSetUp, Disk.hasFile_iff, find_configPath hfound]
  cases hdirectory : disk.isDirectory (disk.namesOf (configPath directory)) with
  | true => simp
  | false =>
    have hentry := h.entry.resolve_left (by simp [hdirectory])
    obtain ⟨contents, hfile⟩ := Option.isSome_iff_exists.mp hentry
    simp [hfile]

theorem isSetUp_iff_of_stopped {e : SetupError} (h : Stopped faults directory e disk) :
    isSetUp disk directory = true ↔ e.isLate faults directory = true ∧
      disk.isDirectory (disk.namesOf (configPath directory)) = false := by
  unfold Stopped at h
  split at h
  · rename_i hlate
    simpa [hlate] using isSetUp_iff_of_holds h
  · rename_i hlate
    simp [hlate, isSetUp_of_absent h]

/-! ### What the steps leave -/

theorem removeAll_leaves (stop : Option (String × (List String → Bool))) :
    (Change.ofDisk (Disk.removeAll stop · directory) (.removal directory)).Leaves
      (IsAbsent directory) (fun _ => IsAbsent directory) (Stopped faults directory) := by
  have hafter (disk : Disk) (h : IsAbsent directory disk) :
      IsAbsent directory (disk.removeAll stop directory).1 := by
    rw [IsAbsent, Disk.namesOf_of_root (Disk.root_removeAll stop disk directory)]
    exact Disk.file?_removeAll stop h
  exact Change.leaves_ofDisk (fun disk h _ => hafter disk h) (fun disk _ h _ => hafter disk h)

theorem createAll_leaves (refusal : List String → Option String) :
    (Change.ofDisk (Disk.createAll refusal · directory) (.creation directory)).Leaves
      (IsAbsent directory) (fun _ => Awaits directory) (Stopped faults directory) := by
  have hafter (disk : Disk) (h : IsAbsent directory disk) :
      IsAbsent directory (disk.createAll refusal directory).1 := by
    have hkeeps := Disk.createAll_keeps refusal disk directory
    rw [IsAbsent, hkeeps.1.namesOf, Disk.file?, hkeeps.2]
    exact h
  exact Change.leaves_ofDisk (fun disk h hdone => ⟨Disk.find_createAll hdone, hafter disk h⟩)
    (fun disk _ h _ => hafter disk h)

theorem holds_write_config (h : Awaits directory disk) (contents : Contents) :
    Holds directory (disk.write (configPath directory) contents) := by
  have hkeeps := Disk.write_keeps disk (configPath directory) contents
  refine ⟨h.found.imp fun _ => hkeeps.find, Or.inr ?_⟩
  rw [hkeeps.namesOf, Disk.file?_write, if_pos rfl]
  rfl

/-- The two files of the toolchain have different names. -/
theorem namesOf_configPath_ne (h : ∃ names, disk.find directory = .ok (.directory names)) :
    disk.namesOf (configPath directory) ≠ disk.namesOf (manifestPath directory) := by
  obtain ⟨names, hfound⟩ := h
  rw [configPath, manifestPath, Disk.namesOf_join isPlain_configName hfound,
    Disk.namesOf_join isPlain_manifestName hfound]
  simp [configName, manifestName]

theorem holds_write_manifest (h : Holds directory disk) (contents : Contents) :
    Holds directory (disk.write (manifestPath directory) contents) := by
  have hkeeps := Disk.write_keeps disk (manifestPath directory) contents
  refine ⟨h.found.imp fun _ => hkeeps.find, ?_⟩
  rw [hkeeps.namesOf, Disk.file?_write, if_neg (namesOf_configPath_ne h.found)]
  exact h.entry.imp_left (hkeeps.isDirectory _)

/-- Providing the configuration gives it its path, or stops early unless a part of it is written. -/
theorem provide_config_leaves (contents : Contents) :
    (provide faults (configPath directory) contents).Leaves (Awaits directory)
      (fun _ => Holds directory) (Stopped faults directory) := by
  have hpath : (configPath directory == manifestPath directory) = false :=
    beq_false_of_ne (configPath_ne_manifestPath directory)
  refine provide_leaves (fun disk h hentry => ⟨h.found, ?_⟩)
    (fun disk h _ => holds_write_config h contents) (fun disk h cause => ?_)
    (fun disk h cause hwriting => ?_) (fun disk h _ cause left hwriting => ?_)
  · obtain ⟨names, hfound⟩ := h.found
    rw [configPath, Disk.namesOf_join isPlain_configName hfound]
    exact (Disk.exists_find_join_iff isPlain_configName hfound).mp hentry
  · simpa [Stopped, SetupError.isLate, hpath] using h.absent
  · simpa [Stopped, SetupError.isLate, hpath, hwriting] using h.absent
  · simpa [Stopped, SetupError.isLate, hwriting] using holds_write_config h left

/-- Providing the manifest keeps the configuration, and what stops it is late. -/
theorem provide_manifest_leaves (contents : Contents) :
    (provide faults (manifestPath directory) contents).Leaves (Holds directory)
      (fun _ => Holds directory) (Stopped faults directory) := by
  refine provide_leaves (fun disk h _ => h) (fun disk h _ => holds_write_manifest h contents)
    (fun disk h cause => ?_) (fun disk h cause _ => ?_) (fun disk h _ cause left _ => ?_)
  · simpa [Stopped, SetupError.isLate] using h
  · simpa [Stopped, SetupError.isLate] using h
  · simpa [Stopped, SetupError.isLate] using holds_write_manifest h left

/-- What the steps up to the installer leave: what an early error leaves has no configuration, all
else has one. -/
theorem prepare_leaves (faults : Faults) (directory : String) (force : Bool) :
    (prepare faults directory force).Leaves (IsAbsent directory) (fun _ => Holds directory)
      (Stopped faults directory) := by
  have hcreated : (do
      Change.ofDisk (Disk.createAll faults.creation · directory) (.creation directory)
      let wroteConfig ← provide faults (configPath directory) template
      let _ ← provide faults (manifestPath directory) manifest
      pure wroteConfig : Change Bool).Leaves (IsAbsent directory) (fun _ => Holds directory)
        (Stopped faults directory) := by
    refine (createAll_leaves faults.creation).bind fun _ => ?_
    refine (provide_config_leaves template).bind fun wroteConfig => ?_
    refine (provide_manifest_leaves manifest).bind fun _ => ?_
    exact Change.leaves_pure wroteConfig fun _ h => h
  cases force with
  | false => exact hcreated
  | true => exact (removeAll_leaves faults.removal).bind fun _ => hcreated

end

/-! ### Whether the next run finds a toolchain -/

section

variable (faults : Faults) (install : InstallCall → InstallResult) {disk : Disk}
  {directory : String} (force : Bool)

/-- What a setup leaves, by its outcome: the installer does not change what it finds. -/
theorem setUp_leaves (h : IsAbsent directory disk) :
    let setup := setUpWith faults install disk directory force
    match setup.outcome with
    | .ok _ => Holds directory setup.disk
    | .error e => Stopped faults directory e setup.disk := by
  have hleaves := prepare_leaves faults directory force disk h
  unfold setUpWith
  dsimp only
  rcases hprepare : prepare faults directory force disk with ⟨e | wroteConfig, after⟩ <;>
    rw [hprepare] at hleaves
  · exact hleaves
  · dsimp only
    cases install (skillCall directory) with
    | done duration => exact hleaves
    | failed message => exact hleaves

/-- Where no file has the path of the configuration, a setup makes the toolchain one that is set up
unless it stops with an early error, or a directory has that path. The next run goes by that: it
uses the toolchain, or says that there is none. -/
theorem isSetUp_after_setUp (h : disk.file? (disk.namesOf (configPath directory)) = none) :
    let setup := setUpWith faults install disk directory force
    (isSetUp setup.disk directory = true ↔
      (∀ e, setup.outcome = .error e → e.isLate faults directory = true) ∧
        setup.disk.isDirectory (setup.disk.namesOf (configPath directory)) = false) ∧
    ∀ (w : Workspace) (start project : String) (selection : Selection), w.disk = setup.disk →
      w.project start = .ok project → w.toolchainDirectory project = .ok directory →
      if isSetUp setup.disk directory then w.toolchain project = .ok directory
      else w.run start selection = .error (.noToolchain directory) := by
  intro setup
  have hleaves : match setup.outcome with
      | .ok _ => Holds directory setup.disk
      | .error e => Stopped faults directory e setup.disk := setUp_leaves faults install force h
  constructor
  · cases houtcome : setup.outcome with
    | ok outcome =>
      rw [houtcome] at hleaves
      simpa using isSetUp_iff_of_holds hleaves
    | error e =>
      rw [houtcome] at hleaves
      simpa using isSetUp_iff_of_stopped hleaves
  · intro w start project selection hdisk hproject hdirectory
    have htoolchain : w.toolchain project = if isSetUp setup.disk directory then .ok directory
        else .error (.noToolchain directory) := by
      rw [Workspace.toolchain, hdirectory, ← hdisk]
      rfl
    split
    · rename_i hsetUp
      rw [htoolchain, if_pos hsetUp]
    · rename_i hsetUp
      rw [Workspace.run, hproject]
      show (w.toolchain project >>= _) = _
      rw [htoolchain, if_neg hsetUp]
      rfl

end

/-- A disk with a project, and with nothing of a toolchain. -/
def newDisk : Disk where
  root := "/"
  directories := [["app"]]

/-- A host that lets no file be written. -/
def Faults.readOnly : Faults where
  writing _ := some ("Read-only file system (os error 30)", none)

/-- Where the configuration cannot be written there is no toolchain, and the next run says so. -/
theorem run_after_refused_config :
    let setup := setUpWith .readOnly (fun _ => .done "1.0s") newDisk "/home/.sweepi" true
    isSetUp setup.disk "/home/.sweepi" = false ∧
      Workspace.run { disk := setup.disk, current := "/app", home := some "/home" } "." .all =
        .error (.noToolchain "/home/.sweepi") := by
  have habsent : newDisk.file? (newDisk.namesOf (configPath "/home/.sweepi")) = none := by rfl
  obtain ⟨hsetUp, hrun⟩ :=
    isSetUp_after_setUp .readOnly (fun _ => .done "1.0s") true habsent
  have hnot : isSetUp
      (setUpWith .readOnly (fun _ => .done "1.0s") newDisk "/home/.sweepi" true).disk
      "/home/.sweepi" = false := by
    refine Bool.eq_false_iff.mpr fun h => ?_
    have hlate := (hsetUp.mp h).1 _ (by rfl)
    exact absurd hlate (by decide +kernel)
  have hnext := hrun { disk := _, current := "/app", home := some "/home" } "." "/app" .all
    rfl (by rfl) (by rfl)
  exact ⟨hnot, by rwa [if_neg (by simp [hnot])] at hnext⟩

/-- An error of the installer comes after the configuration is there: the next run finds a
toolchain, though setting it up has failed. -/
theorem toolchain_after_failed_installer :
    ¬ ∀ (install : InstallCall → InstallResult) (disk : Disk) (directory : String) (force : Bool)
      (e : SetupError) (w : Workspace) (project : String),
      disk.file? (disk.namesOf (configPath directory)) = none →
      (setUp install disk directory force).outcome = .error e →
      w.disk = (setUp install disk directory force).disk →
      w.toolchainDirectory project = .ok directory →
      w.toolchain project = .error (.noToolchain directory) := by
  intro h
  have hnone := h (fun _ => .failed "installer failed") newDisk "/home/.sweepi" false
    (.installer "installer failed") { disk := _, current := "/app", home := some "/home" } "/app"
    (by rfl) (by rfl) rfl (by rfl)
  have hfound : Workspace.toolchain
      { disk := (setUp (fun _ => .failed "installer failed") newDisk "/home/.sweepi" false).disk
        current := "/app"
        home := some "/home" } "/app" = .ok "/home/.sweepi" := by rfl
  cases hfound.symm.trans hnone

end TsxLint.Toolchain
