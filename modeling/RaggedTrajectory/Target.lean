import RaggedTrajectory.Disk.Request

/-!
# Targets

A run never writes over anything: its targets must not exist, and their directories must.

* `validateTarget_ok_iff`: the targets that are accepted.
-/

namespace RaggedTrajectory

namespace Disk

/-- Accepts a path that can become a new file; otherwise gives the first fault. -/
def validateTarget (disk : Disk) (path : Path) : Except Error Unit :=
  let refuse (fault : DestinationFault) : Except Error Unit :=
    .error (.invalidDestination path.text fault)
  if disk.isDirectory path then refuse .isDirectory
  else if disk.holds path then refuse .alreadyExists
  else if path.fileName? = none then refuse .noFileName
  else if ¬disk.isDirectory path.directory then refuse (.noParent path.directory.text)
  else .ok ()

theorem validateTarget_ok_iff {disk : Disk} {path : Path} :
    disk.validateTarget path = .ok () ↔
      disk.holds path = false ∧ path.fileName?.isSome ∧ disk.isDirectory path.directory := by
  have missing : disk.holds path = false → disk.isDirectory path = false := by
    intro h
    simp only [holds, Option.isSome_eq_false_iff, Option.isNone_iff_eq_none] at h
    simp [isDirectory, h]
  unfold validateTarget
  constructor
  · intro h
    split at h; · simp at h
    split at h; · simp at h
    split at h; · simp at h
    split at h
    · simp at h
    · simp_all [Option.isSome_iff_ne_none]
  · rintro ⟨free, named, parent⟩
    simp [missing free, free, parent, Option.isSome_iff_ne_none.1 named]

/-- Removes files. Missing ones do not matter, and every path is tried; the first other refusal is
the result. -/
def removeFiles (paths : List Path) : Action Disk Unit := fun disk =>
  match paths with
  | [] => (.ok (), disk)
  | path :: rest =>
    let (first, disk) := (remove path).on disk
    let (others, disk) := (removeFiles rest).on disk
    match first with
    | .ok () | .error (.refused .notFound) => (others, disk)
    | .error e => (.error e, disk)

end Disk

end RaggedTrajectory
