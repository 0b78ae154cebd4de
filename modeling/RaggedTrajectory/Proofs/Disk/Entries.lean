import RaggedTrajectory.Proofs.Disk.Tree

/-!
# Entries of a tree

A path names a file or a link by its entry in a directory. When files and links are removed by
their paths, a link that is gone may have been on the way of a later path. But paths lead to less
then, never to more, so a path whose entry was removed names nothing from then on.

* `Disk.findEntry_of_keepsWays`: what the entry of a path depends on.
* `Disk.findEntry_of_isPart`: the entry of a path on a part of a tree.
* `Disk.removeFiles_on`: the removal of files, path by path.
* `Disk.isRemoved_afterRemovals`: what it leaves.
-/

namespace RaggedTrajectory

namespace Disk

/-! ## The entry of a path -/

theorem findEntry_eq_ok_iff {disk : Disk} {path : Path} {location : Location} :
    disk.findEntry path = .ok location ↔ ∃ here name,
      disk.findLast path = .ok (here, some name) ∧ name.utf8ByteSize ≤ maxNameLength ∧
      endsInSlash path = false ∧
      (∃ node, disk.node? (here ++ [name]) = some node ∧ node ≠ .directory) ∧
      here ++ [name] = location := by
  unfold findEntry
  cases disk.findLast path with
  | error refusal => simp [bind, Except.bind]
  | ok way =>
    obtain ⟨here, _ | name⟩ := way
    · simp [bind, Except.bind, throw, throwThe, MonadExceptOf.throw]
    · simp only [bind, Except.bind, throw, throwThe, MonadExceptOf.throw, pure, Except.pure,
        Except.ok.injEq, Prod.mk.injEq, Option.some.injEq]
      by_cases long : maxNameLength < name.utf8ByteSize
      · simp [long, Nat.not_le.2 long]
      · -- A slash at the end is looked at last, when it is known what stands there.
        rw [if_neg long]
        constructor
        · intro found
          split at found
          · cases found
          · cases found
          · next node other there =>
              split at found
              · cases found
              · next slash =>
                  cases found
                  exact ⟨here, name, ⟨rfl, rfl⟩, Nat.not_lt.1 long, Bool.eq_false_iff.2 slash,
                    ⟨node, there, other⟩, rfl⟩
        · rintro ⟨_, _, ⟨rfl, rfl⟩, -, slash, ⟨node, there, other⟩, rfl⟩
          rw [there, slash]
          match node with
          | .file _ => rfl
          | .link _ => rfl
          | .directory => exact absurd rfl other

/-- With the same directories and links, a path names what it named, if that is still there. -/
theorem findEntry_of_keepsWays {disk other : Disk} (keeps : disk.KeepsWays other)
    (same : other.workingDirectory = disk.workingDirectory) {path : Path} {location : Location}
    (found : disk.findEntry path = .ok location)
    (there : other.node? location = disk.node? location) : other.findEntry path = .ok location := by
  obtain ⟨here, name, way, short, slash, node, rfl⟩ := findEntry_eq_ok_iff.1 found
  rw [← there] at node
  exact findEntry_eq_ok_iff.2 ⟨here, name, findLast_of_keepsWays keeps same way, short, slash, node,
    rfl⟩

/-- The bytes of the file that a path names. -/
def bytesAt? (disk : Disk) (path : Path) : Option Bytes :=
  match disk.findEntry path with
  | .error _ => none
  | .ok location =>
    match disk.node? location with
    | some (.file id) => some (disk.content id)
    | _ => none

/-- A path names the file with a number. -/
def Names (disk : Disk) (path : Path) (id : FileId) : Prop :=
  ∃ location, disk.findEntry path = .ok location ∧ disk.node? location = some (.file id)

theorem bytesAt?_of_names {disk : Disk} {path : Path} {id : FileId} (named : disk.Names path id) :
    disk.bytesAt? path = some (disk.content id) := by
  obtain ⟨location, found, there⟩ := named
  simp only [bytesAt?, found, there]

/-! ## Parts of a tree -/

/-- Everything that stands on a disk stands on another one too. -/
structure IsPart (part whole : Disk) : Prop where
  nodes : ∀ location node, part.node? location = some node → whole.node? location = some node
  workingDirectory : whole.workingDirectory = part.workingDirectory

theorem IsPart.refl (disk : Disk) : disk.IsPart disk := ⟨fun _ _ there => there, rfl⟩

theorem IsPart.trans {part middle whole : Disk} (first : part.IsPart middle)
    (second : middle.IsPart whole) : part.IsPart whole :=
  ⟨fun location node there => second.nodes location node (first.nodes location node there),
    second.workingDirectory.trans first.workingDirectory⟩

/-- The root is no entry of a directory. -/
theorem ne_root_of_findEntry {disk : Disk} {path : Path} {location : Location}
    (found : disk.findEntry path = .ok location) : location ≠ [] := by
  obtain ⟨here, name, -, -, -, -, rfl⟩ := findEntry_eq_ok_iff.1 found
  simp

theorem isPart_erase (disk : Disk) {location : Location} (root : location ≠ []) :
    (disk.erase location).IsPart disk := by
  refine ⟨fun other node there => ?_, rfl⟩
  by_cases own : other = location
  · rw [own, node?_erase_self disk root] at there
    cases there
  · rw [node?_erase_ne disk own] at there
    exact there

theorem isPart_of_nodes {part whole : Disk} (nodes : whole.nodes = part.nodes)
    (same : whole.workingDirectory = part.workingDirectory) : part.IsPart whole := by
  refine ⟨fun location node there => ?_, same⟩
  rw [node?, nodes]
  exact there

theorem isPart_addFile {disk : Disk} {location : Location} (free : disk.node? location = none)
    (bytes : Bytes) : disk.IsPart (disk.addFile location bytes) := by
  refine ⟨fun other node there => ?_, rfl⟩
  have different : other ≠ location := by
    rintro rfl
    rw [free] at there
    cases there
  exact (disk.node?_put_ne (.file disk.nextId) different).trans there

section IsPart

variable {part whole : Disk} (inside : part.IsPart whole)

include inside

theorem keepsWays_of_isPart : part.KeepsWays whole :=
  fun location node there _ => inside.nodes location node there

/-- What stands on the whole stands on the part too, or nothing does. -/
theorem node?_of_isPart {location : Location} {node : Node}
    (there : whole.node? location = some node) :
    part.node? location = some node ∨ part.node? location = none := by
  cases own : part.node? location with
  | none => exact .inr rfl
  | some other =>
    rw [inside.nodes location other own] at there
    exact .inl there

/-- A walk that leads to a directory leads to the same one on the part, or something is missing on
the way. -/
theorem walk_of_isPart {follow : Bool} {links : Nat} {here destination : Location}
    {names : List String}
    (found : whole.walk follow links here names = .ok (.node destination .directory)) :
    part.walk follow links here names = .ok (.node destination .directory) ∨
      part.walk follow links here names = .error .notFound ∨
      ∃ directory name, part.walk follow links here names = .ok (.vacant directory name) := by
  -- Where a directory or a link of the whole is missing, the walk on the part ends.
  have missing : ∀ {links : Nat} {here : Location} {name : String} {rest : List String},
      name ≠ "." → name ≠ ".." → ¬maxNameLength < name.utf8ByteSize →
      part.node? (here ++ [name]) = none →
      part.walk follow links here (name :: rest) = .error .notFound ∨
        ∃ directory last,
          part.walk follow links here (name :: rest) = .ok (.vacant directory last) := by
    intro links here name rest dot up short free
    rw [walk, if_neg dot, if_neg up, if_neg short, free]
    by_cases last : rest = []
    · exact .inr ⟨here, name, if_pos last⟩
    · exact .inl (if_neg last)
  fun_induction Disk.walk whole follow links here names with
  | case1 links here =>
    rw [walk]
    exact .inl found
  | case2 links here rest ih =>
    rw [walk, if_pos rfl]
    exact ih found
  | case3 links here rest up ih =>
    rw [walk, if_neg up, if_pos rfl]
    exact ih found
  | case4 | case5 | case6 | case8 | case9 | case10 | case11 => cases found
  | case7 links here name rest dot up short there ih =>
    rcases node?_of_isPart inside there with own | free
    · rw [walk, if_neg dot, if_neg up, if_neg short, own]
      exact ih found
    · exact .inr (missing dot up short free)
  | case12 here name rest dot up short target there last links ih =>
    rcases node?_of_isPart inside there with own | free
    · rw [walk, if_neg dot, if_neg up, if_neg short, own]
      simp only [if_neg last]
      exact ih found
    · exact .inr (missing dot up short free)

/-- So does a path, up to its last name. -/
theorem findLast_of_isPart {path : Path} {here : Location} {last : Option String}
    (found : whole.findLast path = .ok (here, last)) :
    part.findLast path = .ok (here, last) ∨ part.findLast path = .error .notFound := by
  obtain ⟨allowed, way, own⟩ := findLast_eq_ok_iff.1 found
  rw [walkToLast, inside.workingDirectory] at way
  rcases walk_of_isPart inside way with same | lost
  · exact .inl (findLast_eq_ok_iff.2 ⟨allowed, same, own⟩)
  · -- Whether the walk ends at a missing name or in the middle, the path names nothing.
    refine .inr ?_
    rw [findLast_eq, allowed, walkToLast]
    rcases lost with lost | ⟨directory, name, lost⟩ <;> rw [lost] <;> rfl

/-- What a path names on the part it names on the whole. -/
theorem findEntry_of_part {path : Path} {location : Location}
    (found : part.findEntry path = .ok location) : whole.findEntry path = .ok location := by
  refine findEntry_of_keepsWays (keepsWays_of_isPart inside) inside.workingDirectory found ?_
  obtain ⟨here, name, -, -, -, ⟨node, there, -⟩, rfl⟩ := findEntry_eq_ok_iff.1 found
  rw [there, inside.nodes _ node there]

theorem names_of_part {path : Path} {id : FileId} (named : part.Names path id) :
    whole.Names path id := by
  obtain ⟨location, found, there⟩ := named
  exact ⟨location, findEntry_of_part inside found, inside.nodes location _ there⟩

/-- What a path names on the whole it names on the part, or its entry or its way is missing there,
and it names nothing. -/
theorem findEntry_of_isPart {path : Path} {location : Location}
    (found : whole.findEntry path = .ok location) :
    part.findEntry path = .ok location ∨
      part.findEntry path = .error .notFound ∧
        (part.node? location = none ∨ part.findLast path = .error .notFound) := by
  obtain ⟨here, name, way, short, slash, ⟨node, there, other⟩, rfl⟩ := findEntry_eq_ok_iff.1 found
  -- First the way to the directory, then the entry in it.
  rcases findLast_of_isPart inside way with same | lost
  · rcases node?_of_isPart inside there with own | free
    · exact .inl (findEntry_eq_ok_iff.2 ⟨here, name, same, short, slash, ⟨node, own, other⟩, rfl⟩)
    · refine .inr ⟨?_, .inl free⟩
      rw [findEntry, same]
      simp only [bind, Except.bind, if_neg (Nat.not_lt.2 short), free]
      rfl
  · refine .inr ⟨?_, .inr lost⟩
    rw [findEntry, lost]
    rfl

end IsPart

/-! ## Removing files and links -/

theorem remove_on_error {disk : Disk} {path : Path} {refusal : Refusal}
    (refused : disk.findEntry path = .error refusal) :
    (remove path).on disk = (.error (.refused refusal), disk) := by
  unfold remove
  rw [Action.on_bind_ok (Action.on_get _), refused]
  rfl

/-- What comes of removing files and links, path by path. Every path is tried, on the disk that the
ones before it leave. -/
def removals (disk : Disk) : List Path → List (Except Error Unit)
  | [] => []
  | path :: rest => ((remove path).on disk).1 :: removals ((remove path).on disk).2 rest

/-- The disk after files and links were removed, path by path. -/
def afterRemovals (disk : Disk) (paths : List Path) : Disk :=
  paths.foldl (fun disk path => ((remove path).on disk).2) disk

/-- Why a removal failed. That there was nothing to remove does not count. -/
def removalFault? : Except Error Unit → Option Error
  | .ok () | .error (.refused .notFound) => none
  | .error e => some e

/-- All files are tried, and the first fault is the result. -/
theorem removeFiles_on (paths : List Path) (disk : Disk) :
    (removeFiles paths).on disk =
      (match (disk.removals paths).findSome? removalFault? with
        | none => .ok ()
        | some e => .error e,
      disk.afterRemovals paths) := by
  induction paths generalizing disk with
  | nil => rfl
  | cons path rest ih =>
    refine (removeFiles.eq_def (path :: rest) disk).trans ?_
    rw [removals, List.findSome?_cons, afterRemovals, List.foldl_cons, ← afterRemovals]
    simp only [ih]
    -- Only one refusal is passed over; the fault of the first path is told apart in the same way.
    split
    · next done => rw [done, removalFault?]
    · next missing => rw [missing, removalFault?]
    · next e other failed => rw [failed, removalFault?.eq_3 e other]

/-- The disk after a removal, granted or not, is a part of the one before. -/
theorem isPart_remove (disk : Disk) (path : Path) :
    ((remove path).on disk).2.IsPart disk := by
  cases found : disk.findEntry path with
  | ok location =>
    rw [remove_on found]
    exact isPart_erase disk (ne_root_of_findEntry found)
  | error refusal =>
    rw [remove_on_error found]
    exact .refl disk

theorem isPart_afterRemovals (disk : Disk) (paths : List Path) :
    (disk.afterRemovals paths).IsPart disk := by
  induction paths generalizing disk with
  | nil => exact .refl disk
  | cons path rest ih => exact (ih _).trans (isPart_remove disk path)

/-- Of a disk, the files and links of some paths are gone. -/
structure IsRemoved (disk : Disk) (paths : List Path) (after : Disk) : Prop where
  /-- A path that named a file or a link names nothing: its entry is gone, or the way to it. -/
  gone : ∀ path ∈ paths, ∀ location, disk.findEntry path = .ok location →
    after.findEntry path = .error .notFound ∧
      (after.node? location = none ∨ after.findLast path = .error .notFound)
  /-- What is gone was named by one of the paths. -/
  named : ∀ location, after.node? location ≠ disk.node? location →
    after.node? location = none ∧ ∃ path ∈ paths, disk.findEntry path = .ok location
  /-- Nothing but the tree has changed. -/
  rest : ∃ nodes, after = { disk with nodes }

/-- After its removal a path names nothing. -/
theorem isRemoved_remove (disk : Disk) (path : Path) :
    disk.IsRemoved [path] ((remove path).on disk).2 := by
  cases found : disk.findEntry path with
  | error refusal =>
    rw [remove_on_error found]
    refine ⟨fun other mem location named => ?_, fun location changed => absurd rfl changed,
      disk.nodes, rfl⟩
    obtain rfl := List.mem_singleton.1 mem
    rw [found] at named
    cases named
  | ok location =>
    have root := ne_root_of_findEntry found
    have free := disk.node?_erase_self root
    rw [remove_on found]
    refine ⟨fun other mem place named => ?_, fun place changed => ?_, _, rfl⟩
    · obtain rfl := List.mem_singleton.1 mem
      rw [found] at named
      cases named
      rcases findEntry_of_isPart (isPart_erase disk root) found with still | missing
      · -- A path does not name what is not there.
        obtain ⟨here, name, -, -, -, ⟨node, there, -⟩, same⟩ := findEntry_eq_ok_iff.1 still
        rw [same, free] at there
        cases there
      · exact missing
    · by_cases own : place = location
      · rw [own]
        exact ⟨free, path, List.mem_cons_self, found⟩
      · exact absurd (disk.node?_erase_ne own) changed

/-- What is gone after several removals. -/
theorem isRemoved_afterRemovals (disk : Disk) (paths : List Path) :
    disk.IsRemoved paths (disk.afterRemovals paths) := by
  induction paths generalizing disk with
  | nil =>
    exact ⟨fun path mem => (by cases mem), fun location changed => absurd rfl changed,
      disk.nodes, rfl⟩
  | cons path rest ih =>
    have first := isRemoved_remove disk path
    have part := isPart_remove disk path
    have others := ih ((remove path).on disk).2
    have smaller := isPart_afterRemovals ((remove path).on disk).2 rest
    rw [afterRemovals, List.foldl_cons, ← afterRemovals]
    -- The disk gets smaller twice: by the first path, and by all others.
    generalize ((remove path).on disk).2 = middle at *
    generalize middle.afterRemovals rest = after at *
    refine ⟨fun other mem location named => ?_, fun location changed => ?_, ?_⟩
    · rcases findEntry_of_isPart (smaller.trans part) named with still | missing
      · -- If it were still there, it would have been there for its own removal.
        have before := findEntry_of_part smaller still
        rcases List.mem_cons.1 mem with rfl | later
        · rw [(first.gone _ List.mem_cons_self location named).1] at before
          cases before
        · exact others.gone other later location before
      · exact missing
    · by_cases same : middle.node? location = disk.node? location
      · rw [← same] at changed
        obtain ⟨free, other, mem, named⟩ := others.named location changed
        exact ⟨free, other, List.mem_cons_of_mem _ mem, findEntry_of_part part named⟩
      · obtain ⟨free, other, mem, named⟩ := first.named location same
        obtain rfl := List.mem_singleton.1 mem
        refine ⟨?_, other, List.mem_cons_self, named⟩
        -- What is gone stays away.
        cases there : after.node? location with
        | none => rfl
        | some node =>
          rw [smaller.nodes location node there] at free
          cases free
    · obtain ⟨nodes, rfl⟩ := first.rest
      obtain ⟨last, same⟩ := others.rest
      exact ⟨last, same⟩

end Disk

end RaggedTrajectory
