import RaggedTrajectory.Proofs.Disk.Writes
import RaggedTrajectory.Target

/-!
# Trees that gain files

Making a file puts it where nothing was, so that every path that led to a directory still leads
there: a walk to a directory passes through directories and links alone. This is why a path that was
vacant names the new file afterwards, and why the file can be removed by the same path, whatever
other files came or went in the meantime.

* `Disk.walk_of_keepsWays`: what a walk to a directory depends on.
* `Disk.findEntry_of_findVacant`: a path names the file that was made for it.
* `Disk.Gains`: a disk that has more files than another one, and no other differences.
* `Disk.gains_removeFiles`: removing the files again.
-/

namespace RaggedTrajectory

namespace Disk

/-! ## The last name of a path -/

/-- The names of a path, the last one first. A slash at the end is no name. -/
def namesBackwards (path : Path) : List String :=
  let names := (steps path.text).reverse
  if path.text.toList.getLast? = some '/' then names.drop 1 else names

/-- The last name of a path, if it is one. -/
def lastName? (path : Path) : Option String :=
  (namesBackwards path).head?.filter fun name => name ≠ "." ∧ name ≠ ".."

/-- The walk to the directory of the last name. -/
def walkToLast (disk : Disk) (path : Path) : Except Refusal Found :=
  disk.walk true maxLinks (start disk.workingDirectory path.text)
    ((namesBackwards path).drop 1).reverse

theorem findLast_eq (disk : Disk) (path : Path) :
    disk.findLast path = (checkPath path).bind fun _ => (disk.walkToLast path).bind fun
      | .node here .directory => .ok (here, lastName? path)
      | .node _ _ => .error .notADirectory
      | .vacant _ _ => .error .notFound := by
  unfold findLast
  cases checkPath path with
  | error refusal => rfl
  | ok =>
    show (disk.walkToLast path).bind _ = (disk.walkToLast path).bind _
    cases disk.walkToLast path with
    | error refusal => rfl
    | ok found => rcases found with ⟨here, _ | _ | _⟩ | ⟨here, name⟩ <;> rfl

theorem findLast_eq_ok_iff {disk : Disk} {path : Path} {here : Location} {last : Option String} :
    disk.findLast path = .ok (here, last) ↔ checkPath path = .ok () ∧
      disk.walkToLast path = .ok (.node here .directory) ∧ lastName? path = last := by
  rw [findLast_eq]
  cases checkPath path with
  | error refusal => simp [Except.bind]
  | ok =>
    cases disk.walkToLast path with
    | error refusal => simp [Except.bind]
    | ok found => rcases found with ⟨place, _ | _ | _⟩ | ⟨place, name⟩ <;> simp [Except.bind]

/-- A last name comes after the names on the way, if no slash follows it. -/
theorem steps_eq_of_lastName? {path : Path} {name : String} (bare : endsInSlash path = false)
    (last : lastName? path = some name) :
    steps path.text = ((namesBackwards path).drop 1).reverse ++ [name] ∧
      name ≠ "." ∧ name ≠ ".." := by
  have whole : namesBackwards path = (steps path.text).reverse :=
    if_neg (of_decide_eq_false bare)
  obtain ⟨first, named⟩ := Option.filter_eq_some_iff.1 last
  obtain ⟨others, split⟩ := List.head?_eq_some_iff.1 first
  refine ⟨?_, by simpa using named⟩
  rw [split, List.drop_one, List.tail_cons, ← List.reverse_cons, ← split, whole,
    List.reverse_reverse]

/-! ## Ways -/

/-- A walk that leads to a directory goes on from there, if the links that may still be followed do
not matter. -/
theorem walk_append {disk : Disk} {follow : Bool} {links : Nat} {here destination : Location}
    {names others : List String} {result : Except Refusal Found}
    (found : disk.walk follow links here names = .ok (.node destination .directory))
    (behind : ∀ links, disk.walk follow links destination others = result) :
    disk.walk follow links here (names ++ others) = result := by
  -- The cases are those of the walk along the first names.
  fun_induction Disk.walk disk follow links here names with
  | case1 links here =>
    cases found
    exact behind links
  | case2 links here rest ih => rw [List.cons_append, walk, if_pos rfl]; exact ih found
  | case3 links here rest up ih =>
    rw [List.cons_append, walk, if_neg up, if_pos rfl]
    exact ih found
  | case4 | case5 | case6 | case8 | case9 | case10 | case11 => cases found
  | case7 links here name rest dot up short there ih =>
    rw [List.cons_append, walk, if_neg dot, if_neg up, if_neg short, there]
    exact ih found
  | case12 here name rest dot up short target there more links ih =>
    have last : ¬(rest ++ others = [] ∧ ¬follow) := fun ⟨nil, own⟩ =>
      more ⟨(List.append_eq_nil_iff.1 nil).1, own⟩
    rw [List.cons_append, walk, if_neg dot, if_neg up, if_neg short, there]
    simp only [if_neg last]
    rw [← List.append_assoc]
    exact ih found

section Last

variable {disk : Disk} {follow : Bool} {links : Nat} {here : Location} {name : String}
  (named : name ≠ "." ∧ name ≠ "..") (short : name.utf8ByteSize ≤ maxNameLength)

include named short

theorem walk_of_vacant (free : disk.node? (here ++ [name]) = none) :
    disk.walk follow links here [name] = .ok (.vacant here name) := by
  rw [walk, if_neg named.1, if_neg named.2, if_neg (Nat.not_lt.2 short), free]
  rfl

theorem walk_of_file {id : FileId} (there : disk.node? (here ++ [name]) = some (.file id)) :
    disk.walk follow links here [name] = .ok (.node (here ++ [name]) (.file id)) := by
  rw [walk, if_neg named.1, if_neg named.2, if_neg (Nat.not_lt.2 short), there]
  rfl

end Last

/-- What a path names is where the walk along it ends. -/
theorem lookup?_eq_some_iff {disk : Disk} {path : Path} {node : Node} :
    disk.lookup? path = some node ↔ checkPath path = .ok () ∧ ∃ location,
      disk.walk true maxLinks (start disk.workingDirectory path.text) (steps path.text) =
        .ok (.node location node) := by
  rw [lookup?, find]
  cases checkPath path with
  | error refusal => simp [bind, Except.bind]
  | ok =>
    simp only [bind, Except.bind, true_and]
    split <;> simp_all

/-- Every directory and every link of a disk is on another one too. -/
def KeepsWays (disk other : Disk) : Prop :=
  ∀ location node, disk.node? location = some node → (∀ id, node ≠ .file id) →
    other.node? location = some node

section KeepsWays

variable {disk other : Disk} (keeps : disk.KeepsWays other)

include keeps

/-- A walk that leads to a directory depends on directories and links alone. -/
theorem walk_of_keepsWays {follow : Bool} {links : Nat} {here destination : Location}
    {names : List String}
    (found : disk.walk follow links here names = .ok (.node destination .directory)) :
    other.walk follow links here names = .ok (.node destination .directory) := by
  have directory : ∀ {location : Location}, disk.node? location = some .directory →
      other.node? location = some .directory :=
    fun there => keeps _ _ there fun id same => by cases same
  have link : ∀ {location : Location} {target : String},
      disk.node? location = some (.link target) → other.node? location = some (.link target) :=
    fun there => keeps _ _ there fun id same => by cases same
  -- The cases are those of the walk; where it ends at a file or at nothing it found no directory.
  fun_induction Disk.walk disk follow links here names with
  | case1 links here => rw [walk]; exact found
  | case2 links here rest ih => rw [walk, if_pos rfl]; exact ih found
  | case3 links here rest up ih => rw [walk, if_neg up, if_pos rfl]; exact ih found
  | case4 | case5 | case6 | case8 | case9 | case10 | case11 => cases found
  | case7 links here name rest dot up short there ih =>
    rw [walk, if_neg dot, if_neg up, if_neg short, directory there]
    exact ih found
  | case12 here name rest dot up short target there last links ih =>
    rw [walk, if_neg dot, if_neg up, if_neg short, link there]
    simp only [if_neg last]
    exact ih found

/-- So does what a path leads to in the last step but one. -/
theorem findLast_of_keepsWays (same : other.workingDirectory = disk.workingDirectory) {path : Path}
    {here : Location} {last : Option String} (found : disk.findLast path = .ok (here, last)) :
    other.findLast path = .ok (here, last) := by
  obtain ⟨allowed, way, own⟩ := findLast_eq_ok_iff.1 found
  refine findLast_eq_ok_iff.2 ⟨allowed, ?_, own⟩
  rw [walkToLast, same]
  exact walk_of_keepsWays keeps way

/-- What was a directory still is one. -/
theorem isDirectory_of_keepsWays (same : other.workingDirectory = disk.workingDirectory)
    {path : Path} (there : disk.isDirectory path = true) : other.isDirectory path = true := by
  obtain ⟨allowed, location, found⟩ := lookup?_eq_some_iff.1 (of_decide_eq_true there)
  refine decide_eq_true (lookup?_eq_some_iff.2 ⟨allowed, location, ?_⟩)
  rw [same]
  exact walk_of_keepsWays keeps found

end KeepsWays

/-! ## Where a new file goes -/

/-- A bare name is looked up in the directory where its path starts. -/
theorem findLast_of_bare (disk : Disk) {path : Path} {name : String}
    (allowed : checkPath path = .ok ()) (single : steps path.text = [name])
    (bare : path.text.toList.getLast? ≠ some '/') (named : name ≠ "." ∧ name ≠ "..") :
    disk.findLast path = .ok (start disk.workingDirectory path.text, some name) := by
  have here : disk.walk true maxLinks (start disk.workingDirectory path.text) [] =
      .ok (.node (start disk.workingDirectory path.text) .directory) := by rw [walk]
  simp [findLast, allowed, single, bare, here, named, bind, Except.bind, pure, Except.pure]

theorem findVacant_eq_ok_iff {disk : Disk} {path : Path} {location : Location} :
    disk.findVacant path = .ok location ↔ ∃ here name,
      disk.findLast path = .ok (here, some name) ∧ endsInSlash path = false ∧
      name.utf8ByteSize ≤ maxNameLength ∧ disk.node? (here ++ [name]) = none ∧
      here ++ [name] = location := by
  unfold findVacant
  cases disk.findLast path with
  | error refusal => simp [bind, Except.bind]
  | ok way =>
    obtain ⟨here, _ | name⟩ := way
    · simp [bind, Except.bind, throw, throwThe, MonadExceptOf.throw]
    · simp only [bind, Except.bind, throw, throwThe, MonadExceptOf.throw, pure, Except.pure,
        Except.ok.injEq, Prod.mk.injEq, Option.some.injEq]
      cases slash : endsInSlash path with
      | true => simp
      | false =>
        by_cases long : maxNameLength < name.utf8ByteSize
        · simp [long, Nat.not_le.2 long]
        · cases free : disk.node? (here ++ [name]) with
          | some node => simp [long, free]
          | none =>
            simp only [if_neg long, Option.isSome_none, if_neg Bool.false_ne_true,
              Except.ok.injEq]
            constructor
            · exact fun same => ⟨here, name, ⟨rfl, rfl⟩, trivial, Nat.not_lt.1 long, free, same⟩
            · rintro ⟨_, _, ⟨rfl, rfl⟩, -, -, -, same⟩
              exact same

theorem node?_of_findVacant {disk : Disk} {path : Path} {location : Location}
    (vacant : disk.findVacant path = .ok location) : disk.node? location = none := by
  obtain ⟨here, name, -, -, -, free, rfl⟩ := findVacant_eq_ok_iff.1 vacant
  exact free

section Places

variable {disk other : Disk} (keeps : disk.KeepsWays other)
  (same : other.workingDirectory = disk.workingDirectory) {path : Path} {location : Location}
  (vacant : disk.findVacant path = .ok location)

include keeps same vacant

/-- The place that a path has for a new file depends on the directories and links, as long as
nothing is there. -/
theorem findVacant_of_keepsWays (free : other.node? location = none) :
    other.findVacant path = .ok location := by
  obtain ⟨here, name, found, slash, short, -, rfl⟩ := findVacant_eq_ok_iff.1 vacant
  exact findVacant_eq_ok_iff.2 ⟨here, name, findLast_of_keepsWays keeps same found, slash, short,
    free, rfl⟩

/-- When a file is there, the path names it. -/
theorem findEntry_of_findVacant {id : FileId} (there : other.node? location = some (.file id)) :
    other.findEntry path = .ok location := by
  obtain ⟨here, name, found, slash, short, -, rfl⟩ := findVacant_eq_ok_iff.1 vacant
  rw [findEntry, findLast_of_keepsWays keeps same found]
  simp only [bind, Except.bind, if_neg (Nat.not_lt.2 short), there, slash]
  rfl

/-- The path leads to this place, whether a file is there or nothing. -/
theorem lookup?_of_findVacant
    (plain : other.node? location = none ∨ ∃ id, other.node? location = some (.file id)) :
    other.lookup? path = other.node? location := by
  obtain ⟨here, name, found, slash, short, -, rfl⟩ := findVacant_eq_ok_iff.1 vacant
  obtain ⟨allowed, way, last⟩ := findLast_eq_ok_iff.1 (findLast_of_keepsWays keeps same found)
  obtain ⟨names, named⟩ := steps_eq_of_lastName? slash last
  rw [lookup?, find, allowed, names]
  simp only [bind, Except.bind]
  rcases plain with free | ⟨id, there⟩
  · rw [walk_append way fun links => walk_of_vacant named short free, free]
  · rw [walk_append way fun links => walk_of_file named short there, there]

end Places

theorem remove_on {disk : Disk} {path : Path} {location : Location}
    (found : disk.findEntry path = .ok location) :
    (remove path).on disk = (.ok (), disk.erase location) := by
  unfold remove
  rw [Action.on_bind_ok (Action.on_get _), found]
  rfl

theorem removeFiles_cons_on {disk middle : Disk} {path : Path} (paths : List Path)
    (removed : (remove path).on disk = (.ok (), middle)) :
    (removeFiles (path :: paths)).on disk = (removeFiles paths).on middle := by
  refine (removeFiles.eq_def (path :: paths) disk).trans ?_
  simp only [removed]

/-! ## What a write leaves as it is -/

/-- A disk differs from the one before at most in the bytes of one file, and in the requests whose
outages were looked up. -/
structure WritesOnly (disk : Disk) (id : FileId) (after : Disk) : Prop where
  nodes : after.nodes = disk.nodes
  nextId : after.nextId = disk.nextId
  workingDirectory : after.workingDirectory = disk.workingDirectory
  outages : ∀ outage ∈ after.outages, outage ∈ disk.outages
  content : ∀ other ≠ id, after.content other = disk.content other

theorem WritesOnly.refl (disk : Disk) (id : FileId) : disk.WritesOnly id disk :=
  ⟨rfl, rfl, rfl, fun _ mem => mem, fun _ _ => rfl⟩

theorem WritesOnly.trans {disk middle after : Disk} {id : FileId}
    (first : disk.WritesOnly id middle) (second : middle.WritesOnly id after) :
    disk.WritesOnly id after where
  nodes := second.nodes.trans first.nodes
  nextId := second.nextId.trans first.nextId
  workingDirectory := second.workingDirectory.trans first.workingDirectory
  outages outage mem := first.outages outage (second.outages outage mem)
  content other different := (second.content other different).trans (first.content other different)

/-- A disk that refuses nothing still refuses nothing. -/
theorem isReliable_of_writesOnly {disk after : Disk} {id : FileId} (reliable : disk.IsReliable)
    (wrote : disk.WritesOnly id after) : after.IsReliable :=
  fun outage mem => reliable outage (wrote.outages outage mem)

theorem writesOnly_afterRequest (disk : Disk) (id : FileId) :
    disk.WritesOnly id disk.afterRequest :=
  ⟨rfl, rfl, rfl, fun _ mem => List.mem_of_mem_drop mem, fun _ _ => rfl⟩

theorem writesOnly_afterWrite (disk : Disk) (id : FileId) (write : Write) :
    disk.WritesOnly id (disk.afterWrite id write) :=
  ⟨rfl, rfl, rfl, fun _ mem => List.mem_of_mem_drop mem,
    fun _ different => content_afterWrite_ne disk write different⟩

/-- A write, granted or not, changes its own file alone. -/
theorem writesOnly_write (disk : Disk) (id : FileId) (write : Write) :
    disk.WritesOnly id ((Disk.write id write).on disk).2 := by
  rcases disk.grantsNext_or with grants | ⟨outage, next⟩
  · rw [write_on_of_grantsNext grants]
    exact writesOnly_afterWrite disk id write
  · rw [write_on_of_outage next]
    exact writesOnly_afterWrite disk id _

theorem writesOnly_sync (disk : Disk) (id : FileId) :
    disk.WritesOnly id (sync.on disk).2 := by
  rw [sync_on_snd]
  exact writesOnly_afterRequest disk id

/-- Two requests one after the other, each of which changes one file alone. -/
theorem writesOnly_bind {α β : Type} {first : Action Disk α} {next : α → Action Disk β}
    {id : FileId} (left : ∀ disk : Disk, disk.WritesOnly id (first.on disk).2)
    (right : ∀ value, ∀ disk : Disk, disk.WritesOnly id ((next value).on disk).2) (disk : Disk) :
    disk.WritesOnly id ((first >>= next).on disk).2 := by
  have before := left disk
  cases ran : first.on disk with
  | mk outcome middle =>
    rw [ran] at before
    cases outcome with
    | ok value =>
      rw [Action.on_bind_ok ran]
      exact before.trans (right value middle)
    | error e =>
      rw [Action.on_bind_error ran]
      exact before

/-! ## More files -/

/-- Every file of a disk has a number below that of the next new one. -/
def IsNumbered (disk : Disk) : Prop :=
  ∀ location id, disk.node? location = some (.file id) → id < disk.nextId

theorem isNumbered_ofDirectories (directories : List Location) (workingDirectory : Location) :
    (ofDirectories directories workingDirectory).IsNumbered := by
  intro location id there
  unfold node? at there
  split at there
  · cases there
  · obtain ⟨entry, found, same⟩ := Option.map_eq_some_iff.1 there
    obtain ⟨other, -, rfl⟩ := List.mem_map.1 (List.mem_of_find?_eq_some found)
    cases same

theorem isNumbered_addFile {disk : Disk} (numbered : disk.IsNumbered) {location : Location}
    (below : location ≠ []) (bytes : Bytes) : (disk.addFile location bytes).IsNumbered := by
  intro other id there
  by_cases own : other = location
  · have put : (disk.addFile location bytes).node? location = some (.file disk.nextId) :=
      disk.node?_put_self (.file disk.nextId) below
    rw [own, put] at there
    cases there
    exact Nat.lt_succ_self _
  · have kept : (disk.addFile location bytes).node? other = disk.node? other :=
      disk.node?_put_ne (.file disk.nextId) own
    rw [kept] at there
    exact Nat.lt_succ_of_lt (numbered other id there)

theorem isNumbered_put {disk : Disk} (numbered : disk.IsNumbered) {location : Location}
    (below : location ≠ []) {node : Node} (other : ∀ id, node ≠ .file id) :
    (disk.put location node).IsNumbered := by
  intro place id there
  by_cases own : place = location
  · rw [own, disk.node?_put_self node below] at there
    cases there
    exact absurd rfl (other id)
  · rw [disk.node?_put_ne node own] at there
    exact numbered place id there

/-- A disk has the files of a list more than it had in the beginning, each of them at a place where
nothing was, and everything else is as it was. -/
structure Gains (initial : Disk) (files : List (Location × FileId)) (disk : Disk) : Prop where
  reliable : disk.IsReliable
  workingDirectory : disk.workingDirectory = initial.workingDirectory
  nextId : initial.nextId ≤ disk.nextId
  /-- Each file is at its place, and is a new one. -/
  there : ∀ file ∈ files, disk.node? file.1 = some (.file file.2)
  vacant : ∀ file ∈ files, initial.node? file.1 = none
  new : ∀ file ∈ files, initial.nextId ≤ file.2
  distinct : (files.map Prod.fst).Nodup
  /-- No other place has changed, and no file that was there. -/
  elsewhere : ∀ location ∉ files.map Prod.fst, disk.node? location = initial.node? location
  content : ∀ id < initial.nextId, disk.content id = initial.content id

/-- Paths lead to files, one by one: a file that is made for the path goes to this place. -/
def LeadTo (initial : Disk) (paths : List Path) (files : List (Location × FileId)) : Prop :=
  paths.map initial.findVacant = files.map fun file => .ok file.1

/-- The disk without its outages: its tree and its files. -/
def settled (disk : Disk) : Disk := { disk with outages := [] }

/-- Outages do not matter for the tree. -/
theorem gains_settled {initial disk : Disk} {files : List (Location × FileId)}
    (gains : initial.Gains files disk) : initial.Gains files disk.settled :=
  { gains with reliable := fun outage mem => by cases mem }

theorem gains_of_settled {initial disk : Disk} {files : List (Location × FileId)}
    (gains : initial.Gains files disk.settled) (reliable : disk.IsReliable) :
    initial.Gains files disk :=
  { gains with reliable }

theorem gains_settled_self (disk : Disk) : disk.Gains [] disk.settled where
  reliable _ mem := by cases mem
  workingDirectory := rfl
  nextId := Nat.le_refl _
  there _ mem := by cases mem
  vacant _ mem := by cases mem
  new _ mem := by cases mem
  distinct := List.nodup_nil
  elsewhere _ _ := rfl
  content _ _ := rfl

theorem gains_refl {disk : Disk} (reliable : disk.IsReliable) : disk.Gains [] disk :=
  gains_of_settled disk.gains_settled_self reliable

section Gains

variable {initial disk after : Disk} {files : List (Location × FileId)}
  (gains : initial.Gains files disk)

include gains

theorem keepsWays_of_gains : initial.KeepsWays disk := by
  intro location node there _
  rw [gains.elsewhere location fun mem => ?_, there]
  obtain ⟨file, inside, rfl⟩ := List.mem_map.1 mem
  rw [gains.vacant file inside] at there
  cases there

theorem keepsWays_of_gains_symm : disk.KeepsWays initial := by
  intro location node there other
  rw [← gains.elsewhere location fun mem => ?_, there]
  obtain ⟨file, inside, rfl⟩ := List.mem_map.1 mem
  rw [gains.there file inside] at there
  cases there
  exact other _ rfl

/-- Writing to a new file changes nothing else. -/
theorem gains_of_writesOnly {id : FileId} (new : initial.nextId ≤ id)
    (wrote : disk.WritesOnly id after) : initial.Gains files after := by
  have nodes : ∀ location, after.node? location = disk.node? location := fun location => by
    rw [node?, wrote.nodes, node?]
  refine ⟨isReliable_of_writesOnly gains.reliable wrote,
    wrote.workingDirectory.trans gains.workingDirectory, wrote.nextId ▸ gains.nextId,
    fun file mem => (nodes _).trans (gains.there file mem), gains.vacant, gains.new,
    gains.distinct, fun location absent => (nodes _).trans (gains.elsewhere location absent),
    fun other below => ?_⟩
  rw [wrote.content other (Nat.ne_of_lt (Nat.lt_of_lt_of_le below new)), gains.content other below]

/-- A file that is made where nothing is comes to the others. -/
theorem gains_addFile {location : Location} (free : disk.node? location = none) (bytes : Bytes) :
    initial.Gains (files ++ [(location, disk.nextId)]) (disk.addFile location bytes) := by
  have root : location ≠ [] := by
    rintro rfl
    cases free
  have own : (disk.addFile location bytes).node? location = some (.file disk.nextId) :=
    disk.node?_put_self (.file disk.nextId) root
  have others : ∀ {other}, other ≠ location →
      (disk.addFile location bytes).node? other = disk.node? other :=
    fun different => disk.node?_put_ne (.file disk.nextId) different
  -- The places of the other files are taken, so the new place is none of them.
  have absent : location ∉ files.map Prod.fst := by
    intro mem
    obtain ⟨file, inside, rfl⟩ := List.mem_map.1 mem
    rw [gains.there file inside] at free
    cases free
  refine ⟨gains.reliable, gains.workingDirectory, Nat.le_succ_of_le gains.nextId, ?_, ?_, ?_, ?_,
    ?_, ?_⟩
  · intro file mem
    rcases List.mem_append.1 mem with mem | mem
    · rw [others fun same => absent (same ▸ List.mem_map_of_mem mem), gains.there file mem]
    · obtain rfl := List.mem_singleton.1 mem
      exact own
  · intro file mem
    rcases List.mem_append.1 mem with mem | mem
    · exact gains.vacant file mem
    · obtain rfl := List.mem_singleton.1 mem
      exact (gains.elsewhere location absent).symm.trans free
  · intro file mem
    rcases List.mem_append.1 mem with mem | mem
    · exact gains.new file mem
    · obtain rfl := List.mem_singleton.1 mem
      exact gains.nextId
  · rw [List.map_append, List.nodup_append]
    refine ⟨gains.distinct, List.pairwise_singleton _ _, fun other mem last isLast same => ?_⟩
    obtain rfl := List.mem_singleton.1 isLast
    exact absent (same ▸ mem)
  · intro other outside
    rw [List.map_append, List.mem_append, not_or] at outside
    rw [others fun same => outside.2 (same ▸ List.mem_singleton_self _),
      gains.elsewhere other outside.1]
  · intro id below
    have different : id ≠ disk.nextId := Nat.ne_of_lt (Nat.lt_of_lt_of_le below gains.nextId)
    exact (content_setContent_ne _ bytes different).trans (gains.content id below)

end Gains

/-- A file that is removed leaves nothing behind. -/
theorem gains_erase {initial disk : Disk} {file : Location × FileId}
    {files : List (Location × FileId)} (gains : initial.Gains (file :: files) disk) :
    initial.Gains files (disk.erase file.1) := by
  obtain ⟨apart, distinct⟩ := List.nodup_cons.1 gains.distinct
  have vacant := gains.vacant file List.mem_cons_self
  have root : file.1 ≠ [] := by
    intro same
    rw [same] at vacant
    cases vacant
  refine ⟨gains.reliable, gains.workingDirectory, gains.nextId, ?_,
    fun other mem => gains.vacant other (List.mem_cons_of_mem _ mem),
    fun other mem => gains.new other (List.mem_cons_of_mem _ mem), distinct, ?_, gains.content⟩
  · intro other mem
    rw [disk.node?_erase_ne fun same : other.1 = file.1 => apart (same ▸ List.mem_map_of_mem mem)]
    exact gains.there other (List.mem_cons_of_mem _ mem)
  · intro location outside
    by_cases own : location = file.1
    · rw [own, disk.node?_erase_self root, vacant]
    · rw [disk.node?_erase_ne own]
      exact gains.elsewhere location fun mem => (List.mem_cons.1 mem).elim own outside

/-- Files that are removed by the paths they were made for are gone, and the others stay. No outage
stands in the way of a removal, and none is looked up. -/
theorem settled_removeFiles {initial disk : Disk} {files rest : List (Location × FileId)}
    (gains : initial.Gains (files ++ rest) disk.settled) {paths : List Path}
    (lead : initial.LeadTo paths files) :
    ∃ after, (removeFiles paths).on disk = (.ok (), after) ∧ after.outages = disk.outages ∧
      initial.Gains rest after.settled := by
  induction files generalizing disk paths with
  | nil =>
    rw [LeadTo, List.map_nil, List.map_eq_nil_iff] at lead
    rw [lead]
    exact ⟨disk, rfl, rfl, gains⟩
  | cons file files ih =>
    obtain ⟨path, others, rfl, vacant, behind⟩ := List.map_eq_cons_iff.1 lead
    -- No way has changed since the file was made, so its path leads to it.
    have keeps : initial.KeepsWays disk.settled := keepsWays_of_gains gains
    replace keeps : initial.KeepsWays disk := keeps
    have found := findEntry_of_findVacant keeps gains.workingDirectory vacant
      (gains.there file List.mem_cons_self)
    have fewer : initial.Gains (files ++ rest) (disk.erase file.1).settled := gains_erase gains
    obtain ⟨after, removed, outages, kept⟩ := ih fewer behind
    exact ⟨after, (removeFiles_cons_on others (remove_on found)).trans removed, outages, kept⟩

/-- Files that are removed by the paths they were made for leave nothing behind. -/
theorem gains_removeFiles {initial disk : Disk} {files : List (Location × FileId)}
    (gains : initial.Gains files disk) {paths : List Path} (lead : initial.LeadTo paths files) :
    ∃ after, (removeFiles paths).on disk = (.ok (), after) ∧ initial.Gains [] after := by
  have whole : initial.Gains (files ++ []) disk.settled :=
    (List.append_nil files).symm ▸ gains_settled gains
  obtain ⟨after, removed, outages, clean⟩ := settled_removeFiles whole lead
  refine ⟨after, removed, gains_of_settled clean fun outage mem => ?_⟩
  exact gains.reliable outage (outages ▸ mem)

/-! ## What is seen of a tree -/

/-- What stands at a place, for one who looks at it: of a file its bytes, whatever its number is. -/
inductive Entry where
  | file (bytes : Bytes)
  | directory
  | link (target : String)
  deriving DecidableEq, Repr

/-- What is seen at a place. -/
def seen? (disk : Disk) (location : Location) : Option Entry :=
  (disk.node? location).map fun
    | .file id => .file (disk.content id)
    | .directory => .directory
    | .link target => .link target

/-- A disk shows what it showed in the beginning, and files where paths led to nothing. Each of the
paths names its file. -/
def ShowsBesides (initial : Disk) (paths : List Path) (disk : Disk) : Prop :=
  ∃ locations : List Location, paths.map initial.findVacant = locations.map .ok ∧
    paths.map disk.findEntry = locations.map .ok ∧ locations.Nodup ∧
    (∀ location ∈ locations, initial.seen? location = none ∧
      ∃ bytes, disk.seen? location = some (.file bytes)) ∧
    ∀ location ∉ locations, disk.seen? location = initial.seen? location

section Gains

variable {initial disk : Disk} {files : List (Location × FileId)}
  (numbered : initial.IsNumbered) (gains : initial.Gains files disk)

include numbered gains

/-- Of the places of other files nothing else is seen than in the beginning. -/
theorem seen?_of_gains {location : Location} (outside : location ∉ files.map Prod.fst) :
    disk.seen? location = initial.seen? location := by
  rw [seen?, seen?, gains.elsewhere location outside]
  cases there : initial.node? location with
  | none => rfl
  | some node =>
    match node with
    | .file id => simp only [Option.map_some, gains.content id (numbered location id there)]
    | .directory => rfl
    | .link target => rfl

omit numbered in
/-- Paths that led to the places of files name these files. -/
theorem map_findEntry_of_gains {paths : List Path} (lead : initial.LeadTo paths files) :
    paths.map disk.findEntry = files.map fun file => .ok file.1 := by
  -- The induction takes files from the list, but not from the disk.
  suffices named : ∀ (part : List (Location × FileId)) (paths : List Path), part ⊆ files →
      initial.LeadTo paths part → paths.map disk.findEntry = part.map fun file => .ok file.1 from
    named files paths (fun _ mem => mem) lead
  intro part
  induction part with
  | nil =>
    intro paths _ lead
    rw [LeadTo, List.map_nil, List.map_eq_nil_iff] at lead
    rw [lead]
    rfl
  | cons file part ih =>
    intro paths inside lead
    obtain ⟨own, others⟩ := List.cons_subset.1 inside
    obtain ⟨path, rest, rfl, vacant, behind⟩ := List.map_eq_cons_iff.1 lead
    have found := findEntry_of_findVacant (keepsWays_of_gains gains) gains.workingDirectory vacant
      (gains.there file own)
    rw [List.map_cons, List.map_cons, found, ih rest others behind]

theorem showsBesides_of_gains {paths : List Path} (lead : initial.LeadTo paths files) :
    initial.ShowsBesides paths disk := by
  refine ⟨files.map Prod.fst, ?_, ?_, gains.distinct, ?_, fun location outside =>
    seen?_of_gains numbered gains outside⟩
  · rw [List.map_map]
    exact lead
  · rw [List.map_map]
    exact map_findEntry_of_gains gains lead
  · intro location mem
    obtain ⟨file, inside, rfl⟩ := List.mem_map.1 mem
    rw [seen?, seen?, gains.vacant file inside, gains.there file inside]
    exact ⟨rfl, _, rfl⟩

end Gains

end Disk

end RaggedTrajectory
