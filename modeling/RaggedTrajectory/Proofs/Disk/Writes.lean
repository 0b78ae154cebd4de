import RaggedTrajectory.Disk.Request
import RaggedTrajectory.Proofs.Patches

/-!
# Writes to a disk

On a disk on which no outage is planned every request of a writer is granted, so a file holds what
was written to it, write after write. On any other disk, the write that is refused may still have
put a front of its bytes into the file.

* `Disk.write_on`: a write to a reliable disk is granted.
* `Disk.create_on`: a new file is made where nothing is.
* `Disk.write_on_or_part`: what a write to any disk leaves.
* `Disk.RefusesFirst`: the first request that is not going to be granted.
-/

namespace RaggedTrajectory

/-! ## Operations one after the other -/

namespace Action

variable {σ α β : Type} {action : Action σ α} {next : α → Action σ β} {start middle finish : σ}

theorem on_bind_ok {value : α} (ran : action.on start = (.ok value, middle)) :
    (action >>= next).on start = (next value).on middle := by
  have ran : action.run.run start = (.ok value, middle) := ran
  rw [on, ExceptT.run_bind, StateT.run_bind, ran]
  rfl

theorem on_bind_error {e : Error} (ran : action.on start = (.error e, middle)) :
    (action >>= next).on start = (.error e, middle) := by
  have ran : action.run.run start = (.error e, middle) := ran
  rw [on, ExceptT.run_bind, StateT.run_bind, ran]
  rfl

theorem on_get (start : σ) : (get : Action σ σ).on start = (.ok start, start) := rfl

/-- An operation in two parts that gives a result has given one in both. -/
theorem exists_of_on_bind_ok {result : β}
    (ran : (action >>= next).on start = (.ok result, finish)) :
    ∃ value middle, action.on start = (.ok value, middle) ∧
      (next value).on middle = (.ok result, finish) := by
  cases first : action.on start with
  | mk outcome middle =>
    cases outcome with
    | ok value => exact ⟨value, middle, rfl, on_bind_ok first ▸ ran⟩
    | error e =>
      rw [on_bind_error first] at ran
      cases ran

end Action

/-! ## Several writes -/

/-- The bytes of a file after writes in their order. -/
def Write.applyAll (writes : List Write) (content : Bytes) : Bytes :=
  writes.foldl (fun content write => write.applyTo content) content

namespace Write

@[simp]
theorem applyAll_nil (content : Bytes) : applyAll [] content = content := rfl

@[simp]
theorem applyAll_cons (write : Write) (writes : List Write) (content : Bytes) :
    applyAll (write :: writes) content = applyAll writes (write.applyTo content) := rfl

theorem length_le_applyTo (write : Write) (content : Bytes) :
    content.length ≤ (write.applyTo content).length :=
  Bytes.length_le_overwrite content _ _

theorem length_le_applyAll (writes : List Write) (content : Bytes) :
    content.length ≤ (applyAll writes content).length := by
  induction writes generalizing content with
  | nil => exact Nat.le_refl _
  | cons write writes ih => exact Nat.le_trans (write.length_le_applyTo content) (ih _)

end Write

/-! ## Disks without outages -/

namespace Disk

/-- No request to make, write or sync a file is going to be refused by the operating system. -/
def IsReliable (disk : Disk) : Prop := ∀ outage ∈ disk.outages, outage = none

/-- The disk after a request whose outage was looked up. -/
def afterRequest (disk : Disk) : Disk := { disk with outages := disk.outages.drop 1 }

theorem isReliable_afterRequest {disk : Disk} (reliable : disk.IsReliable) :
    disk.afterRequest.IsReliable :=
  fun outage mem => reliable outage (List.mem_of_mem_drop mem)

theorem nextOutage_eq (disk : Disk) :
    nextOutage.on disk = (.ok disk.outages.head?.join, disk.afterRequest) := rfl

/-- The next request to make, write or sync a file is going to be granted. -/
def GrantsNext (disk : Disk) : Prop := disk.outages.head?.join = none

theorem grantsNext_of_isReliable {disk : Disk} (reliable : disk.IsReliable) : disk.GrantsNext := by
  unfold GrantsNext
  cases first : disk.outages.head? with
  | none => rfl
  | some outage => exact reliable outage (List.mem_of_head? first)

/-- The next request is going to be granted, or an outage is planned for it. -/
theorem grantsNext_or (disk : Disk) :
    disk.GrantsNext ∨ ∃ outage, disk.outages.head? = some (some outage) := by
  unfold GrantsNext
  rcases disk.outages.head? with _ | _ | outage
  · exact .inl rfl
  · exact .inl rfl
  · exact .inr ⟨outage, rfl⟩

/-- What comes next on a reliable disk is no outage. -/
theorem nextOutage_on {disk : Disk} (reliable : disk.IsReliable) :
    nextOutage.on disk = (.ok none, disk.afterRequest) := by
  rw [nextOutage_eq, grantsNext_of_isReliable reliable]

/-- The disk after a write that was granted. -/
def afterWrite (disk : Disk) (id : FileId) (write : Write) : Disk :=
  disk.afterRequest.setContent id (write.applyTo (disk.content id))

theorem isReliable_afterWrite {disk : Disk} (reliable : disk.IsReliable) (id : FileId)
    (write : Write) : (disk.afterWrite id write).IsReliable :=
  isReliable_afterRequest reliable

@[simp]
theorem content_afterRequest (disk : Disk) (id : FileId) :
    disk.afterRequest.content id = disk.content id := rfl

@[simp]
theorem content_afterWrite_self (disk : Disk) (id : FileId) (write : Write) :
    (disk.afterWrite id write).content id = write.applyTo (disk.content id) :=
  content_setContent_self _ _ _

theorem content_afterWrite_ne (disk : Disk) {id other : FileId} (write : Write)
    (different : other ≠ id) : (disk.afterWrite id write).content other = disk.content other :=
  content_setContent_ne _ _ different

theorem write_on_of_grantsNext {disk : Disk} (grants : disk.GrantsNext) (id : FileId)
    (write : Write) : (Disk.write id write).on disk = (.ok (), disk.afterWrite id write) := by
  unfold Disk.write
  rw [Action.on_bind_ok (nextOutage_eq disk), grants]
  rfl

theorem sync_on_of_grantsNext {disk : Disk} (grants : disk.GrantsNext) :
    sync.on disk = (.ok (), disk.afterRequest) := by
  unfold sync
  rw [Action.on_bind_ok (nextOutage_eq disk), grants]
  rfl

theorem create_on_of_grantsNext {disk : Disk} (grants : disk.GrantsNext) {path : Path}
    {location : Location} (vacant : disk.afterRequest.findVacant path = .ok location) :
    (Disk.create path).on disk = (.ok disk.nextId, disk.afterRequest.addFile location []) := by
  unfold Disk.create
  rw [Action.on_bind_ok (nextOutage_eq disk), Action.on_bind_ok (Action.on_get _), grants, vacant]
  rfl

/-- A write on a reliable disk is granted. -/
theorem write_on {disk : Disk} (reliable : disk.IsReliable) (id : FileId) (write : Write) :
    (Disk.write id write).on disk = (.ok (), disk.afterWrite id write) :=
  write_on_of_grantsNext (grantsNext_of_isReliable reliable) id write

/-- A reliable disk can be synced, and only the outlook on its requests changes. -/
theorem sync_on {disk : Disk} (reliable : disk.IsReliable) :
    sync.on disk = (.ok (), disk.afterRequest) :=
  sync_on_of_grantsNext (grantsNext_of_isReliable reliable)

/-- A new file is made where nothing is. -/
theorem create_on {disk : Disk} (reliable : disk.IsReliable) {path : Path} {location : Location}
    (vacant : disk.afterRequest.findVacant path = .ok location) :
    (Disk.create path).on disk = (.ok disk.nextId, disk.afterRequest.addFile location []) :=
  create_on_of_grantsNext (grantsNext_of_isReliable reliable) vacant

/-- Where something is, no new file is made. -/
theorem create_on_error {disk : Disk} (reliable : disk.IsReliable) {path : Path}
    {refusal : Refusal} (refused : disk.afterRequest.findVacant path = .error refusal) :
    (Disk.create path).on disk = (.error (.refused refusal), disk.afterRequest) := by
  unfold Disk.create
  rw [Action.on_bind_ok (nextOutage_on reliable), Action.on_bind_ok (Action.on_get _), refused]
  rfl

/-! ## Disks with outages -/

theorem write_on_of_outage {disk : Disk} {outage : Outage}
    (next : disk.outages.head? = some (some outage)) (id : FileId) (write : Write) :
    (Disk.write id write).on disk = (.error (.refused outage.refusal),
      disk.afterWrite id ⟨write.offset, write.bytes.take outage.written⟩) := by
  unfold Disk.write
  rw [Action.on_bind_ok (nextOutage_eq disk), next]
  rfl

theorem sync_on_of_outage {disk : Disk} {outage : Outage}
    (next : disk.outages.head? = some (some outage)) :
    sync.on disk = (.error (.refused outage.refusal), disk.afterRequest) := by
  unfold sync
  rw [Action.on_bind_ok (nextOutage_eq disk), next]
  rfl

/-- A write to any disk is granted, or it fails and a front of its bytes is in the file. -/
theorem write_on_or_part (disk : Disk) (id : FileId) (write : Write) :
    (∃ after, (Disk.write id write).on disk = (.ok (), after) ∧
      after.content id = write.applyTo (disk.content id)) ∨
    ∃ e count after, (Disk.write id write).on disk = (.error e, after) ∧
      after.content id =
        Write.applyTo ⟨write.offset, write.bytes.take count⟩ (disk.content id) := by
  rcases disk.grantsNext_or with grants | ⟨outage, next⟩
  · exact .inl ⟨_, write_on_of_grantsNext grants id write, content_afterWrite_self _ _ _⟩
  · exact .inr ⟨_, outage.written, _, write_on_of_outage next id write,
      content_afterWrite_self _ _ _⟩

/-- Making a file is refused and nothing changes, or it is granted and the file goes to a place
where nothing was. -/
theorem create_on_or_refused (disk : Disk) (path : Path) :
    (∃ e, (Disk.create path).on disk = (.error e, disk.afterRequest)) ∨
    disk.GrantsNext ∧ ∃ location, disk.afterRequest.findVacant path = .ok location ∧
      (Disk.create path).on disk = (.ok disk.nextId, disk.afterRequest.addFile location []) := by
  rcases disk.grantsNext_or with grants | ⟨outage, next⟩
  · cases found : disk.afterRequest.findVacant path with
    | ok location => exact .inr ⟨grants, location, rfl, create_on_of_grantsNext grants found⟩
    | error refusal =>
      unfold Disk.create
      rw [Action.on_bind_ok (nextOutage_eq disk), Action.on_bind_ok (Action.on_get _), grants,
        found]
      exact .inl ⟨_, rfl⟩
  · unfold Disk.create
    rw [Action.on_bind_ok (nextOutage_eq disk), Action.on_bind_ok (Action.on_get _), next]
    exact .inl ⟨_, rfl⟩

/-- A write that was granted. -/
theorem write_eq_ok {disk after : Disk} {id : FileId} {write : Write}
    (wrote : (Disk.write id write).on disk = (.ok (), after)) :
    after = disk.afterWrite id write := by
  rcases disk.grantsNext_or with grants | ⟨outage, next⟩
  · rw [write_on_of_grantsNext grants] at wrote
    cases wrote
    rfl
  · rw [write_on_of_outage next] at wrote
    cases wrote

theorem sync_eq_ok {disk after : Disk} (synced : sync.on disk = (.ok (), after)) :
    after = disk.afterRequest := by
  rcases disk.grantsNext_or with grants | ⟨outage, next⟩
  · rw [sync_on_of_grantsNext grants] at synced
    cases synced
    rfl
  · rw [sync_on_of_outage next] at synced
    cases synced

/-- A file that was made went to a place where nothing was. -/
theorem create_eq_ok {disk after : Disk} {path : Path} {id : FileId}
    (made : (Disk.create path).on disk = (.ok id, after)) :
    ∃ location, disk.afterRequest.findVacant path = .ok location ∧ id = disk.nextId ∧
      after = disk.afterRequest.addFile location [] := by
  rcases create_on_or_refused disk path with ⟨e, refused⟩ | ⟨-, location, vacant, created⟩
  · rw [refused] at made
    cases made
  · rw [created] at made
    cases made
    exact ⟨location, vacant, rfl, rfl⟩

/-- A sync, granted or not, is one request less to come. -/
theorem sync_on_snd (disk : Disk) : (sync.on disk).2 = disk.afterRequest := by
  rcases disk.grantsNext_or with grants | ⟨outage, next⟩
  · rw [sync_on_of_grantsNext grants]
  · rw [sync_on_of_outage next]

theorem content_sync (disk : Disk) (id : FileId) :
    (sync.on disk).2.content id = disk.content id := by
  rw [sync_on_snd, content_afterRequest]

/-! ## The first outage -/

/-- The next requests to make, write or sync a file are going to be granted. -/
def Grants (disk : Disk) (count : Nat) : Prop :=
  ∀ request < count, disk.outages[request]?.join = none

theorem grants_zero (disk : Disk) : disk.Grants 0 := fun request below => by cases below

theorem grants_one {disk : Disk} (next : disk.GrantsNext) : disk.Grants 1 := by
  intro request below
  obtain rfl := Nat.lt_one_iff.1 below
  rw [← List.head?_eq_getElem?]
  exact next

/-- Those that are granted first, and those that are granted then. -/
theorem grants_add {disk after : Disk} {first second : Nat} (granted : disk.Grants first)
    (outages : after.outages = disk.outages.drop first) (more : after.Grants second) :
    disk.Grants (first + second) := by
  intro request below
  rcases Nat.lt_or_ge request first with early | late
  · exact granted request early
  · have kept := more (request - first) (by omega)
    rwa [outages, List.getElem?_drop, Nat.add_sub_cancel' late] at kept

/-- The first request to make, write or sync a file that a disk is going to refuse, counted from
zero. -/
structure RefusesFirst (disk : Disk) (request : Nat) (outage : Outage) : Prop where
  refused : disk.outages[request]? = some (some outage)
  granted : disk.Grants request

theorem refusesFirst_of_head? {disk : Disk} {outage : Outage}
    (next : disk.outages.head? = some (some outage)) : disk.RefusesFirst 0 outage where
  refused := List.head?_eq_getElem?.symm.trans next
  granted := disk.grants_zero

/-- Requests that are granted only put off the first outage. -/
theorem refusesFirst_of_drop {disk after : Disk} {count request : Nat} {outage : Outage}
    (granted : disk.Grants count) (outages : after.outages = disk.outages.drop count)
    (first : after.RefusesFirst request outage) : disk.RefusesFirst (count + request) outage where
  refused := by rw [← List.getElem?_drop, ← outages, first.refused]
  granted := grants_add granted outages first.granted

end Disk

end RaggedTrajectory
