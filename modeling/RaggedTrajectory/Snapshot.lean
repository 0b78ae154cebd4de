import RaggedTrajectory.Field.Data
import RaggedTrajectory.Keyed
import RaggedTrajectory.Time.Timestamp

/-!
# Snapshots

A snapshot holds the arrays of one population of particles at one moment. A cache holds, for each
step, at most one snapshot of every population, in the order in which they were last put in.
-/

namespace RaggedTrajectory

/-- Which particles a snapshot is about. -/
inductive Population where
  /-- The best estimate. -/
  | base
  /-- The particles that bound the uncertainty. -/
  | uncertain
  deriving DecidableEq, Repr

namespace Population

/-- The name of a population. -/
def name : Population → String
  | base => "base"
  | uncertain => "uncertain"

/-- The population with a given name. -/
def ofName? (name : String) : Option Population :=
  [base, uncertain].find? fun population => population.name = name

end Population

/-- The arrays of one population at one moment. -/
structure Snapshot where
  population : Population
  time : Timestamp
  /-- The declared number of particles. -/
  count : Nat
  arrays : Keyed String ParticleArray

namespace Snapshot

/-- The array with a given name. -/
def get? (snapshot : Snapshot) (name : String) : Option ParticleArray :=
  Keyed.get? snapshot.arrays name

/-- Puts an array in, over an earlier one of the same name. -/
def insert (snapshot : Snapshot) (name : String) (array : ParticleArray) : Snapshot :=
  { snapshot with arrays := Keyed.insert snapshot.arrays name array }

end Snapshot

/-- The snapshots of each step. -/
structure SnapshotCache where
  steps : Keyed Nat (List Snapshot)

namespace SnapshotCache

/-- No snapshots. -/
def empty : SnapshotCache := ⟨[]⟩

/-- The snapshots of a step, if any was put in. -/
def get? (cache : SnapshotCache) (step : Nat) : Option (List Snapshot) :=
  Keyed.get? cache.steps step

/-- The number of steps with snapshots. -/
def length (cache : SnapshotCache) : Nat := cache.steps.length

/-- Snapshots with one more at the end, in place of the one of the same population. -/
def replace (snapshots : List Snapshot) (snapshot : Snapshot) : List Snapshot :=
  (snapshots.filter fun other => other.population ≠ snapshot.population) ++ [snapshot]

/-- Puts a snapshot in, in place of an earlier one of the same population and step. -/
def insert (cache : SnapshotCache) (step : Nat) (snapshot : Snapshot) : SnapshotCache :=
  ⟨Keyed.insert cache.steps step (replace ((cache.get? step).getD []) snapshot)⟩

/-- The snapshots of a step. -/
def load (cache : SnapshotCache) (step : Nat) : Except Error (List Snapshot) :=
  match cache.get? step with
  | some snapshots => .ok snapshots
  | none => .error (.refused (.noCachedData step))

end SnapshotCache

end RaggedTrajectory
