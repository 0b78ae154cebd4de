import RaggedTrajectory.Path
import RaggedTrajectory.Snapshot

/-!
# Destinations

The one or two files that a run writes: the primary one for the base population, and its twin for
the uncertain population.
-/

namespace RaggedTrajectory

/-- The files of a run. -/
structure Destinations where
  primary : Path
  uncertain : Option Path
  deriving DecidableEq, Repr

namespace Destinations

/-- A primary file and, if it is asked for, its twin. -/
def derive (primary : Path) (uncertain : Bool) : Destinations where
  primary
  uncertain := if uncertain then some primary.uncertainTwin else none

/-- The file of a population. -/
def pathFor? (destinations : Destinations) : Population → Option Path
  | .base => some destinations.primary
  | .uncertain => destinations.uncertain

/-- The files with their populations, the primary one first. -/
def entries (destinations : Destinations) : List (Population × Path) :=
  (.base, destinations.primary) :: destinations.uncertain.toList.map fun path => (.uncertain, path)

/-- The files, the primary one first. -/
def paths (destinations : Destinations) : List Path :=
  destinations.primary :: destinations.uncertain.toList

theorem paths_eq_map_entries (destinations : Destinations) :
    destinations.paths = destinations.entries.map Prod.snd := by
  cases destinations with
  | mk primary uncertain => cases uncertain <;> rfl

end Destinations

end RaggedTrajectory
