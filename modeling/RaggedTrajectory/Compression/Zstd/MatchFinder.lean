import RaggedTrajectory.Compression.Window

/-!
# Finding copies

Two tables remember at which place some bytes came up last, by a hash of eight bytes and by one of
four or five. A place is tried against the offset of the latest copy, then against the table of
eight bytes, then against the other one. Copies are made as long as they can be, to both sides.
-/

namespace RaggedTrajectory.Zstd

open Compression

/-- The bytes at a place as a number, the lowest one first. -/
def bytesAt (input : Array UInt8) (place : Nat) : (count : Nat) → UInt64
  | 0 => 0
  | count + 1 => (input.getD place 0).toUInt64 ||| (bytesAt input (place + 1) count <<< 8)

/-- Whether the same bytes stand at two places. -/
def agree (input : Array UInt8) (a b count : Nat) : Bool :=
  bytesAt input a count = bytesAt input b count

/-- The places at which bytes came up last. At most eight bytes are looked at. -/
structure PlaceTable where
  /-- The number of bytes that are looked at. -/
  width : Nat
  /-- The logarithm of the number of places. -/
  log : Nat
  places : Array Nat

namespace PlaceTable

/-- A table without places. -/
def empty (width log : Nat) : PlaceTable := ⟨width, log, Array.replicate (2 ^ log) 0⟩

/-- The number by which bytes are multiplied to scatter them. -/
def multiplier (table : PlaceTable) : UInt64 :=
  match table.width with
  | 4 => 2654435761
  | 5 => 889523592379
  | _ => 0xCF1BBCDCB7A56463

/-- Where the place of the bytes at a place is kept. -/
def slot (table : PlaceTable) (input : Array UInt8) (place : Nat) : Nat :=
  let scattered := bytesAt input place table.width * table.multiplier
  (scattered <<< (64 - 8 * table.width).toUInt64 >>> (64 - table.log).toUInt64).toNat

/-- The place at which the bytes at `place` came up last, or zero. -/
def find (table : PlaceTable) (input : Array UInt8) (place : Nat) : Nat :=
  table.places.getD (table.slot input place) 0

/-- Remembers a place. -/
def put (table : PlaceTable) (input : Array UInt8) (place : Nat) : PlaceTable :=
  { table with places := table.places.setIfInBounds (table.slot input place) place }

end PlaceTable

/-- The two tables. -/
structure PlaceTables where
  long : PlaceTable
  short : PlaceTable

namespace PlaceTables

/-- Tables that suit the length of the data: larger ones for longer data. -/
def ofLength (length : Nat) : PlaceTables :=
  let (window, longLog, shortLog, width) :=
    if length ≤ 2 ^ 14 then (14, 15, 14, 4)
    else if length ≤ 2 ^ 17 then (17, 16, 15, 5)
    else if length ≤ 2 ^ 18 then (18, 16, 16, 4)
    else (21, 17, 16, 5)
  let window := min window (max 6 ((length - 1).log2 + 1))
  ⟨.empty 8 (min longLog (window + 1)), .empty width (min shortLog window)⟩

/-- Remembers a place for its next eight bytes. -/
def putLong (tables : PlaceTables) (input : Array UInt8) (place : Nat) : PlaceTables :=
  { tables with long := tables.long.put input place }

/-- Remembers a place for its next few bytes. -/
def putShort (tables : PlaceTables) (input : Array UInt8) (place : Nat) : PlaceTables :=
  { tables with short := tables.short.put input place }

/-- Remembers a place in both tables. -/
def put (tables : PlaceTables) (input : Array UInt8) (place : Nat) : PlaceTables :=
  (tables.putLong input place).putShort input place

end PlaceTables

/-- Literals and a copy, as numbers: offsets up to three stand for recent ones, and others are
greater by three than the distance. -/
structure Sequence where
  literals : Nat
  offset : Nat
  length : Nat

/-- A copy that was found. -/
structure Hit where
  /-- The place that was tried when the copy was found. -/
  tried : Nat
  /-- The place that would have been tried next. -/
  next : Nat
  /-- The step from one place to the next. -/
  step : Nat
  place : Nat
  source : Nat
  /-- How many bytes are known to agree. -/
  known : Nat
  /-- Whether the offset is the latest one. -/
  isLatest : Bool

/-- How far the search for copies came. -/
structure Finder where
  /-- Where the literals start that come next. -/
  start : Nat
  /-- The place that is tried next. -/
  place : Nat
  /-- The latest offset, or zero. -/
  first : Nat
  /-- The offset before it, or zero. -/
  second : Nat
  tables : PlaceTables
  found : Array Sequence

namespace Finder

/-- The next place with a copy. The bytes must agree up to the place `stop`, and only places after
`lowest` are copied from. After every 256 places without a copy the steps grow. -/
def search (input : Array UInt8) (lowest stop latest : Nat) :
    (fuel place next step growth : Nat) → PlaceTables → Option Hit × PlaceTables
  | 0, _, _, _, _, tables => (none, tables)
  | fuel + 1, place, next, step, growth, tables =>
    if stop < next + 8 then (none, tables)
    else
      let far := tables.long.find input place
      let near := tables.short.find input place
      let tables := tables.put input place
      let hit := Hit.mk place next step
      if 0 < latest ∧ agree input (place + 1) (place + 1 - latest) 4 then
        (some (hit (place + 1) (place + 1 - latest) 4 true), tables)
      else if lowest < far ∧ agree input place far 8 then (some (hit place far 8 false), tables)
      else if lowest < near ∧ agree input place near 4 then
        let ahead := tables.long.find input next
        if lowest < ahead ∧ agree input next ahead 8 then (some (hit next ahead 8 false), tables)
        else (some (hit place near 4 false), tables)
      else if growth ≤ next then
        search input lowest stop latest fuel next (next + step + 1) (step + 1) (growth + 256) tables
      else search input lowest stop latest fuel next (next + step) step growth tables

/-- Takes copies at the offset before the latest one, as long as one starts right here. The two
offsets change places each time. -/
def takeRepeated (input : Array UInt8) (stop : Nat) : (fuel : Nat) → Finder → Finder
  | 0, finder => finder
  | fuel + 1, ⟨start, place, first, second, tables, found⟩ =>
    let source := place - second
    if place + 8 ≤ stop ∧ 0 < second ∧ agree input place source 4 then
      let length := 4 + commonLength input (place + 4) (source + 4) (stop - (place + 4))
      takeRepeated input stop fuel ⟨place + length, place + length, second, first,
        tables.put input place, found.push ⟨0, 1, length⟩⟩
    else ⟨start, place, first, second, tables, found⟩

/-- Remembers some places around a copy: two after the one that was tried, and two before its
end. -/
def putAround (input : Array UInt8) (tried stop : Nat) (tables : PlaceTables) : PlaceTables :=
  let tables := (tables.putLong input (tried + 2)).putLong input (stop - 2)
  (tables.putShort input (tried + 2)).putShort input (stop - 1)

/-- Takes a copy, made as long as it can be. -/
def take (input : Array UInt8) (lowest stop : Nat) (hit : Hit) : Finder → Finder
  | ⟨start, _, first, second, tables, found⟩ =>
    let back :=
      if hit.isLatest then 0
      else commonBefore input hit.place hit.source (min (hit.place - start) (hit.source - lowest))
    let sure := hit.place + hit.known
    let after := sure + commonLength input sure (hit.source + hit.known) (stop - sure)
    let literals := hit.place - back - start
    let length := after - (hit.place - back)
    let distance := hit.place - hit.source
    let tables := if hit.isLatest ∨ 4 ≤ hit.step then tables else tables.putLong input hit.next
    let tables := if after + 8 ≤ stop then putAround input hit.tried after tables else tables
    if hit.isLatest then ⟨after, after, first, second, tables, found.push ⟨literals, 1, length⟩⟩
    else ⟨after, after, distance, first, tables, found.push ⟨literals, distance + 3, length⟩⟩

/-- Finds copies up to the place `stop`. -/
def run (input : Array UInt8) (lowest stop : Nat) : (fuel : Nat) → Finder → Finder
  | 0, finder => finder
  | fuel + 1, ⟨start, place, first, second, tables, found⟩ =>
    match search input lowest stop first (stop + 1) place (place + 1) 1 (place + 256) tables with
    | (none, tables) => ⟨start, place, first, second, tables, found⟩
    | (some hit, tables) =>
      run input lowest stop fuel <| takeRepeated input stop (stop + 1) <|
        take input lowest stop hit ⟨start, place, first, second, tables, found⟩

end Finder

/-- What is known of the data before a part of it: the two latest offsets and the tables. -/
structure Past where
  first : Nat
  second : Nat
  tables : PlaceTables

/-- What is known at the start. -/
def Past.initial (length : Nat) : Past := ⟨1, 4, .ofLength length⟩

/-- The copies in a part of the data, where its last literals start, and what is known after it.
Offsets that reach back too far are put aside, and come back where no other took their place. -/
def findCopies (input : Array UInt8) (start stop : Nat) (past : Past) :
    Array Sequence × Nat × Past :=
  let lowest := stop - 2 ^ 21
  let place := if start = lowest then start + 1 else start
  let usable (offset : Nat) := if offset ≤ place - lowest then offset else 0
  let first := usable past.first
  let finder := Finder.run input lowest stop (stop + 1)
    ⟨start, place, first, usable past.second, past.tables, #[]⟩
  let keptFirst := if first = 0 then past.first else 0
  let keptSecond :=
    if keptFirst ≠ 0 ∧ finder.first ≠ 0 then keptFirst
    else if usable past.second = 0 then past.second
    else 0
  (finder.found, finder.start,
    ⟨if finder.first = 0 then keptFirst else finder.first,
      if finder.second = 0 then keptSecond else finder.second, finder.tables⟩)

end RaggedTrajectory.Zstd
