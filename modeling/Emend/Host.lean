import Emend.Act
import Emend.Disk.Basic
import Emend.Time.Timestamp

/-!
# The host

The machine that the program runs on: its disk, its clock and its source of new identifiers. The clock
and the source are sequences that are read one member at a time, so a run is a function of them.
-/

namespace Emend

/-- Where new identifiers and the current time come from, and how often they were asked for. -/
structure Supply where
  /-- The time that a reading of the clock shows, counted from 0. -/
  time : Nat → Timestamp
  /-- The identifier that is drawn, counted from 1. -/
  identifier : Nat → Text
  readings : Nat := 0
  drawn : Nat := 0

namespace Supply

/-- Reads the clock. -/
def readClock (s : Supply) : Timestamp × Supply :=
  (s.time s.readings, { s with readings := s.readings + 1 })

/-- Draws an identifier. -/
def draw (s : Supply) : Text × Supply :=
  (s.identifier (s.drawn + 1), { s with drawn := s.drawn + 1 })

end Supply

/-- A disk, a clock and a source of identifiers. -/
structure Host where
  disk : Disk
  supply : Supply

namespace Host

/-- Asks the disk. -/
def examine {α : Type} (f : Disk → Except OsError α) : Act Host α :=
  Act.reading fun h => (f h.disk).mapError .os

/-- Changes the disk. -/
def alter (f : Disk → Except OsError Disk) : Act Host Unit := fun h =>
  match f h.disk with
  | .ok d => ⟨.ok (), { h with disk := d }, []⟩
  | .error e => ⟨.error (.os e), h, []⟩

/-- Makes a directory, and those above it, where they are missing. -/
def makeDirs (l : Location) : Act Host Unit := fun h =>
  let (made, d) := h.disk.makeDirs l
  ⟨made.mapError .os, { h with disk := d }, []⟩

/-- Takes something from the supply. -/
def supplied {α : Type} (f : Supply → Except Failure α × Supply) : Act Host α := fun h =>
  let (a, s) := f h.supply
  ⟨a, { h with supply := s }, []⟩

/-- Reads the clock. -/
def readClock : Act Host Timestamp := supplied fun s => (.ok s.readClock.1, s.readClock.2)

/-- Draws an identifier. -/
def draw : Act Host Text := supplied fun s => (.ok s.draw.1, s.draw.2)

/-- The place that a text names. -/
def place (path : Text) : Act Host Location :=
  Act.reading fun h => .ok (Location.ofText h.disk.cwd path)

/-- Something stands at a place. Nothing does at one with a name that no disk has. -/
def isThere (l : Location) : Act Host Bool :=
  match l.checkNames with
  | .error _ => return false
  | .ok () => examine (·.isThere l)

/-- The bytes of the file at a place. -/
def bytesAt (l : Location) : Act Host Bytes := do
  Act.ofExcept l.checkNames
  examine (·.readFile l)

end Host

end Emend
