import Emend.Disk.Basic

/-!
# Parts of a disk

A disk in memory can stand for a part of a real one: it then holds what stands on the ways to the
places that matter. `Location.way` lists those paths, and `Disk.written` and `Disk.removed` tell how
a disk differs from the one it came from.
-/

namespace Emend

/-- The paths that are visited from a place along names. -/
def Path.visited (place : Path) : List Text → List Path
  | [] => [place]
  | n :: ns => place :: visited (Path.follow place [n]) ns

/-- Every path on the way from the root directory to a location. -/
def Location.way (l : Location) : List Path := Path.visited [] l.start ++ Path.visited l.start l.names

namespace Disk

/-- What stands on this disk and not on the older one, the shortest paths first. -/
def written (older newer : Disk) : List (Path × Entry) :=
  (newer.entries.filter fun (p, e) => older.get? p != some e).mergeSort fun a b =>
    decide (a.1.length ≤ b.1.length)

/-- The paths at which something stood on the older disk and nothing stands on this one. -/
def removed (older newer : Disk) : List Path :=
  (older.entries.filter fun (p, _) => (newer.get? p).isNone).map (·.1)

end Disk

end Emend
