/-!
# Places

A place is where a file or folder is or may be. The name of a file is a way to a place, part by part
from folder to folder: `a.c` and `./a.c` lead to one place. Nothing is known of the folders around
the working folder but that they are there.
-/

namespace SubsetC.CommandLine

/-- A folder that is always there. -/
inductive Base where
  /-- The folder that everything lies in. -/
  | root
  /-- The folder so many levels above the working folder. -/
  | above (levels : Nat)
  deriving DecidableEq, Repr, Inhabited

/-- Where a file or folder is or may be. -/
structure Place where
  base : Base
  /-- The names that lead down from the base, the last one first. -/
  names : List String
  deriving DecidableEq, Repr, Inhabited

namespace Place

/-- The root folder. -/
def root : Place := ⟨.root, []⟩

/-- The working folder. -/
def here : Place := ⟨.above 0, []⟩

/-- The folder that a place lies in. The root folder lies in itself. -/
def parent : Place → Place
  | ⟨base, _ :: names⟩ => ⟨base, names⟩
  | ⟨.root, []⟩ => root
  | ⟨.above levels, []⟩ => ⟨.above (levels + 1), []⟩

/-- Where one part of a name leads. -/
def enter (place : Place) (part : String) : Place :=
  if part = "" ∨ part = "." then place
  else if part = ".." then place.parent
  else { place with names := part :: place.names }

/-- The place lies in a folder, at whatever depth. -/
def isWithin (place folder : Place) : Bool :=
  place.base == folder.base && folder.names.isSuffixOf place.names

/-- Where a name starts from, and its parts. -/
def wayOf (name : String) : Place × List String :=
  match name.splitOn "/" with
  | "" :: part :: parts => (root, part :: parts)
  | parts => (here, parts)

/-- The parts of a name without those that stand for the slashes at its end. -/
def withoutSlashes (parts : List String) : List String :=
  (parts.reverse.dropWhile (· = "")).reverse

/-- The place that a name leads to. -/
def ofName (name : String) : Place :=
  let (start, parts) := wayOf name
  parts.foldl enter start

end Place

end SubsetC.CommandLine
