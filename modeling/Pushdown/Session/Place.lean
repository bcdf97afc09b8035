import Pushdown.Text.Stream

/-! Places in a tree of directories, and the paths that lead to them. A path is followed name by name,
from the root if it begins with a slash and from the working directory otherwise; a single dot stays
where it is and a double dot goes up. The directories above the working directory have no names
here: they are reached by going up only. -/
namespace Pushdown

open Text (StreamError)

/-- The directory that a place is given from. -/
inductive Origin where
  | root
  /-- The working directory, or the directory so many levels above it. -/
  | above (levels : Nat)
deriving Repr, DecidableEq

/-- An origin, and the names that lead down from it. -/
structure Place where
  origin : Origin
  names : List String
deriving Repr, DecidableEq

namespace Place

/-- A place below the working directory. -/
def below (names : List String) : Place := ⟨.above 0, names⟩

/-- The place one level up. There is nothing above the root. -/
def parent : Place → Place
  | ⟨.root, names⟩ => ⟨.root, names.dropLast⟩
  | ⟨.above levels, []⟩ => ⟨.above (levels + 1), []⟩
  | ⟨origin, names⟩ => ⟨origin, names.dropLast⟩

/-- The most bytes that a name may have. -/
def longestName : Nat := 255

/-- The place that a name denotes in a directory. -/
def step (p : Place) (name : String) : Except StreamError Place :=
  if name = "." then .ok p
  else if name = ".." then .ok p.parent
  else if longestName < name.utf8ByteSize then .error .nameTooLong
  else .ok { p with names := p.names ++ [name] }

end Place

structure Path where
  start : Place
  names : List String
  /-- Whether a slash stands at the end, so that only a directory is meant. -/
  slashed : Bool
deriving Repr, DecidableEq

namespace Path

/-- The most bytes that a path may have. -/
def longest : Nat := 4095

/-- The names in a path; several slashes count as one. -/
def namesOf (text : String) : List String := (text.splitOn "/").filter (· ≠ "")

/-- Reads a path; the empty text leads nowhere. -/
def read (text : String) : Except StreamError Path :=
  if text = "" then .error .notFound
  else if text.toList.any (·.toNat = 0) then .error .nullInPath
  else if longest < text.utf8ByteSize then .error .nameTooLong
  else
    let origin : Origin := if text.toList.head? = some '/' then .root else .above 0
    .ok ⟨⟨origin, []⟩, namesOf text, text.toList.getLast? = some '/'⟩

end Path

end Pushdown
