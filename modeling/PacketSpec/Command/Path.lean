import PacketSpec.Command.Files
import PacketSpec.Text.Basic

/-!
Paths, followed from left to right. Folders are reached by steps up and from the root only: no
folder that a command knows holds another one.
-/
namespace PacketSpec.Command

inductive Place where
  /-- So many steps up from the folder in which the command runs. -/
  | up (steps : Nat)
  | root
  deriving DecidableEq, Repr

namespace Place

def here : Place := up 0

def parent : Place → Place
  | up steps => up (steps + 1)
  | root => root

end Place

structure Location where
  place : Place
  name : String
  deriving DecidableEq, Repr

inductive Target where
  | folder (place : Place)
  | file (location : Location)
  /-- Only slashes follow the name, which makes it that of a folder. -/
  | slashed (location : Location)
  /-- The path goes on behind the name. -/
  | through (location : Location)
  deriving DecidableEq, Repr

namespace Target

/-- Follows the parts between slashes up to the first name. -/
def walk (place : Place) : (parts : List String) → Target
  | [] => folder place
  | part :: rest =>
    if part == "" || part == "." then walk place rest
    else if part == ".." then walk place.parent rest
    else if rest.isEmpty then file ⟨place, part⟩
    else if rest.all (· == "") then slashed ⟨place, part⟩
    else through ⟨place, part⟩

def ofPath (path : String) : Target :=
  let parts := (Text.split '/' path.toList).map String.ofList
  walk (if parts.head? == some "" then .root else .here) parts

end Target

/-- What is wrong with a path before it is followed: a NUL, no character at all, or too many
bytes. -/
def pathError? (path : String) : Option FileError :=
  if path.toList.contains (Char.ofNat 0) then some .nulInName
  else if path.isEmpty then some .notFound
  else if 4096 ≤ path.utf8ByteSize then some .nameTooLong
  else none

end PacketSpec.Command
