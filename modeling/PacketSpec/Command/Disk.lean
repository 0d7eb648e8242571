import PacketSpec.Command.Path

/-! Files in memory, which commands can read and write. -/
namespace PacketSpec.Command

structure Disk where
  files : List (Location × Wire.Bytes) := []
  deriving DecidableEq, Repr

namespace Disk

def filesHere (disk : Disk) : List (String × Wire.Bytes) :=
  disk.files.filterMap fun (location, content) =>
    if location.place = .here then some (location.name, content) else none

def get? (disk : Disk) (location : Location) : Option Wire.Bytes := disk.files.lookup location

def put (disk : Disk) (location : Location) (content : Wire.Bytes) : Disk :=
  if (disk.get? location).isSome then
    { files := disk.files.map fun (l, c) => if l = location then (l, content) else (l, c) }
  else { files := disk.files ++ [(location, content)] }

/-- A name has at most 255 bytes; longer ones are noticed when they are looked up. -/
def nameTooLong (location : Location) : Bool := 255 < location.name.utf8ByteSize

/-- Why a location is no folder. -/
def folderError (disk : Disk) (location : Location) : FileError :=
  if nameTooLong location then .nameTooLong
  else if (disk.get? location).isSome then .notADirectory
  else .notFound

def readTarget (disk : Disk) : Target → Except FileError Wire.Bytes
  | .folder _ => .error .isADirectory
  | .slashed location | .through location => .error (disk.folderError location)
  | .file location =>
    if nameTooLong location then .error .nameTooLong
    else match disk.get? location with
      | some content => .ok content
      | none => .error .notFound

def writeTarget (disk : Disk) (content : Wire.Bytes) : Target → Except FileError Disk
  | .folder _ | .slashed _ => .error .isADirectory
  | .through location => .error (disk.folderError location)
  | .file location =>
    if nameTooLong location then .error .nameTooLong else .ok (disk.put location content)

def read (disk : Disk) (path : String) : Except FileError Wire.Bytes :=
  match pathError? path with
  | some error => .error error
  | none => disk.readTarget (.ofPath path)

def write (disk : Disk) (path : String) (content : Wire.Bytes) : Except FileError Disk :=
  match pathError? path with
  | some error => .error error
  | none => disk.writeTarget content (.ofPath path)

end Disk

instance : FileAccess (StateM Disk) where
  read path := fun disk => (disk.read path, disk)
  write path content := fun disk =>
    match disk.write path content with
    | .ok disk => (.ok (), disk)
    | .error e => (.error e, disk)

end PacketSpec.Command
