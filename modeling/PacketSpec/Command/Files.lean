import PacketSpec.Wire.Utf8

/-! The files that a command reads and writes. -/
namespace PacketSpec.Command

inductive FileError where
  | notFound
  | notADirectory
  | isADirectory
  | nameTooLong
  | nulInName
  | notText
  | other (message : String)
  deriving DecidableEq, Repr

def FileError.message : FileError → String
  | .notFound => "No such file or directory (os error 2)"
  | .notADirectory => "Not a directory (os error 20)"
  | .isADirectory => "Is a directory (os error 21)"
  | .nameTooLong => "File name too long (os error 36)"
  | .nulInName => "file name contained an unexpected NUL byte"
  | .notText => "stream did not contain valid UTF-8"
  | .other message => message

class FileAccess (m : Type → Type) where
  read : (path : String) → m (Except FileError Wire.Bytes)
  write : (path : String) → Wire.Bytes → m (Except FileError Unit)

def readText {m : Type → Type} [Monad m] [FileAccess m] (path : String) :
    ExceptT FileError m String := do
  let bytes ← ExceptT.mk (FileAccess.read path)
  match Wire.Utf8.toString? bytes with
  | some text => return text
  | none => throw .notText

def writeText {m : Type → Type} [FileAccess m] (path text : String) : ExceptT FileError m Unit :=
  ExceptT.mk (FileAccess.write path (Wire.Utf8.ofString text))

end PacketSpec.Command
