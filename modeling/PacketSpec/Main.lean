import PacketSpec.Command.Run

/-! The command line tool. -/
namespace PacketSpec.Command

/-- The number of a system error, which may be reported with a minus sign. -/
def systemCode (code : UInt32) : Nat := min code.toNat (0 - code).toNat

def fileError (error : IO.Error) : FileError :=
  match error with
  | .noFileOrDirectory .. => .notFound
  | .permissionDenied _ code _ => .other s!"Permission denied (os error {systemCode code})"
  | .inappropriateType _ code _ | .invalidArgument _ code _ =>
    match systemCode code with
    | 20 => .notADirectory
    | 21 => .isADirectory
    | 22 => .nulInName
    | 36 => .nameTooLong
    | _ => .other (toString error)
  | _ => .other (toString error)

instance : FileAccess IO where
  read path := do
    try return .ok (← IO.FS.readBinFile path).toList
    catch error => return .error (fileError error)
  write path content := do
    try
      IO.FS.writeBinFile path ⟨content.toArray⟩
      return .ok ()
    catch error => return .error (fileError error)

end PacketSpec.Command

def main (arguments : List String) : IO UInt32 := do
  let outcome ← PacketSpec.Command.execute arguments
  IO.print outcome.stdout
  IO.eprint outcome.stderr
  return UInt32.ofNat outcome.exitCode
