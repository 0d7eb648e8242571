import PacketSpec.BitWindow
import PacketSpec.Model.Basic

/-! How the fields of a structure follow one another on the wire, in whole bytes. -/
namespace PacketSpec.Codec

inductive Segment where
  /-- Fields narrower than a byte that share a word. -/
  | chunk (chunk : Chunk Field)
  | aligned (field : Field)

/-- Every field stands in one segment. A structure whose narrow fields do not fill bytes before the
next aligned field or the end has no layout. -/
def layoutFrom (s : Struct) (window : BitWindow Field) : List Field → Except Fault (List Segment)
  | [] => if window.isEmpty then .ok [] else .error (.invalidLayout s.id)
  | field :: rest => do
    if field.isPacked then
      match ← window.push field field.width with
      | (.error _, _) => .error (.invalidLayout s.id)
      | (.ok none, window) => layoutFrom s window rest
      | (.ok (some chunk), window) => return .chunk chunk :: (← layoutFrom s window rest)
    else if window.isEmpty then return .aligned field :: (← layoutFrom s window rest)
    else .error (.invalidLayout s.id)

def layout (window : Nat) (s : Struct) : Except Fault (List Segment) :=
  layoutFrom s (BitWindow.empty window) s.fields

end PacketSpec.Codec
