import PacketSpec.Cell.Grammar
import PacketSpec.Text.Basic

/-! Reading the text of a cell. White space around it does not count. -/
namespace PacketSpec.Cell

def scanWhole {α : Type} (scan : Scan α) (text : String) : Except Error α :=
  match scan.run (Text.trimList text.toList) with
  | some (a, _) => .ok a
  | none => .error (.malformed text)

def readType (text : String) : Except Error TypeCell := do
  (← scanWhole Grammar.typeCell text).value

def readName (text : String) : Except Error String := scanWhole Grammar.nameCell text

def readMarker (text : String) : Except Error Marker := do
  (← scanWhole Grammar.markerCell text).value

def readCode (text : String) : Except Error Nat := do
  (← scanWhole Grammar.codeCell text).value

/-- A single code is a range of one. -/
def readCodeRange (text : String) : Except Error (Nat × Nat) := do
  let (start, stop) ← scanWhole Grammar.codeRangeCell text
  let first ← start.value
  let last ← (stop.getD start).value
  return (first, last)

def readAnchor (text : String) : Except Error String := scanWhole Grammar.anchorCell text

end PacketSpec.Cell
