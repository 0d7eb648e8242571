import PacketSpec.Size
import PacketSpec.Text.Basic

/-!
Consecutive fields narrower than a byte share a chunk. A chunk closes as soon as the widths of its
fields add up to a power of two of at least eight bits, and the first field has its top bits.
-/
namespace PacketSpec

/-- A field in its chunk: `shift` bits stand below it. -/
structure Packed (σ : Type) where
  symbol : σ
  width : Nat
  shift : Nat
  deriving DecidableEq, Repr

structure Chunk (σ : Type) where
  width : Nat
  fields : List (Packed σ)
  deriving DecidableEq, Repr

inductive WindowError where
  | overflow (width capacity : Nat)
  | misaligned (pending : Nat)
  deriving DecidableEq, Repr

def WindowError.message : WindowError → String
  | .overflow width capacity =>
    s!"bit fields span {Text.decimal width} bits without closing a chunk, the window is {Text.decimal capacity} bits"
  | .misaligned pending => s!"{Text.decimal pending} bits of bit fields are not byte aligned"

/-- The fields of an open chunk, which may not span more than `capacity` bits. -/
structure BitWindow (σ : Type) where
  capacity : Nat
  used : Nat := 0
  pending : List (σ × Nat) := []
  deriving DecidableEq, Repr

namespace BitWindow

variable {σ : Type}

def empty (capacity : Nat) : BitWindow σ := { capacity }

def isEmpty (window : BitWindow σ) : Bool := window.pending.isEmpty

def closes (used : Nat) : Bool := 8 ≤ used && used == 1 <<< used.log2

/-- Places fields from the bit `top` downwards. -/
def place (top : Nat) : List (σ × Nat) → List (Packed σ)
  | [] => []
  | (symbol, width) :: rest => { symbol, width, shift := top - width } :: place (top - width) rest

/-- Adds a field; a field that exceeds the window stays pending. -/
def push (window : BitWindow σ) (symbol : σ) (width : Nat) :
    Except Fault (Except WindowError (Option (Chunk σ)) × BitWindow σ) := do
  let used ← Size.add window.used width
  let pending := window.pending ++ [(symbol, width)]
  if window.capacity < used then
    return (.error (.overflow used window.capacity), { window with used, pending })
  else if closes used then
    return (.ok (some { width := used, fields := place used pending }), empty window.capacity)
  else
    return (.ok none, { window with used, pending })

def flush (window : BitWindow σ) : Except WindowError Unit :=
  if window.isEmpty then .ok () else .error (.misaligned window.used)

end BitWindow

def windowWidths : List Nat := [8, 16, 32, 64]

def defaultWindow : Nat := 32

/-- A width that the window cannot have. -/
structure InvalidWindow where
  width : Nat
  deriving DecidableEq, Repr

def InvalidWindow.message (e : InvalidWindow) : String :=
  s!"invalid bit field window {Text.decimal e.width}, expected one of [8, 16, 32, 64]"

def checkWindowWidth (width : Nat) : Except InvalidWindow Nat :=
  if windowWidths.contains width then .ok width else .error ⟨width⟩

end PacketSpec
