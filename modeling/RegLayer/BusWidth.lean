/-
# `RegLayer.BusWidth` — how wide the bus of a map has to be

The bus of an address map or register file is as wide as the widest access to a register or memory
anywhere inside it.  One walk finds the widths of all groups:

    enter a group     a new running maximum, starting with zero
    a register        widens the innermost maximum by its access width
    a memory          widens it by the width of its words
    leave a group     records the maximum, and hands it to the group around

Widths are recorded under paths.  Paths are not checked to be different, so of two groups with one
path the one that is left later counts.  A bus is counted in whole bytes where it is written; one
without anything to access gets a byte, and that is noticed (`busBytes`).  Rounding up adds seven
bits first, which can leave the word.

What the table holds is proved in `RegLayer.Proofs.BusWidth` along the walk, and in
`RegLayer.Proofs.WidthTable` without it.
-/
import RegLayer.Model.Path
import RegLayer.Model.Subtree
import RegLayer.Report

namespace RegLayer

/-- Widths in bits, by path. -/
structure WidthTable where
  rows : List (String × UInt32)

namespace WidthTable

def empty : WidthTable := ⟨[]⟩

/-- Records a width, in place of one recorded for the path before. -/
def record (t : WidthTable) (path : String) (width : UInt32) : WidthTable :=
  ⟨(path, width) :: t.rows.filter (·.1 != path)⟩

/-- The width recorded for a path. -/
def width? (t : WidthTable) (path : String) : Option UInt32 :=
  t.rows.lookup path

/-- The number of paths with a width. -/
def size (t : WidthTable) : Nat :=
  t.rows.length

/-! ## The walk -/

/-- The running maxima of the groups entered and not yet left, innermost first, and the widths
recorded. -/
structure Progress where
  running : List UInt32
  table : WidthTable

/-- Raises the innermost running maximum. -/
def Progress.widen (p : Progress) (width : UInt32) : Progress :=
  match p.running with
  | [] => p
  | w :: ws => { p with running := max w width :: ws }

/-- What entering a node does. -/
def Progress.enter (p : Progress) (kind : Kind) : Progress :=
  match kind with
  | .addrmap _ _ | .regfile => { p with running := 0 :: p.running }
  | .reg _ accessWidth => p.widen accessWidth
  | .mem _ width _ => p.widen width
  | .field _ | .signal => p

/-- What leaving a group does. -/
def Progress.leave (p : Progress) (path : String) : Progress :=
  match p.running with
  | [] => { p with table := p.table.record path 0 }
  | w :: ws => Progress.widen ⟨ws, p.table.record path w⟩ w

/-- One visit of the walk. -/
def Progress.visit (m : Model) (p : Progress) : Tree.Visit Nat → Progress
  | .enter h => p.enter (m.kind h)
  | .leave h => if (m.kind h).isGroup then p.leave (m.path h) else p

/-- The widths of all groups from a node downwards. -/
def build (m : Model) (top : Nat) : WidthTable :=
  ((m.walk top).foldl (Progress.visit m) ⟨[], empty⟩).table

end WidthTable

/-! ## Bytes -/

/-- Bits rounded up to whole bytes. -/
def bytesForBits (bits : UInt32) : Except Failure UInt32 := do
  let padded ← Checked.add32 bits 7
  return padded / 8

/-- The width in bytes of the bus at a path.  A bus has at least one byte, also where there is
nothing to access. -/
def busBytes (path : String) (bits : UInt32) : Report UInt32 :=
  if bits = 0 then do
    Report.note (.noRegisters path)
    return 1
  else bytesForBits bits

/-- The width in bytes of the bus of the group at a path. -/
def WidthTable.busBytes (t : WidthTable) (path : String) : Report UInt32 :=
  RegLayer.busBytes path ((t.width? path).getD 0)

end RegLayer
