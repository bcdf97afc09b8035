import Pushdown.Machine.Memory
import Pushdown.Text.Blank
import Pushdown.Text.Column

/-! Programs: code, whose places count from one, and the memory it starts with. A code or data file
has one cell to a line; only the first word of a line counts, and a line without words is skipped. -/
namespace Pushdown

structure Program where
  code : Array Cell := #[]
  data : Memory := .empty

namespace Program

/-- The place of the next cell of code. -/
def nextIndex (p : Program) : Nat := p.code.size + 1

def emit (p : Program) (cell : Cell) : Program := { p with code := p.code.push cell }

/-- The cell at a place of the code. -/
def fetch? (code : Array Cell) (index : Nat) : Option Cell :=
  if index = 0 then none else code[index - 1]?

/-- Replaces a cell of code; gives the old one, if there is such a place. -/
def patch (p : Program) (index : Nat) (cell : Cell) : Option Cell × Program :=
  match fetch? p.code index with
  | none => (none, p)
  | some old => (some old, { p with code := p.code.setIfInBounds (index - 1) cell })

/-- The first words of the lines of a text. -/
def firstWords (text : String) : List String :=
  (Text.lines text.toList).filterMap fun line => (Text.words line).head?.map String.ofList

def readCode (text : String) : Array Cell := ((firstWords text).map Cell.ofCodeWord).toArray

def readData (text : String) : Array Cell := ((firstWords text).map Cell.ofDataWord).toArray

/-- A program from a code file and, if there is one, a data file. -/
def read (code : String) (data : Option String) : Program :=
  ⟨readCode code, .ofCells ((data.map readData).getD #[])⟩

/-- The text of a code or data file. -/
def cellText (cells : Array Cell) : String :=
  String.join (cells.toList.map fun cell => cell.render ++ "\n")

/-- One line for each instruction with its operand, and for each cell that is no instruction. -/
def listingFrom (index : Nat) : List Cell → List String
  | [] => []
  | [cell] => [s!"{Text.alignRight 4 (toString index)}  {cell.render}\n"]
  | cell :: operand :: rest =>
    let place := Text.alignRight 4 (toString index)
    let withOperand := match cell with
      | .opcode op => op.hasOperand
      | _ => false
    if withOperand then
      s!"{place}  {cell.render} {operand.render}\n" :: listingFrom (index + 2) rest
    else
      s!"{place}  {cell.render}\n" :: listingFrom (index + 1) (operand :: rest)

/-- The listing of the code, and the memory in a last line that is not ended. -/
def listing (p : Program) : String :=
  String.join (listingFrom 1 p.code.toList) ++ s!"data  {p.data.render}"

end Program

end Pushdown
