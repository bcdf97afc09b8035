import Pushdown.Machine.Opcode
import Pushdown.Value

/-! Cells, the contents of code, data memory and operand stack. Addresses count from one. They share
their written form with integers, so a saved address is read back as an integer. -/
namespace Pushdown

inductive Cell where
  | opcode (op : Opcode)
  | int (n : Int64)
  | real (x : Float)
  | text (s : String)
  | address (a : Nat)
  /-- Reserved and not yet stored to. -/
  | unset

instance : Inhabited Cell := ⟨.unset⟩

namespace Cell

def ofValue : Value → Cell
  | .int n => .int n
  | .real x => .real x
  | .text s => .text s

def ofBool (b : Bool) : Cell := .int (if b then 1 else 0)

/-- The word for a cell that is not set. -/
def unsetWord : String := "None"

/-- A word of a data file, or of the input. -/
def ofDataWord (word : String) : Cell :=
  if word = unsetWord then .unset else ofValue (.ofWord word)

/-- A word of a code file. -/
def ofCodeWord (word : String) : Cell :=
  match Opcode.ofMnemonic? word with
  | some op => .opcode op
  | none => ofDataWord word

def render : Cell → String
  | .opcode op => op.mnemonic
  | .int n => String.ofList (Numeral.writeInt64 n)
  | .real x => String.ofList (Numeral.writeReal x)
  | .text s => s
  | .address a => String.ofList (Numeral.writeNat a)
  | .unset => unsetWord

/-- Whether a condition holds: numbers other than zero, texts that are not empty, and all
addresses and opcodes. -/
def holds : Cell → Bool
  | .int n => n != 0
  | .real x => x != 0.0
  | .text s => s != ""
  | .address _ | .opcode _ => true
  | .unset => false

/-- Cells in a row, as traces and listings show them. -/
def renderRow (cells : List Cell) : String := "\t".intercalate (cells.map render)

end Cell

end Pushdown
