/-! The instructions of the stack machine. Some are followed by an operand, which takes the next
place of the code. -/
namespace Pushdown

inductive Opcode where
  /-- Stop. -/
  | quit
  /-- Push the operand. -/
  | literal
  /-- Push the cell at the operand's address. -/
  | load
  /-- Pop a cell and store it at the operand's address. -/
  | store
  /-- Pop an address and push the cell there. -/
  | loadAt
  /-- Pop a cell, then an address, and store the cell there. -/
  | storeAt
  | add
  | sub
  | mul
  | div
  | neg
  | eq
  | lt
  | gt
  | ne
  | le
  | ge
  /-- Pop an address and continue there. -/
  | jump
  /-- Continue at the operand's address. -/
  | jumpTo
  /-- Pop an address, then a condition, and continue at the address if the condition fails. -/
  | jumpUnless
  /-- Push a cell read from the next line of input. -/
  | input
  /-- Pop a cell and print it. -/
  | output
  | and
  | or
  | not
  /-- Add the operand to the top of the stack. -/
  | increment
  /-- Subtract the operand from the top of the stack. -/
  | decrement
deriving Repr, DecidableEq

namespace Opcode

def all : List Opcode :=
  [.quit, .literal, .load, .store, .loadAt, .storeAt, .add, .sub, .mul, .div, .neg, .eq, .lt, .gt,
   .ne, .le, .ge, .jump, .jumpTo, .jumpUnless, .input, .output, .and, .or, .not, .increment,
   .decrement]

/-- The word for an instruction in code files and listings. -/
def mnemonic : Opcode → String
  | .quit => "quit"
  | .literal => "lit"
  | .load => "load"
  | .store => "store"
  | .loadAt => "ldi"
  | .storeAt => "sti"
  | .add => "add"
  | .sub => "sub"
  | .mul => "mult"
  | .div => "div"
  | .neg => "neg"
  | .eq => "eq"
  | .lt => "lt"
  | .gt => "gt"
  | .ne => "ne"
  | .le => "le"
  | .ge => "ge"
  | .jump => "br"
  | .jumpTo => "brl"
  | .jumpUnless => "brf"
  | .input => "in"
  | .output => "out"
  | .and => "and"
  | .or => "or"
  | .not => "not"
  | .increment => "inc"
  | .decrement => "dec"

def ofMnemonic? (word : String) : Option Opcode := all.find? (·.mnemonic = word)

def hasOperand : Opcode → Bool
  | .literal | .load | .store | .jumpTo | .increment | .decrement => true
  | _ => false

theorem mem_all (op : Opcode) : op ∈ all := by
  cases op <;> decide

end Opcode

end Pushdown
