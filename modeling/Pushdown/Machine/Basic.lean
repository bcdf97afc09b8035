import Pushdown.Machine.Arithmetic
import Pushdown.Machine.Channel
import Pushdown.Machine.Program
import Pushdown.Stack

/-! The stack machine. A step decodes the instruction at the program counter, executes it and moves on.
If that fails the machine stops where it is: the counter stays, and of the instruction's effects
only what it took from the stack remains. -/
namespace Pushdown

inductive FaultKind where
  | unknownOpcode (cell : Cell)
  | outsideCode
  | missingOperand (op : Opcode)
  | emptyStack (op : Opcode)
  | invalidAddress (cell : Cell)
  | memory (error : MemoryError)
  | operand (error : OperandError)
  | endOfInput
  | stream (error : Text.StreamError)

def FaultKind.message : FaultKind → String
  | .unknownOpcode cell => s!"Unknown opcode {cell.render}"
  | .outsideCode => "Program counter out of range"
  | .missingOperand op => s!"Missing operand ({op.mnemonic})"
  | .emptyStack op => s!"Empty stack ({op.mnemonic})"
  | .invalidAddress cell => s!"Invalid address {cell.render}"
  | .memory error => error.message
  | .operand error => error.message
  | .endOfInput => "No input (in)"
  | .stream error => s!"I/O error: {error.message}"

/-- What went wrong, and the place of the instruction. -/
structure Fault where
  counter : Nat
  kind : FaultKind

def Fault.message (f : Fault) : String := s!"Fault at {f.counter}: {f.kind.message}"

structure Machine where
  code : Array Cell
  /-- The memory that a reset brings back. -/
  initial : Memory
  memory : Memory
  stack : Stack Cell
  /-- The place of the next instruction. -/
  counter : Nat
  running : Bool
  input : Input
  output : Output

namespace Machine

def load (program : Program) (input : Input) (output : Output) : Machine where
  code := program.code
  initial := program.data
  memory := program.data
  stack := []
  counter := 1
  running := true
  input := input
  output := output

/-- Back to the state after loading; what was read and printed stays so. -/
def reset (m : Machine) : Machine :=
  { m with memory := m.initial, stack := [], counter := 1, running := true }

/-- An instruction with its operand, and the place behind it. -/
structure Instruction where
  op : Opcode
  operand : Cell
  next : Nat

def decode (code : Array Cell) (counter : Nat) : Except FaultKind Instruction :=
  match Program.fetch? code counter with
  | none => .error .outsideCode
  | some (.opcode op) =>
    if op.hasOperand then
      match Program.fetch? code (counter + 1) with
      | none => .error (.missingOperand op)
      | some operand => .ok ⟨op, operand, counter + 2⟩
    else .ok ⟨op, .unset, counter + 1⟩
  | some cell => .error (.unknownOpcode cell)

/-- The place that a cell denotes. Positive integers serve as addresses. -/
def location : Cell → Except FaultKind Nat
  | .address a => .ok a
  | .int n => if 0 < n then .ok n.toInt.toNat else .error (.invalidAddress (.int n))
  | cell => .error (.invalidAddress cell)

/-- Actions of the machine that may fail and keep what was done until then. -/
abbrev Action := EStateM FaultKind Machine

def attempt {α : Type} : Except FaultKind α → Action α
  | .ok a => pure a
  | .error kind => throw kind

def push (cell : Cell) : Action Unit := modify fun m => { m with stack := m.stack.push cell }

def pop (op : Opcode) : Action Cell := do
  let m ← get
  match m.stack with
  | [] => throw (.emptyStack op)
  | cell :: rest =>
    set { m with stack := rest }
    return cell

/-- Pushes the cell at a place. -/
def fetch (place : Cell) : Action Unit := do
  let address ← attempt (location place)
  push (← attempt (((← get).memory.load address).mapError .memory))

/-- Stores a cell at a place. -/
def store (place cell : Cell) : Action Unit := do
  let address ← attempt (location place)
  match (← get).memory.refusal? address with
  | some error => throw (.memory error)
  | none => modify fun m => { m with memory := m.memory.put address cell }

/-- Combines two cells and pushes the result. -/
def combine (f : Cell → Cell → Except OperandError Cell) (lhs rhs : Cell) : Action Unit := do
  push (← attempt ((f lhs rhs).mapError .operand))

/-- Combines the two uppermost cells, the right operand being on top. -/
def binary (op : Opcode) (f : Cell → Cell → Except OperandError Cell) : Action Unit := do
  let rhs ← pop op
  let lhs ← pop op
  combine f lhs rhs

def relate (op : Opcode) (relation : Logic) : Action Unit :=
  binary op fun lhs rhs => (relation.apply lhs rhs).map .ofBool

def readLine : Action String := do
  let m ← get
  match m.input.read with
  | (.error e, rest) =>
    set { m with input := rest }
    throw (.stream e)
  | (.ok none, _) => throw .endOfInput
  | (.ok (some line), rest) =>
    set { m with input := rest }
    return line

/-- What an instruction does to stack, memory, input and output. Jumps do nothing here. -/
def perform (op : Opcode) (operand : Cell) : Action Unit :=
  match op with
  | .quit => modify fun m => { m with running := false }
  | .literal => push operand
  | .load => fetch operand
  | .store => do store operand (← pop op)
  | .loadAt => do fetch (← pop op)
  | .storeAt => do
    let cell ← pop op
    store (← pop op) cell
  | .add => binary op Arithmetic.add.apply
  | .sub => binary op Arithmetic.sub.apply
  | .mul => binary op Arithmetic.mul.apply
  | .div => binary op Arithmetic.div.apply
  | .neg => do push (← attempt ((← pop op).negate.mapError .operand))
  | .eq => relate op .eq
  | .lt => relate op .lt
  | .gt => relate op .gt
  | .ne => relate op .ne
  | .le => relate op .le
  | .ge => relate op .ge
  | .and => relate op .and
  | .or => relate op .or
  | .not => do push (.ofBool (!(← pop op).holds))
  | .input => do push (.ofDataWord (Text.strip (← readLine)))
  | .output => do
    let cell ← pop op
    modify fun m => { m with output := m.output.write cell }
  | .increment => do combine Arithmetic.add.apply (← pop op) operand
  | .decrement => do combine Arithmetic.sub.apply (← pop op) operand
  | .jump | .jumpTo | .jumpUnless => pure ()

/-- Executes an instruction and gives the place of the next one. -/
def execute (i : Instruction) : Action Nat :=
  match i.op with
  | .jump => do attempt (location (← pop i.op))
  | .jumpTo => attempt (location i.operand)
  | .jumpUnless => do
    let target ← pop i.op
    let condition ← pop i.op
    if condition.holds then return i.next else attempt (location target)
  | op => do
    perform op i.operand
    return i.next

/-- One instruction, from decoding to the place of the next one. -/
def cycle : Action Nat := do
  let m ← get
  execute (← attempt (decode m.code m.counter))

/-- One step. A machine that has stopped does nothing. -/
def step : EStateM Fault Machine Unit := fun m =>
  if m.running then
    let counter := m.counter
    match cycle m with
    | .ok next m => .ok () { m with counter := next }
    | .error kind m => .error ⟨counter, kind⟩ { m with running := false }
  else .ok () m

/-- Steps until the machine stops, as many as the budget allows. -/
def run : Nat → EStateM Fault Machine Unit
  | 0 => pure ()
  | budget + 1 => do
    if (← get).running then
      step
      run budget

end Machine

end Pushdown
