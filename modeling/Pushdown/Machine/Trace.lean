import Pushdown.Machine.Basic

/-! Traced runs of the machine. Before each step the trace shows the stack, the memory and the
instruction that comes next; keeping it does not influence the run. -/
namespace Pushdown.Machine

/-- The instruction at the counter, whether or not it can be decoded. -/
def upcoming (m : Machine) : String :=
  match Program.fetch? m.code m.counter with
  | none => "?"
  | some (.opcode op) =>
    match Program.fetch? m.code (m.counter + 1) with
    | some operand => if op.hasOperand then s!"{op.mnemonic}  {operand.render}" else op.mnemonic
    | none => op.mnemonic
  | some cell => cell.render

/-- Whether the next instruction reads a line. -/
def awaitsLine (m : Machine) : Bool :=
  match Program.fetch? m.code m.counter with
  | some (.opcode .input) => true
  | _ => false

/-- The entry of the trace for the step that a machine is about to take. -/
def snapshot (m : Machine) : String :=
  let column := Text.alignLeft 8
  column "stack" ++ s!" {Cell.renderRow m.stack.reverse}\n" ++
  column "data" ++ s!" {m.memory.render}\n" ++
  column m.upcoming ++ s!" at  {m.counter}\n\n"

/-- A machine and the trace of its steps so far, if one is kept. -/
structure Traced where
  machine : Machine
  trace : Option (Array String)

namespace Traced

/-- Adds an entry for the step to come. -/
def note (t : Traced) : Traced :=
  if t.machine.running then { t with trace := t.trace.map (·.push t.machine.snapshot) } else t

def step : EStateM Fault Traced Unit := fun t =>
  let ⟨machine, trace⟩ := t.note
  match machine.step with
  | .ok _ machine => .ok () ⟨machine, trace⟩
  | .error fault machine => .error fault ⟨machine, trace⟩

/-- Steps until the machine stops, as many as the budget allows. -/
def run : Nat → EStateM Fault Traced Unit
  | 0 => pure ()
  | budget + 1 => do
    if (← get).machine.running then
      step
      run budget

/-- Like `run`, but stops also before a line is read. -/
def runToLine : Nat → EStateM Fault Traced Unit
  | 0 => pure ()
  | budget + 1 => do
    let machine := (← get).machine
    if machine.running && !machine.awaitsLine then
      step
      runToLine budget

end Traced

end Pushdown.Machine
