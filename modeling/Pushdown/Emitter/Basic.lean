import Pushdown.Automaton.Basic
import Pushdown.Emitter.SymbolTable
import Pushdown.Machine.Program

/-! Emission of code by the actions of a scheme. Each action symbol stands for a routine that appends
code, reserves memory for a name, or passes something to a later action on a stack of frames. A
branch is emitted before its target is known and filled in by the action that ends it; a jump to
a label goes through the label's cell, which may be set later. -/
namespace Pushdown

/-- What an action symbol stands for. -/
inductive Duty where
  /-- Append an instruction. -/
  | emit (op : Opcode)
  /-- Append the value of the last token. -/
  | lastValue
  /-- Append the address of the name in the last token. -/
  | address
  /-- Append a jump to the label in the last token. -/
  | goto
  /-- Let the label in the last token denote the next place of the code. -/
  | label
  /-- Keep the value of the last token. -/
  | push
  /-- Reserve memory for the name kept, with the last token as the greatest subscript. -/
  | declare
  /-- Append a branch whose target is not known. -/
  | beginIf
  /-- Fill in the next place of the code as the target. -/
  | endIf
deriving Repr, DecidableEq

def Duty.ofName? : Symbol → Option Duty
  | "@quit" => some (.emit .quit)
  | "@lit" => some (.emit .literal)
  | "@ldi" => some (.emit .loadAt)
  | "@sti" => some (.emit .storeAt)
  | "@add" => some (.emit .add)
  | "@mult" => some (.emit .mul)
  | "@sub" => some (.emit .sub)
  | "@div" => some (.emit .div)
  | "@neg" => some (.emit .neg)
  | "@out" => some (.emit .output)
  | "@in" => some (.emit .input)
  | "@lt" => some (.emit .lt)
  | "@gt" => some (.emit .gt)
  | "@eq" => some (.emit .eq)
  | "@le" => some (.emit .le)
  | "@ge" => some (.emit .ge)
  | "@ne" => some (.emit .ne)
  | "@last_token_val" => some .lastValue
  | "@address_last_token_val" => some .address
  | "@goto" => some .goto
  | "@label" => some .label
  | "@push" => some .push
  | "@declare" => some .declare
  | "@begin_if" => some .beginIf
  | "@end_if" => some .endIf
  | _ => none

/-- What one action leaves for another. -/
inductive Frame where
  | value (v : Value)
  /-- The place of a target to be filled in. -/
  | branch (place : Nat)

def Frame.describe : Frame → String
  | .value v => s!"Value({v.describe})"
  | .branch place => "If \x7b patch: " ++ toString place ++ " \x7d"

inductive EmitError where
  | unknownAction (action : Symbol)
  | missingValue (action : Symbol)
  | wrongType (action : Symbol) (value : Value)
  | emptyFrames (action : Symbol)
  | unexpectedFrame (action : Symbol) (frame : Frame)
  | memory (error : MemoryError)

def EmitError.message : EmitError → String
  | .unknownAction action => s!"No routine for action symbol {action}"
  | .missingValue action => s!"Action {action} needs the value of the last token"
  | .wrongType action value => s!"Action {action} cannot use value {value.render}"
  | .emptyFrames action => s!"Action {action} found the action stack empty"
  | .unexpectedFrame action frame => s!"Action {action} popped unexpected {frame.describe}"
  | .memory error => error.message

structure Emitter where
  /-- The action symbols that may be performed. -/
  actions : List Symbol
  symbols : SymbolTable := {}
  program : Program := {}
  frames : Stack Frame := []

namespace Emitter

/-- An emitter for the actions of a scheme, if all of them are known. -/
def forScheme (g : Grammar) : Except EmitError Emitter :=
  match g.actions.find? (Duty.ofName? · = none) with
  | some action => .error (.unknownAction action)
  | none => .ok { actions := g.actions }

/-- Steps of emission that may fail and keep what was done until then. -/
abbrev Action := EStateM EmitError Emitter

def emit (cell : Cell) : Action Unit :=
  modify fun e => { e with program := e.program.emit cell }

def pushFrame (frame : Frame) : Action Unit :=
  modify fun e => { e with frames := e.frames.push frame }

def popFrame (action : Symbol) : Action Frame := do
  let e ← get
  match e.frames with
  | [] => throw (.emptyFrames action)
  | frame :: rest =>
    set { e with frames := rest }
    return frame

def withData (e : Emitter) (data : Memory) : Emitter :=
  { e with program := { e.program with data := data } }

/-- A step on the memory of the program. -/
def onData {α : Type} (step : Memory.Action α) : Action α :=
  Memory.inside (·.program.data) withData .memory step

/-- The entry of a name, created if need be. -/
def entry (name : String) (kind : StorageKind) (size : Nat) : Action Entry := do
  let (entry, symbols) ← onData ((← get).symbols.reserve name kind size)
  modify fun e => { e with symbols := symbols }
  return entry

/-- The value of the last token. -/
def valueOf (action : Symbol) (last : Option Token) : Action Value :=
  match last.bind Token.value with
  | some value => pure value
  | none => throw (.missingValue action)

/-- The text in the last token. -/
def nameOf (action : Symbol) (last : Option Token) : Action String := do
  match ← valueOf action last with
  | .text name => return name
  | value => throw (.wrongType action value)

/-- The last token as a subscript. -/
def subscriptOf (action : Symbol) (last : Option Token) : Action Nat := do
  match ← valueOf action last with
  | .int n => if 0 ≤ n then return n.toInt.toNat else throw (.wrongType action (.int n))
  | value => throw (.wrongType action value)

/-- The next place of the code. -/
def here : Action Nat := return (← get).program.nextIndex

def perform (action : Symbol) (last : Option Token) : Duty → Action Unit
  | .emit op => emit (.opcode op)
  | .lastValue => do emit (.ofValue (← valueOf action last))
  | .address => do
    let entry ← entry (← nameOf action last) .scalar 1
    emit (.address entry.address)
  | .goto => do
    let entry ← entry (← nameOf action last) .label 1
    emit (.opcode .literal)
    emit (.address entry.address)
    emit (.opcode .loadAt)
    emit (.opcode .jump)
  | .label => do
    let target ← here
    let entry ← entry (← nameOf action last) .label 1
    onData (Memory.store entry.address (.address target))
  | .push => do pushFrame (.value (← valueOf action last))
  | .declare => do
    let greatest ← subscriptOf action last
    match ← popFrame action with
    | .value (.text name) =>
      let _ ← entry name .array (greatest + 1)
    | .value value => throw (.wrongType action value)
    | frame => throw (.unexpectedFrame action frame)
  | .beginIf => do
    emit (.opcode .literal)
    let place ← here
    emit .unset
    pushFrame (.branch place)
    emit (.opcode .jumpUnless)
  | .endIf => do
    match ← popFrame action with
    | .branch place =>
      let target ← here
      modify fun e => { e with program := (e.program.patch place (.address target)).2 }
    | frame => throw (.unexpectedFrame action frame)

/-- The routine of an action symbol, for the automaton. -/
def routine : Automaton.Routine Emitter EmitError := fun action last => do
  if action ∈ (← get).actions then
    match Duty.ofName? action with
    | some duty => perform action last duty
    | none => throw (.unknownAction action)
  else throw (.unknownAction action)

end Emitter

end Pushdown
