import Pushdown.Automaton.Trace
import Pushdown.Emitter.Basic
import Pushdown.Machine.Trace
import Pushdown.Token.Scan

/-! Compilation and execution. Compiling scans a program, runs the automaton of a scheme on the tokens,
and takes what its actions emitted. Neither the automaton nor the machine need stop by itself, so both
are run for a number of steps that the caller chooses. -/
namespace Pushdown

open Automaton

/-- What the actions of a run left behind. It is a whole program only if the run accepted. -/
structure Emission where
  state : State
  program : Program
  symbols : SymbolTable

/-- A run of a scheme on tokens, together with its trace if one is kept. -/
abbrev Emission.Run := Watched Emitter (Option (Array String))

namespace Emission

/-- The run before its first step. -/
def start (g : Grammar) (tokens : List Token) (trace : Option (Array String)) :
    Except EmitError Run :=
  (Emitter.forScheme g).map fun emitter =>
    ⟨Config.init g (.ofTokens tokens) emitter, trace⟩

/-- Takes as many steps as the budget allows. -/
def advance (g : Grammar) (budget : Nat) : EStateM EmitError Run Unit :=
  Watched.run g Emitter.routine tracer budget

/-- The emission of a run as it stands. -/
def ofRun (run : Run) : Emission :=
  ⟨run.config.state, run.config.work.program, run.config.work.symbols⟩

end Emission

inductive CompileError where
  | unreadable (error : ReadError)
  | emission (error : EmitError)
  | rejected

namespace Compiler

/-- The run that compiles a program. -/
def start (g : Grammar) (source : String) (trace : Option (Array String)) :
    Except CompileError Emission.Run := do
  let tokens ← (Token.scan source).mapError .unreadable
  (Emission.start g tokens trace).mapError .emission

/-- The outcome of a run that has stopped. -/
def finish (run : Emission.Run) : Except CompileError Emission :=
  let emission := Emission.ofRun run
  if emission.state = .accepted then .ok emission else .error .rejected

/-- Compiles a program within a budget of steps; a run that takes longer gives nothing. -/
def compile (g : Grammar) (source : String) (budget : Nat) :
    Option (Except CompileError Emission) :=
  match start g source none with
  | .error e => some (.error e)
  | .ok run =>
    match Emission.advance g budget run with
    | .error e _ => some (.error (.emission e))
    | .ok _ run => if run.config.state = .running then none else some (finish run)

end Compiler

namespace Machine

/-- A machine that is to execute a program with a memory of the given capacity. -/
def boot (program : Program) (capacity : Nat) (input : Input) (output : Output) : Machine :=
  load { program with data := program.data.setCapacity capacity } input output

end Machine

end Pushdown
