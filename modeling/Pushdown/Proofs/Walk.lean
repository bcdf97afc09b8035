import Pushdown.Proofs.Execution

/-! An interpreter of programs that walks their statements and knows nothing of code. It holds what
is still to be done as a list of statements: a branch or a group puts its body in front of the list,
and a jump replaces the list by what stands from the label on. One step is one statement. -/
namespace Pushdown

namespace World

/-- Effects on the world that may fail and keep what was done until then. -/
abbrev Action := EStateM FaultKind World

def attempt {α : Type} : Except FaultKind α → Action α
  | .ok a => pure a
  | .error kind => throw kind

variable (address : String → Nat)

def value (e : Expr) : Action Cell := do attempt (e.eval address (← get).memory)

def test (c : Condition) : Action Bool := do attempt (c.eval address (← get).memory)

def store (place cell : Cell) : Action Unit := do
  let a ← attempt (Machine.location place)
  Memory.inside World.memory (fun w memory => { w with memory := memory }) .memory (Memory.store a cell)

def readLine : Action String := do
  let w ← get
  match w.input.read with
  | (.error e, rest) =>
    set { w with input := rest }
    throw (.stream e)
  | (.ok none, _) => throw .endOfInput
  | (.ok (some line), rest) =>
    set { w with input := rest }
    return line

/-- First the place, then the value, then the store. -/
def assign (target e : Expr) : Action Unit := do
  let place ← value address target
  let cell ← value address e
  store place cell

def print (e : Expr) : Action Unit := do
  let cell ← value address e
  modify fun w => { w with output := w.output.write cell }

/-- First the place, then a line of input, then the store. -/
def fill (target : Expr) : Action Unit := do
  let place ← value address target
  let line ← readLine
  store place (.ofDataWord (Text.strip line))

end World

namespace Statement

mutual

/-- What is to be done from the last label of a name in a statement on, with statements behind. -/
def seek (x : String) (behind : List Statement) : Statement → Option (List Statement)
  | .branch _ body => body.seek x behind
  | .group body => seekAll x behind body
  | .labelled y body =>
    (body.seek x behind).or (if y = x then some (body :: behind) else none)
  | _ => none

def seekAll (x : String) (behind : List Statement) : List Statement → Option (List Statement)
  | [] => none
  | s :: rest => (seekAll x behind rest).or (s.seek x (rest ++ behind))

end

end Statement

structure Walk where
  /-- What is still to be done. -/
  rest : List Statement
  world : World
  running : Bool

namespace Walk

abbrev Action := EStateM FaultKind Walk

/-- An effect on the world. -/
def act {α : Type} (effect : World.Action α) : Action α := fun w =>
  match effect w.world with
  | .ok a world => .ok a { w with world := world }
  | .error kind world => .error kind { w with world := world }

def goOn (rest : List Statement) : Action Unit := modify fun w => { w with rest := rest }

def halt : Action Unit := modify fun w => { w with running := false }

/-- Does the first of the statements that are to be done. -/
def proceed (address : String → Nat) (program : List Statement) : List Statement → Action Unit
  | [] => halt
  | .assign target value :: rest => do
    act (World.assign address target value)
    goOn rest
  | .put items :: rest => do
    act (items.forM (World.print address))
    goOn rest
  | .get targets :: rest => do
    act (targets.forM (World.fill address))
    goOn rest
  | .stop :: _ => halt
  | .goto x :: _ =>
    match Statement.seekAll x [] program with
    | some rest => goOn rest
    | none => throw (.invalidAddress .unset)
  | .branch c body :: rest => do
    if ← act (World.test address c) then goOn (body :: rest) else goOn rest
  | .group body :: rest => goOn (body ++ rest)
  | .labelled _ body :: rest => goOn (body :: rest)

def step (address : String → Nat) (program : List Statement) : Action Unit := do
  proceed address program (← get).rest

/-- Steps until the walk ends, as many as the budget allows. -/
def run (address : String → Nat) (program : List Statement) : Nat → Action Unit
  | 0 => pure ()
  | budget + 1 => do
    if (← get).running then
      step address program
      run address program budget

def start (program : List Statement) (w : World) : Walk := ⟨program, w, true⟩

variable {address : String → Nat} {program : List Statement} {w : Walk}

theorem run_running (running : w.running = true) (budget : Nat) :
    run address program (budget + 1) w = match step address program w with
      | .ok _ w' => run address program budget w'
      | .error kind w' => .error kind w' := by
  rw [run, bind_get, if_pos running]
  simp only [bind, EStateM.bind]
  cases step address program w <;> rfl

theorem run_stopped (stopped : w.running = false) (budget : Nat) :
    run address program budget w = .ok () w := by
  cases budget with
  | zero => rfl
  | succ budget =>
    rw [run, bind_get, if_neg (by simp [stopped])]
    rfl

end Walk

/-- How far a run has come. -/
inductive Status where
  | running
  | halted
  | faulted (kind : FaultKind)

instance (s : Status) : Decidable (s = .running) :=
  match s with
  | .running => isTrue rfl
  | .halted | .faulted _ => isFalse nofun

/-- What can be seen of a run: how far it has come, the memory, what is left of the input, and what
was printed. -/
structure Observation where
  status : Status
  world : World

def Walk.observe : EStateM.Result FaultKind Walk Unit → Observation
  | .ok _ w => ⟨if w.running then .running else .halted, w.world⟩
  | .error kind w => ⟨.faulted kind, w.world⟩

def Machine.observe : EStateM.Result Fault Machine Unit → Observation
  | .ok _ m => ⟨if m.running then .running else .halted, m.world⟩
  | .error fault m => ⟨.faulted fault.kind, m.world⟩

end Pushdown
