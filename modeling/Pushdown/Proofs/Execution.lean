import Pushdown.Machine.Basic
import Pushdown.Proofs.Layout

/-! Executing pieces of code. The machine is followed from one place of the code to another, or to a
fault; the code of an expression leaves its value on the stack and changes nothing else. -/
namespace Pushdown

/-- What a program acts on. -/
structure World where
  memory : Memory
  input : Input
  output : Output

theorem Program.fetch?_bounds {code : Array Cell} {place : Nat} {cell : Cell}
    (fetched : fetch? code place = some cell) : 0 < place ∧ place ≤ code.size := by
  unfold fetch? at fetched
  split at fetched
  · cases fetched
  · obtain ⟨inside, _⟩ := Array.getElem?_eq_some_iff.mp fetched
    omega

namespace Machine

def world (m : Machine) : World := ⟨m.memory, m.input, m.output⟩

/-- The cells stand in the code from a place on. -/
def Lies (code : Array Cell) : Nat → List Cell → Prop
  | _, [] => True
  | place, cell :: rest => Program.fetch? code place = some cell ∧ Lies code (place + 1) rest

theorem lies_append {code : Array Cell} {place : Nat} {front back : List Cell} :
    Lies code place (front ++ back) ↔
      Lies code place front ∧ Lies code (place + front.length) back := by
  induction front generalizing place with
  | nil => simp [Lies]
  | cons cell front ih => simp [Lies, ih, and_assoc, Nat.add_assoc, Nat.add_comm 1]

theorem lies_of_toList {code : Array Cell} (before : List Cell) {cells : List Cell}
    (whole : code.toList = before ++ cells) : Lies code (before.length + 1) cells := by
  induction cells generalizing before with
  | nil => trivial
  | cons cell rest ih =>
    refine ⟨?_, ?_⟩
    · simp only [Program.fetch?, Nat.add_sub_cancel, Nat.add_one_ne_zero, if_false]
      rw [← Array.getElem?_toList, whole]
      simp
    · have shifted : code.toList = (before ++ [cell]) ++ rest := by simp [whole]
      simpa using ih (before ++ [cell]) shifted

theorem run_running {m : Machine} (running : m.running = true) (budget : Nat) :
    run (budget + 1) m = match step m with
      | .ok _ m' => run budget m'
      | .error f m' => .error f m' := by
  rw [run, bind_get, if_pos running]
  simp only [bind, EStateM.bind]
  cases step m <;> rfl

theorem run_stopped {m : Machine} (stopped : m.running = false) (budget : Nat) :
    run budget m = .ok () m := by
  cases budget with
  | zero => rfl
  | succ budget =>
    rw [run, bind_get, if_neg (by simp [stopped])]
    rfl

theorem run_add (n budget : Nat) (m : Machine) :
    run (n + budget) m = match run n m with
      | .ok _ m' => run budget m'
      | .error f m' => .error f m' := by
  induction n generalizing m with
  | zero => rw [Nat.zero_add]; rfl
  | succ n ih =>
    cases running : m.running with
    | true =>
      rw [Nat.add_right_comm, run_running running, run_running running]
      cases step m with
      | ok _ m' => exact ih m'
      | error f m' => rfl
    | false =>
      rw [run_stopped running, run_stopped running]
      exact (run_stopped running budget).symm

/-- The machine comes to another state after a number of steps, whatever budget remains. -/
def Leads (n : Nat) (m target : Machine) : Prop :=
  ∀ budget, run (n + budget) m = run budget target

/-- The machine comes to a fault after a number of steps. -/
def Faults (n : Nat) (m : Machine) (f : Fault) (target : Machine) : Prop :=
  ∀ budget, run (n + budget) m = .error f target

theorem Leads.refl (m : Machine) : Leads 0 m m := by
  intro budget
  rw [Nat.zero_add]

theorem Leads.trans {n k : Nat} {m middle target : Machine} (first : Leads n m middle)
    (second : Leads k middle target) : Leads (n + k) m target := by
  intro budget
  rw [Nat.add_assoc, first, second]

theorem Leads.faults {n k : Nat} {m middle target : Machine} {f : Fault}
    (first : Leads n m middle) (second : Faults k middle f target) :
    Faults (n + k) m f target := by
  intro budget
  rw [Nat.add_assoc, first, second]

theorem Leads.run_eq {n : Nat} {m target : Machine} (leads : Leads n m target) :
    run n m = .ok () target := leads 0

theorem Faults.run_eq {n : Nat} {m target : Machine} {f : Fault} (faults : Faults n m f target) :
    run n m = .error f target := faults 0

variable {m : Machine} {i : Instruction}

theorem step_of_decode (running : m.running = true)
    (decoded : decode m.code m.counter = .ok i) :
    step m = match execute i m with
      | .ok next m' => .ok () { m' with counter := next }
      | .error kind m' => .error ⟨m.counter, kind⟩ { m' with running := false } := by
  have cycled : cycle m = execute i m := by
    rw [cycle, bind_get, decoded]
    rfl
  cases executed : execute i m <;> simp only [step, running, if_true, cycled, executed]

theorem Leads.of_execute {next : Nat} {target : Machine} (running : m.running = true)
    (decoded : decode m.code m.counter = .ok i) (executed : execute i m = .ok next target) :
    Leads 1 m { target with counter := next } := by
  intro budget
  rw [Nat.add_comm, run_running running, step_of_decode running decoded, executed]

theorem Faults.of_execute {kind : FaultKind} {target : Machine} (running : m.running = true)
    (decoded : decode m.code m.counter = .ok i) (executed : execute i m = .error kind target) :
    Faults 1 m ⟨m.counter, kind⟩ { target with running := false } := by
  intro budget
  rw [Nat.add_comm, run_running running, step_of_decode running decoded, executed]

theorem decode_plain {code : Array Cell} {place : Nat} {op : Opcode} {rest : List Cell}
    (lies : Lies code place (.opcode op :: rest)) (plain : op.hasOperand = false) :
    decode code place = .ok ⟨op, .unset, place + 1⟩ := by
  simp [decode, lies.1, plain]

theorem decode_operand {code : Array Cell} {place : Nat} {op : Opcode} {operand : Cell}
    {rest : List Cell} (lies : Lies code place (.opcode op :: operand :: rest))
    (takes : op.hasOperand = true) : decode code place = .ok ⟨op, operand, place + 2⟩ := by
  simp [decode, lies.1, lies.2.1, takes]

/-- Where a piece of code takes the machine: to a state, or to a fault in some world. -/
def Arrives (m : Machine) : Except (FaultKind × World) Machine → Prop
  | .ok target => ∃ n, Leads n m target
  | .error (kind, w) => ∃ n place target, Faults n m ⟨place, kind⟩ target ∧ target.world = w

theorem Leads.arrives {n : Nat} {target : Machine} {outcome : Except (FaultKind × World) Machine}
    (leads : Leads n m target) (onward : target.Arrives outcome) : m.Arrives outcome := by
  cases outcome with
  | ok final =>
    obtain ⟨k, onward⟩ := onward
    exact ⟨n + k, leads.trans onward⟩
  | error fault =>
    obtain ⟨k, place, final, onward, world⟩ := onward
    exact ⟨n + k, place, final, leads.faults onward, world⟩

theorem Arrives.trans {target : Machine} {outcome : Except (FaultKind × World) Machine}
    (first : m.Arrives (.ok target)) (onward : target.Arrives outcome) : m.Arrives outcome := by
  obtain ⟨n, leads⟩ := first
  exact leads.arrives onward

/-- The machine after pushing an outcome on a stack. -/
def pushing (m : Machine) (stack : Stack Cell) (next : Nat) (outcome : Except FaultKind Cell) :
    Except (FaultKind × World) Machine :=
  match outcome with
  | .ok v => .ok { m with stack := v :: stack, counter := next }
  | .error kind => .error (kind, m.world)

/-- What is left of a machine that was to push an outcome on a stack. -/
def pushed (m : Machine) (stack : Stack Cell) : Except FaultKind Cell →
    EStateM.Result FaultKind Machine Unit
  | .ok v => .ok () { m with stack := v :: stack }
  | .error kind => .error kind { m with stack := stack }

theorem arrives_of_pushed {stack : Stack Cell} {outcome : Except FaultKind Cell}
    (running : m.running = true) (decoded : decode m.code m.counter = .ok i)
    (executed : execute i m = (do perform i.op i.operand; return i.next) m)
    (performed : perform i.op i.operand m = m.pushed stack outcome) :
    m.Arrives (m.pushing stack i.next outcome) := by
  simp only [bind, EStateM.bind, performed] at executed
  cases outcome with
  | ok v => exact ⟨1, .of_execute running decoded executed⟩
  | error kind => exact ⟨1, _, _, .of_execute running decoded executed, rfl⟩

/-- What is computed from a value continues from the state that has it on the stack. -/
theorem Arrives.bind {stack final : Stack Cell} {next last : Nat} {outcome : Except FaultKind Cell}
    {f : Cell → Except FaultKind Cell} (first : m.Arrives (m.pushing stack next outcome))
    (onward : ∀ v, Arrives { m with stack := v :: stack, counter := next }
      (m.pushing final last (f v))) :
    m.Arrives (m.pushing final last (outcome >>= f)) := by
  cases outcome with
  | ok v => exact first.trans (onward v)
  | error kind => exact first

theorem pop_eq {op : Opcode} {v : Cell} {stack : Stack Cell} (top : m.stack = v :: stack) :
    pop op m = .ok v { m with stack := stack } := by
  obtain ⟨code, initial, memory, _, counter, running, input, output⟩ := m
  subst top
  rfl

theorem push_attempt (outcome : Except FaultKind Cell) :
    (do push (← attempt outcome) : Action Unit) m = m.pushed m.stack outcome := by
  cases outcome <;> rfl

theorem binary_eq {op : Opcode} {f : Cell → Cell → Except OperandError Cell} {l r : Cell}
    {stack : Stack Cell} (top : m.stack = r :: l :: stack) :
    binary op f m = m.pushed stack ((f l r).mapError .operand) := by
  simp only [binary, bind, EStateM.bind, pop_eq top]
  rw [pop_eq (m := { m with stack := l :: stack }) rfl]
  exact push_attempt _

end Machine

/-- The cell at a place of the memory. -/
def Memory.read (m : Memory) (place : Cell) : Except FaultKind Cell := do
  (m.load (← Machine.location place)).mapError .memory

theorem Memory.read_address {m : Memory} {a : Nat} {cell : Cell} (loaded : m.load a = .ok cell) :
    m.read (.address a) = .ok cell := by
  simp only [read, Machine.location, bind, Except.bind, loaded]
  rfl

/-- The value of an expression, operands from left to right. -/
def Expr.eval (address : String → Nat) (memory : Memory) : Expr → Except FaultKind Cell
  | .literal n => .ok (.int n)
  | .address x => .ok (.address (address x))
  | .fetch place => do memory.read (← place.eval address memory)
  | .negate e => do (← e.eval address memory).negate.mapError .operand
  | .combine op l r => do
    let lhs ← l.eval address memory
    let rhs ← r.eval address memory
    (op.apply lhs rhs).mapError .operand

/-- Whether a comparison holds, operands from left to right. -/
def Condition.eval (address : String → Nat) (memory : Memory) (c : Condition) :
    Except FaultKind Bool := do
  let lhs ← c.left.eval address memory
  let rhs ← c.right.eval address memory
  (c.relation.apply lhs rhs).mapError .operand

namespace Machine

variable {m : Machine} {v l r : Cell} {stack : Stack Cell} {rest : List Cell}

theorem fetch_eq (place : Cell) : fetch place m = m.pushed m.stack (m.memory.read place) := by
  simp only [fetch, Memory.read]
  cases location place with
  | error kind => rfl
  | ok a => exact push_attempt _

theorem execute_loadAt (next : Nat) (top : m.stack = v :: stack) (read : m.memory.read v = .ok r) :
    execute ⟨.loadAt, .unset, next⟩ m = .ok next { m with stack := r :: stack } := by
  simp only [execute, perform, bind, EStateM.bind, pop_eq top, fetch_eq, read]
  rfl

theorem execute_jump (next : Nat) (top : m.stack = v :: stack) :
    execute ⟨.jump, .unset, next⟩ m = match location v with
      | .ok t => .ok t { m with stack := stack }
      | .error kind => .error kind { m with stack := stack } := by
  simp only [execute, bind, EStateM.bind, pop_eq top]
  cases location v <;> rfl

theorem execute_jumpUnless {t : Nat} (next : Nat) (top : m.stack = .address t :: v :: stack) :
    execute ⟨.jumpUnless, .unset, next⟩ m =
      .ok (if v.holds then next else t) { m with stack := stack } := by
  simp only [execute, bind, EStateM.bind, pop_eq top]
  rw [pop_eq (m := { m with stack := v :: stack }) rfl]
  cases holds : v.holds with
  | true =>
    simp only [holds, if_true]
    rfl
  | false =>
    simp only [holds, Bool.false_eq_true, if_false]
    rfl

theorem literal_arrives (running : m.running = true)
    (lies : Lies m.code m.counter (.opcode .literal :: v :: rest)) :
    m.Arrives (m.pushing m.stack (m.counter + 2) (.ok v)) :=
  arrives_of_pushed running (decode_operand lies rfl) rfl rfl

theorem loadAt_arrives (running : m.running = true) (top : m.stack = v :: stack)
    (lies : Lies m.code m.counter (.opcode .loadAt :: rest)) :
    m.Arrives (m.pushing stack (m.counter + 1) (m.memory.read v)) := by
  refine arrives_of_pushed running (decode_plain lies rfl) rfl ?_
  simp only [perform, bind, EStateM.bind, pop_eq top]
  exact fetch_eq v

theorem neg_arrives (running : m.running = true) (top : m.stack = v :: stack)
    (lies : Lies m.code m.counter (.opcode .neg :: rest)) :
    m.Arrives (m.pushing stack (m.counter + 1) (v.negate.mapError .operand)) := by
  refine arrives_of_pushed running (decode_plain lies rfl) rfl ?_
  simp only [perform, bind, EStateM.bind, pop_eq top]
  exact push_attempt _

theorem arithmetic_arrives (op : Arithmetic) (running : m.running = true)
    (top : m.stack = r :: l :: stack)
    (lies : Lies m.code m.counter (.opcode op.opcode :: rest)) :
    m.Arrives (m.pushing stack (m.counter + 1) ((op.apply l r).mapError .operand)) := by
  refine arrives_of_pushed running (decode_plain lies (by cases op <;> rfl)) (by cases op <;> rfl) ?_
  cases op <;> exact binary_eq top

theorem relation_arrives (op : Logic) (running : m.running = true)
    (top : m.stack = r :: l :: stack)
    (lies : Lies m.code m.counter (.opcode op.opcode :: rest)) :
    m.Arrives (m.pushing stack (m.counter + 1)
      (((op.apply l r).map Cell.ofBool).mapError .operand)) := by
  refine arrives_of_pushed running (decode_plain lies (by cases op <;> rfl)) (by cases op <;> rfl) ?_
  cases op <;> exact binary_eq top

end Machine

theorem Expr.arrives (address : String → Nat) (e : Expr) {m : Machine} (running : m.running = true)
    (lies : Machine.Lies m.code m.counter (e.code address)) :
    m.Arrives (m.pushing m.stack (m.counter + e.size) (e.eval address m.memory)) := by
  induction e generalizing m with
  | literal n => exact Machine.literal_arrives running lies
  | address x => exact Machine.literal_arrives running lies
  | fetch place ih =>
    obtain ⟨front, back⟩ := Machine.lies_append.mp lies
    rw [length_code] at back
    exact (ih running front).bind fun v => Machine.loadAt_arrives running rfl back
  | negate e ih =>
    obtain ⟨front, back⟩ := Machine.lies_append.mp lies
    rw [length_code] at back
    exact (ih running front).bind fun v => Machine.neg_arrives running rfl back
  | combine op l r left right =>
    obtain ⟨front, back⟩ := Machine.lies_append.mp lies
    obtain ⟨front, middle⟩ := Machine.lies_append.mp front
    simp only [List.length_append, length_code, ← Nat.add_assoc] at middle back
    rw [size, ← Nat.add_assoc, ← Nat.add_assoc]
    refine (left running front).bind fun v => ?_
    have second := right (m := { m with stack := v :: m.stack, counter := m.counter + l.size })
      running middle
    exact second.bind fun w => Machine.arithmetic_arrives op running rfl back

theorem Condition.arrives (address : String → Nat) (c : Condition) {m : Machine}
    (running : m.running = true) (lies : Machine.Lies m.code m.counter (c.code address)) :
    m.Arrives (m.pushing m.stack (m.counter + c.size)
      ((c.eval address m.memory).map Cell.ofBool)) := by
  obtain ⟨front, back⟩ := Machine.lies_append.mp lies
  obtain ⟨front, middle⟩ := Machine.lies_append.mp front
  simp only [List.length_append, Expr.length_code, ← Nat.add_assoc] at middle back
  have commute (x : Except OperandError Bool) : (x.mapError FaultKind.operand).map Cell.ofBool =
      (x.map Cell.ofBool).mapError .operand := by cases x <;> rfl
  have operands : (c.eval address m.memory).map Cell.ofBool = (do
      let lhs ← c.left.eval address m.memory
      let rhs ← c.right.eval address m.memory
      ((c.relation.apply lhs rhs).map Cell.ofBool).mapError .operand) := by
    unfold eval
    cases c.left.eval address m.memory with
    | error => rfl
    | ok lhs =>
      cases c.right.eval address m.memory with
      | error => rfl
      | ok rhs => exact commute _
  rw [operands, size, ← Nat.add_assoc, ← Nat.add_assoc]
  refine (c.left.arrives address running front).bind fun v => ?_
  have second := c.right.arrives address
    (m := { m with stack := v :: m.stack, counter := m.counter + c.left.size }) running middle
  exact second.bind fun w => Machine.relation_arrives c.relation running rfl back

end Pushdown
