import Pushdown.Compiler
import Pushdown.Proofs.Execution
import Pushdown.Proofs.Memory

/-! The capacity of the memory. It is looked at in one place only, when a cell is to be stored. So a machine
goes through the same states with more room, until it ends or memory runs out. -/
namespace Pushdown

namespace Machine

variable {α β ε : Type}

/-- Properties of actions that the instructions have if their parts do. -/
structure Compositional (P : {α : Type} → Action α → Prop) : Prop where
  pure {α : Type} (a : α) : P (pure a)
  bind {α β : Type} {act : Action α} {rest : α → Action β} :
    P act → (∀ a, P (rest a)) → P (act >>= rest)
  attempt {α : Type} (outcome : Except FaultKind α) : P (attempt outcome)
  push (cell : Cell) : P (push cell)
  pop (op : Opcode) : P (pop op)
  fetch (place : Cell) : P (fetch place)
  store (place cell : Cell) : P (store place cell)
  input : P (do Machine.push (.ofDataWord (Text.strip (← readLine))))
  print (cell : Cell) : P (modify fun m => { m with output := m.output.write cell } : Action Unit)
  stop : P (modify fun m => { m with running := false } : Action Unit)

namespace Compositional

variable {P : {α : Type} → Action α → Prop}

theorem combine (holds : Compositional P) (f : Cell → Cell → Except OperandError Cell) (l r : Cell) :
    P (combine f l r) :=
  holds.bind (holds.attempt _) holds.push

theorem binary (holds : Compositional P) (op : Opcode) (f : Cell → Cell → Except OperandError Cell) :
    P (binary op f) :=
  holds.bind (holds.pop op) fun _ => holds.bind (holds.pop op) fun _ => holds.combine f _ _

theorem perform (holds : Compositional P) (op : Opcode) (operand : Cell) : P (perform op operand) := by
  cases op with
  | quit => exact holds.stop
  | literal => exact holds.push _
  | load => exact holds.fetch _
  | store => exact holds.bind (holds.pop _) fun _ => holds.store _ _
  | loadAt => exact holds.bind (holds.pop _) holds.fetch
  | storeAt =>
    exact holds.bind (holds.pop _) fun _ => holds.bind (holds.pop _) fun _ => holds.store _ _
  | add | sub | mul | div => exact holds.binary _ _
  | eq | lt | gt | ne | le | ge | and | or => exact holds.binary _ _
  | neg => exact holds.bind (holds.pop _) fun _ => holds.bind (holds.attempt _) holds.push
  | not => exact holds.bind (holds.pop _) fun _ => holds.push _
  | input => exact holds.input
  | output => exact holds.bind (holds.pop _) holds.print
  | increment | decrement => exact holds.bind (holds.pop _) fun _ => holds.combine _ _ _
  | jump | jumpTo | jumpUnless => exact holds.pure ()

theorem execute (holds : Compositional P) (i : Instruction) : P (execute i) := by
  obtain ⟨op, operand, next⟩ := i
  cases op with
  | jump => exact holds.bind (holds.pop _) fun _ => holds.attempt _
  | jumpTo => exact holds.attempt _
  | jumpUnless =>
    refine holds.bind (holds.pop _) fun target => holds.bind (holds.pop _) fun condition => ?_
    split
    · exact holds.pure _
    · exact holds.attempt _
  | _ => exact holds.bind (holds.perform _ operand) fun _ => holds.pure _

end Compositional

/-- The machine with another capacity. -/
def withCapacity (m : Machine) (capacity : Nat) : Machine :=
  { m with
    initial := { m.initial with capacity := capacity }
    memory := { m.memory with capacity := capacity } }

/-- What comes of the same on a machine with more room: the same, unless memory ran out. -/
inductive Eased (capacity : Nat) (exhausted : ε → Prop) :
    EStateM.Result ε Machine α → EStateM.Result ε Machine α → Prop
  | ok {a : α} {m : Machine} (within : m.memory.capacity ≤ capacity) :
    Eased capacity exhausted (.ok a m) (.ok a (m.withCapacity capacity))
  | error {e : ε} {m : Machine} :
    Eased capacity exhausted (.error e m) (.error e (m.withCapacity capacity))
  | exhausted {e : ε} {m : Machine} {other : EStateM.Result ε Machine α} (ranOut : exhausted e) :
    Eased capacity exhausted (.error e m) other

/-- Actions to which more room makes no difference, unless they need it. -/
def Tolerant (act : Action α) : Prop :=
  ∀ capacity m, m.memory.capacity ≤ capacity →
    Eased capacity (· = .memory .outOfMemory) (act m) (act (m.withCapacity capacity))

theorem refusal?_withCapacity {m : Machine} {capacity : Nat} (within : m.memory.capacity ≤ capacity)
    (a : Nat) : m.memory.refusal? a = some .outOfMemory ∨
      (m.withCapacity capacity).memory.refusal? a = m.memory.refusal? a := by
  simp only [Memory.refusal?, withCapacity]
  grind

namespace Tolerant

theorem pure (a : α) : Tolerant (pure a) := fun _ _ within => .ok within

theorem bind {act : Action α} {rest : α → Action β} (first : Tolerant act)
    (second : ∀ a, Tolerant (rest a)) : Tolerant (act >>= rest) := by
  intro capacity m within
  have outcome := first capacity m within
  simp only [Bind.bind, EStateM.bind]
  generalize act m = x at outcome ⊢
  generalize act (m.withCapacity capacity) = y at outcome ⊢
  cases outcome with
  | ok within => exact second _ capacity _ within
  | error => exact .error
  | exhausted ranOut => exact .exhausted ranOut

theorem attempt (outcome : Except FaultKind α) : Tolerant (attempt outcome) := by
  intro capacity m within
  cases outcome with
  | ok a => exact .ok within
  | error kind => exact .error

theorem push (cell : Cell) : Tolerant (push cell) := fun _ _ within => .ok within

theorem pop (op : Opcode) : Tolerant (pop op) := by
  rintro capacity ⟨code, initial, memory, stack, counter, running, input, output⟩ within
  cases stack with
  | nil => exact .error
  | cons cell rest => exact .ok within

theorem fetch (place : Cell) : Tolerant (fetch place) := by
  refine .bind (.attempt _) fun a => ?_
  intro capacity m within
  exact Tolerant.bind (.attempt _) .push capacity m within

theorem store (place cell : Cell) : Tolerant (store place cell) := by
  refine .bind (.attempt _) fun a => ?_
  intro capacity m within
  rw [bind_get, bind_get]
  rcases refusal?_withCapacity within a with ranOut | same
  · rw [ranOut]
    exact .exhausted rfl
  · rw [same]
    cases m.memory.refusal? a with
    | some error => exact .error
    | none => exact .ok within

theorem readLine : Tolerant readLine := by
  rintro capacity ⟨code, initial, memory, stack, counter, running, ⟨pending⟩, output⟩ within
  rcases pending with _ | ⟨e | line, pending⟩
  · exact .error
  · exact .error
  · exact .ok within

theorem compositional : Compositional Tolerant where
  pure := .pure
  bind := .bind
  attempt := .attempt
  push := .push
  pop := .pop
  fetch := .fetch
  store := .store
  input := .bind .readLine fun _ => .push _
  print _ _ _ within := .ok within
  stop _ _ within := .ok within

theorem cycle : Tolerant cycle := by
  intro capacity m within
  exact Tolerant.bind (.attempt _) (compositional.execute) capacity m within

end Tolerant

variable {m : Machine} {capacity : Nat}

theorem step_eased (within : m.memory.capacity ≤ capacity) :
    Eased capacity (·.kind = .memory .outOfMemory) (step m) (step (m.withCapacity capacity)) := by
  cases running : m.running with
  | false =>
    have stays (m : Machine) (stopped : m.running = false) : step m = .ok () m := by
      simp [step, stopped]
    rw [stays m running, stays (m.withCapacity capacity) running]
    exact .ok within
  | true =>
    have outcome := Tolerant.cycle capacity m within
    have running' : (m.withCapacity capacity).running = true := running
    simp only [step, running, running', if_true]
    generalize Machine.cycle m = x at outcome ⊢
    generalize Machine.cycle (m.withCapacity capacity) = y at outcome ⊢
    cases outcome with
    | ok within => exact .ok within
    | error => exact .error
    | exhausted ranOut => exact .exhausted ranOut

theorem run_eased (steps : Nat) (within : m.memory.capacity ≤ capacity) :
    Eased capacity (·.kind = .memory .outOfMemory) (run steps m)
      (run steps (m.withCapacity capacity)) := by
  induction steps generalizing m with
  | zero => exact .ok within
  | succ steps ih =>
    cases running : m.running with
    | false =>
      rw [run_stopped running, run_stopped (m := m.withCapacity capacity) running]
      exact .ok within
    | true =>
      have outcome := step_eased within
      rw [run_running running, run_running (m := m.withCapacity capacity) running]
      generalize step m = x at outcome ⊢
      generalize step (m.withCapacity capacity) = y at outcome ⊢
      cases outcome with
      | ok within => exact ih within
      | error => exact .error
      | exhausted ranOut => exact .exhausted ranOut

/-- All of a machine's state but the capacity of its memory. -/
structure View where
  counter : Nat
  stack : Stack Cell
  cells : Array Cell
  running : Bool
  input : Input
  output : Output

def view (m : Machine) : View :=
  ⟨m.counter, m.stack, m.memory.cells, m.running, m.input, m.output⟩

end Machine

open Machine

/-- With more capacity a program goes through the same states as long as it does not end with less. If it
ends with less, by itself or by a fault other than for want of memory, it ends just so with more. -/
theorem more_capacity_runs_alike (p : Program) (input : Input) (output : Output) {less more : Nat}
    (le : less ≤ more) (steps : Nat) :
    (∀ m, run steps (boot p less input output) = .ok () m →
      ∃ m', run steps (boot p more input output) = .ok () m' ∧ m'.view = m.view) ∧
    ∀ f m, run steps (boot p less input output) = .error f m → f.kind ≠ .memory .outOfMemory →
      ∃ m', run steps (boot p more input output) = .error f m' ∧ m'.view = m.view := by
  -- The capacity never falls below the number of cells that the program brings along.
  have within : (boot p less input output).memory.capacity ≤ max more p.data.cells.size :=
    Nat.max_le.mpr ⟨Nat.le_trans le (Nat.le_max_left ..), Nat.le_max_right ..⟩
  have eased : Eased _ (fun f : Fault => f.kind = .memory .outOfMemory)
      (run steps (boot p less input output)) (run steps (boot p more input output)) :=
    run_eased steps within
  generalize run steps (boot p more input output) = outcome at eased ⊢
  constructor
  · intro m done
    rw [done] at eased
    cases eased with
    | ok => exact ⟨_, rfl, rfl⟩
  · intro f m faulted other
    rw [faulted] at eased
    cases eased with
    | error => exact ⟨_, rfl, rfl⟩
    | exhausted ranOut => exact absurd ranOut other

/-- Stores at the third address and then loads from the fifth, where there is no cell. -/
def vainLoad : Program where
  code := #[.opcode .literal, .int 7, .opcode .store, .int 3, .opcode .load, .int 5]

theorem more_capacity_runs_alike_vainLoad :
    3 ≤ 8 ∧ ∃ f m m', run 3 (boot vainLoad 3 .none .ignored) = .error f m ∧
      f.kind = .memory (.outOfRange 5) ∧ m.memory.cells = #[.unset, .unset, .int 7] ∧
      run 3 (boot vainLoad 8 .none .ignored) = .error f m' ∧ m'.view = m.view := by
  have faulted : run 3 (boot vainLoad 3 .none .ignored) = .error ⟨5, .memory (.outOfRange 5)⟩
      { boot vainLoad 3 .none .ignored with
        memory := ⟨#[.unset, .unset, .int 7], 3⟩, counter := 5, running := false } := rfl
  obtain ⟨m', alike, view⟩ :=
    (more_capacity_runs_alike vainLoad .none .ignored (by decide : 3 ≤ 8) 3).2 _ _ faulted nofun
  exact ⟨by decide, _, _, m', faulted, rfl, rfl, alike, view⟩

end Pushdown
