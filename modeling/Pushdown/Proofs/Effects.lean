import Pushdown.Proofs.Memory
import Pushdown.Proofs.Walk

/-! The code of simple statements has the effect of the statements on the world: it assigns, prints and
reads as the interpreter does, up to the same faults, and leaves the stack as it found it. -/
namespace Pushdown

namespace Machine

variable {m : Machine} {v place cell : Cell} {stack : Stack Cell} {rest : List Cell}

/-- The machine in another world, at another place. -/
def moved (m : Machine) (w : World) (counter : Nat) : Machine :=
  { m with memory := w.memory, input := w.input, output := w.output, counter := counter }

/-- Where the machine is after an effect on the world. -/
def after (m : Machine) (counter : Nat) :
    EStateM.Result FaultKind World Unit → Except (FaultKind × World) Machine
  | .ok _ w => .ok (m.moved w counter)
  | .error kind w => .error (kind, w)

/-- The same after an effect that gives a cell, which is pushed. -/
def afterPush (m : Machine) (stack : Stack Cell) (counter : Nat) :
    EStateM.Result FaultKind World Cell → Except (FaultKind × World) Machine
  | .ok v w => .ok { m.moved w counter with stack := v :: stack }
  | .error kind w => .error (kind, w)

/-- An effect on the world as an action of the machine. -/
def inWorld {α : Type} (effect : World.Action α) : Action α := fun m =>
  match effect m.world with
  | .ok a w => .ok a (m.moved w m.counter)
  | .error kind w => .error kind (m.moved w m.counter)

theorem store_eq (place cell : Cell) : store place cell m = inWorld (World.store place cell) m := by
  unfold store inWorld World.store
  cases location place with
  | error kind => rfl
  | ok a =>
    simp only [attempt, World.attempt, pure_bind, bind_get, Memory.inside, Memory.store_eq, world]
    cases m.memory.refusal? a <;> rfl

theorem readLine_eq : readLine m = inWorld World.readLine m := by
  obtain ⟨code, initial, memory, stack, counter, running, ⟨pending⟩, output⟩ := m
  rcases pending with _ | ⟨_ | line, pending⟩ <;> rfl

theorem arrives_of_inWorld {i : Instruction} {effect : World.Action Unit} (running : m.running = true)
    (decoded : decode m.code m.counter = .ok i)
    (executed : execute i m = (do perform i.op i.operand; return i.next) m)
    (performed : perform i.op i.operand m = inWorld effect { m with stack := stack }) :
    m.Arrives (Machine.after { m with stack := stack } i.next (effect m.world)) := by
  have same : ({ m with stack := stack } : Machine).world = m.world := rfl
  simp only [bind, EStateM.bind, performed, inWorld, same] at executed
  cases result : effect m.world with
  | ok _ w =>
    rw [result] at executed
    exact ⟨1, .of_execute running decoded executed⟩
  | error kind w =>
    rw [result] at executed
    exact ⟨1, _, _, .of_execute running decoded executed, rfl⟩

theorem storeAt_arrives (running : m.running = true) (top : m.stack = cell :: place :: stack)
    (lies : Lies m.code m.counter (.opcode .storeAt :: rest)) :
    m.Arrives (Machine.after { m with stack := stack } (m.counter + 1)
      (World.store place cell m.world)) := by
  refine arrives_of_inWorld running (decode_plain lies rfl) rfl ?_
  simp only [perform, bind, EStateM.bind, pop_eq top]
  rw [pop_eq (m := { m with stack := place :: stack }) rfl]
  exact store_eq place cell

theorem output_arrives (running : m.running = true) (top : m.stack = v :: stack)
    (lies : Lies m.code m.counter (.opcode .output :: rest)) :
    m.Arrives (Machine.after { m with stack := stack } (m.counter + 1)
      (.ok () { m.world with output := m.output.write v })) := by
  have performed : perform .output .unset m =
      inWorld (modify fun w => { w with output := w.output.write v }) { m with stack := stack } := by
    simp only [perform, bind, EStateM.bind, pop_eq top]
    rfl
  exact arrives_of_inWorld running (decode_plain lies rfl) rfl performed

theorem input_arrives (running : m.running = true)
    (lies : Lies m.code m.counter (.opcode .input :: rest)) :
    m.Arrives (m.afterPush m.stack (m.counter + 1)
      ((do return .ofDataWord (Text.strip (← World.readLine)) : World.Action Cell) m.world)) := by
  have decoded := decode_plain lies rfl
  have executed : execute ⟨.input, .unset, m.counter + 1⟩ m =
      (do perform .input .unset; return m.counter + 1) m := rfl
  simp only [perform, bind, EStateM.bind, readLine_eq, inWorld] at executed ⊢
  cases read : World.readLine m.world with
  | ok line w =>
    rw [read] at executed
    exact ⟨1, .of_execute running decoded executed⟩
  | error kind w =>
    rw [read] at executed
    exact ⟨1, _, _, .of_execute running decoded executed, rfl⟩

end Machine

open Machine

/-- The cells do what the effect does and come to the place behind them, or to the same fault. -/
def Enacts (cells : List Cell) (effect : World.Action Unit) : Prop :=
  ∀ m : Machine, m.running = true → Lies m.code m.counter cells →
    m.Arrives (m.after (m.counter + cells.length) (effect m.world))

namespace Enacts

variable {cells more : List Cell} {effect next : World.Action Unit}

theorem nil : Enacts [] (pure ()) := fun m _ _ => ⟨0, .refl m⟩

theorem append (first : Enacts cells effect) (second : Enacts more next) :
    Enacts (cells ++ more) (do effect; next) := by
  intro m running lies
  obtain ⟨front, back⟩ := lies_append.mp lies
  have arrives := first m running front
  rw [List.length_append, ← Nat.add_assoc]
  simp only [bind, EStateM.bind]
  cases result : effect m.world with
  | ok _ w =>
    rw [result] at arrives
    exact arrives.trans (second (m.moved w (m.counter + cells.length)) running back)
  | error kind w =>
    rw [result] at arrives
    exact arrives

theorem forM {α : Type} {code : α → List Cell} {each : α → World.Action Unit}
    (enacts : ∀ a, Enacts (code a) (each a)) (items : List α) :
    Enacts (items.flatMap code) (items.forM each) := by
  induction items with
  | nil => exact .nil
  | cons a items ih => exact (enacts a).append ih

end Enacts

variable (address : String → Nat)

theorem value_bind (e : Expr) (use : Cell → World.Action Unit) (w : World) :
    (World.value address e >>= use) w = match e.eval address w.memory with
      | .ok v => use v w
      | .error kind => .error kind w := by
  rw [World.value, bind_assoc, bind_get]
  cases e.eval address w.memory <;> rfl

/-- Code for a value and then for what is done with it. -/
theorem arrives_value (e : Expr) {m base : Machine} {use : Cell → World.Action Unit} {counter : Nat}
    (running : m.running = true) (lies : Lies m.code m.counter (e.code address))
    (onward : ∀ v, Arrives { m with stack := v :: m.stack, counter := m.counter + e.size }
      (base.after counter (use v m.world))) :
    m.Arrives (base.after counter ((World.value address e >>= use) m.world)) := by
  have first := e.arrives address running lies
  have memory : m.world.memory = m.memory := rfl
  rw [value_bind, memory]
  cases value : e.eval address m.memory with
  | ok v =>
    rw [value] at first
    exact first.trans (onward v)
  | error kind =>
    rw [value] at first
    exact first

theorem enacts_print (e : Expr) : Enacts (e.itemCode address) (World.print address e) := by
  intro m running lies
  obtain ⟨front, back⟩ := lies_append.mp lies
  rw [Expr.length_code] at back
  simp only [Expr.itemCode, List.length_append, Expr.length_code]
  exact arrives_value address e running front fun v => output_arrives running rfl back

theorem enacts_assign (target e : Expr) :
    Enacts (target.code address ++ e.code address ++ [.opcode .storeAt])
      (World.assign address target e) := by
  intro m running lies
  obtain ⟨front, back⟩ := lies_append.mp lies
  obtain ⟨front, middle⟩ := lies_append.mp front
  simp only [List.length_append, Expr.length_code, ← Nat.add_assoc] at middle back ⊢
  refine arrives_value address target running front fun place => ?_
  exact arrives_value address e
    (m := { m with stack := place :: m.stack, counter := m.counter + target.size }) running middle
    fun cell => storeAt_arrives running rfl back

theorem enacts_fill (target : Expr) :
    Enacts (target.targetCode address) (World.fill address target) := by
  intro m running lies
  obtain ⟨front, back⟩ := lies_append.mp lies
  simp only [Expr.targetCode, List.length_append, Expr.length_code, ← Nat.add_assoc] at back ⊢
  refine arrives_value address target running front fun place => ?_
  have read := input_arrives
    (m := { m with stack := place :: m.stack, counter := m.counter + target.size }) running back
  have world : world { m with stack := place :: m.stack, counter := m.counter + target.size } =
      m.world := rfl
  simp only [bind, EStateM.bind, world] at read ⊢
  cases line : World.readLine m.world with
  | ok text w =>
    rw [line] at read
    refine read.trans ?_
    exact storeAt_arrives running rfl back.2
  | error kind w =>
    rw [line] at read
    exact read

end Pushdown
