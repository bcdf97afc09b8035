import Pushdown.Proofs.Stores

/-! How instructions use the stack. Every instruction that neither stops nor jumps takes a fixed number
of cells and gives a fixed number; if those it takes are there, it can only fail for what they are. -/
namespace Pushdown

/-- Faults of code that is no sequence of instructions or takes more than is on the stack. -/
def FaultKind.Malformed : FaultKind → Prop
  | .unknownOpcode _ | .outsideCode | .missingOperand _ | .emptyStack _ => True
  | _ => False

namespace Opcode

/-- Instructions that neither stop nor jump. -/
def straight : Opcode → Bool
  | .quit | .jump | .jumpTo | .jumpUnless => false
  | _ => true

/-- The number of cells that an instruction takes from the stack. -/
def pops : Opcode → Nat
  | .quit | .literal | .load | .input | .jumpTo => 0
  | .store | .loadAt | .neg | .not | .output | .increment | .decrement | .jump => 1
  | .storeAt | .add | .sub | .mul | .div | .eq | .lt | .gt | .ne | .le | .ge | .and | .or
  | .jumpUnless => 2

/-- The number of cells that an instruction gives to the stack. -/
def pushes : Opcode → Nat
  | .quit | .store | .storeAt | .output | .jump | .jumpTo | .jumpUnless => 0
  | _ => 1

end Opcode

namespace Machine

variable {α β : Type}

/-- Actions that take and give numbers of cells and leave the stack below alone. A failing one may
have taken some of them. -/
def Uses (pops pushes : Nat) (act : Action α) : Prop :=
  ∀ (m : Machine) (taken below : Stack Cell), m.stack = taken ++ below → taken.length = pops →
    match act m with
    | .ok _ m' => (∃ given, given.length = pushes ∧ m'.stack = given ++ below) ∧
        m'.counter = m.counter ∧ m'.running = m.running
    | .error kind m' => ¬ kind.Malformed ∧ m'.stack <:+ m.stack ∧ m'.counter = m.counter

namespace Uses

theorem pure (a : α) : Uses 0 0 (pure a) := by
  intro m taken below stack none
  exact ⟨⟨taken, none, stack⟩, rfl, rfl⟩

theorem fails {kind : FaultKind} (proper : ¬ kind.Malformed) :
    Uses 0 0 (throw kind : Action α) := by
  intro m taken below _ _
  exact ⟨proper, List.suffix_refl _, rfl⟩

theorem get : Uses 0 0 (get : Action Machine) := by
  intro m taken below stack none
  exact ⟨⟨taken, none, stack⟩, rfl, rfl⟩

theorem push (cell : Cell) : Uses 0 1 (push cell) := by
  intro m taken below stack none
  refine ⟨⟨[cell], rfl, ?_⟩, rfl, rfl⟩
  obtain rfl := List.length_eq_zero_iff.mp none
  exact congrArg (cell :: ·) stack

theorem pop (op : Opcode) : Uses 1 0 (pop op) := by
  intro m taken below stack one
  obtain ⟨cell, rfl⟩ := List.length_eq_one_iff.mp one
  rw [pop_eq stack]
  exact ⟨⟨[], rfl, rfl⟩, rfl, rfl⟩

/-- First one action takes its cells, then the other what is below. -/
theorem bind {p q k : Nat} {act : Action α} {rest : α → Action β} (first : Uses p 0 act)
    (second : ∀ a, Uses q k (rest a)) : Uses (p + q) k (act >>= rest) := by
  intro m taken below stack length
  have front : (taken.take p).length = p := by simp [length]
  have back : (taken.drop p).length = q := by simp [length]
  have split : m.stack = taken.take p ++ (taken.drop p ++ below) := by
    rw [← List.append_assoc, List.take_append_drop, stack]
  have firstUse := first m _ _ split front
  simp only [Bind.bind, EStateM.bind]
  cases done : act m with
  | error kind m' =>
    rw [done] at firstUse
    exact firstUse
  | ok a m' =>
    rw [done] at firstUse
    obtain ⟨⟨given, none, stack'⟩, counter, running⟩ := firstUse
    obtain rfl := List.length_eq_zero_iff.mp none
    have secondUse := second a m' (taken.drop p) below stack' back
    dsimp only
    cases done' : rest a m' with
    | error kind m'' =>
      rw [done'] at secondUse
      obtain ⟨proper, suffix, counter'⟩ := secondUse
      refine ⟨proper, suffix.trans ?_, counter'.trans counter⟩
      rw [split]
      exact stack' ▸ List.suffix_append _ _
    | ok b m'' =>
      rw [done'] at secondUse
      obtain ⟨given, counter', running'⟩ := secondUse
      exact ⟨given, counter'.trans counter, running'.trans running⟩

theorem attempt {outcome : Except FaultKind α}
    (proper : ∀ kind, outcome = .error kind → ¬ kind.Malformed) : Uses 0 0 (attempt outcome) := by
  cases outcome with
  | ok a => exact .pure a
  | error kind => exact .fails (proper kind rfl)

theorem attempt_operand (outcome : Except OperandError α) :
    Uses 0 0 (Machine.attempt (outcome.mapError .operand)) := by
  refine .attempt fun kind failed => ?_
  cases outcome <;> cases failed
  exact id

theorem attempt_memory (outcome : Except MemoryError α) :
    Uses 0 0 (Machine.attempt (outcome.mapError .memory)) := by
  refine .attempt fun kind failed => ?_
  cases outcome <;> cases failed
  exact id

theorem location (place : Cell) : Uses 0 0 (Machine.attempt (location place)) := by
  refine .attempt fun kind failed => ?_
  unfold Machine.location at failed
  split at failed
  · cases failed
  · split at failed <;> cases failed
    exact id
  · cases failed
    exact id

theorem fetch (place : Cell) : Uses 0 1 (fetch place) :=
  .bind (.location place) fun _ => .bind .get fun _ => .bind (.attempt_memory _) fun _ => .push _

theorem store (place cell : Cell) : Uses 0 0 (store place cell) := by
  refine Uses.bind (p := 0) (q := 0) (.location place) fun a => ?_
  refine Uses.bind (p := 0) (q := 0) .get fun m => ?_
  cases m.memory.refusal? a with
  | some error => exact .fails id
  | none =>
    intro m taken below stack none
    exact ⟨⟨taken, none, stack⟩, rfl, rfl⟩

theorem combine (f : Cell → Cell → Except OperandError Cell) (l r : Cell) : Uses 0 1 (combine f l r) :=
  .bind (.attempt_operand _) fun _ => .push _

theorem binary (op : Opcode) (f : Cell → Cell → Except OperandError Cell) : Uses 2 1 (binary op f) :=
  .bind (.pop op) fun _ => .bind (.pop op) fun _ => .combine f _ _

theorem readLine : Uses 0 0 readLine := by
  rintro ⟨code, initial, memory, stack, counter, running, ⟨pending⟩, output⟩ taken below same none
  rcases pending with _ | ⟨_ | line, pending⟩
  · exact ⟨id, List.suffix_refl _, rfl⟩
  · exact ⟨id, List.suffix_refl _, rfl⟩
  · exact ⟨⟨taken, none, same⟩, rfl, rfl⟩

theorem perform {op : Opcode} (operand : Cell) (straight : op.straight = true) :
    Uses op.pops op.pushes (perform op operand) := by
  cases op with
  | quit | jump | jumpTo | jumpUnless => cases straight
  | literal => exact .push _
  | load => exact .fetch _
  | store => exact .bind (.pop _) fun _ => .store _ _
  | loadAt => exact .bind (.pop _) fun _ => .fetch _
  | storeAt => exact .bind (.pop _) fun _ => .bind (.pop _) fun _ => .store _ _
  | add | sub | mul | div => exact .binary _ _
  | eq | lt | gt | ne | le | ge | and | or => exact .binary _ _
  | neg => exact .bind (.pop _) fun _ => .bind (.attempt_operand _) fun _ => .push _
  | not => exact .bind (.pop _) fun _ => .push _
  | input => exact .bind .readLine fun _ => .push _
  | output =>
    have write (cell : Cell) : Uses 0 0 (modify fun m => { m with output := m.output.write cell }) := by
      intro m taken below stack none
      exact ⟨⟨taken, none, stack⟩, rfl, rfl⟩
    exact .bind (.pop _) write
  | increment | decrement => exact .bind (.pop _) fun _ => .combine _ _ _

end Uses

end Machine

end Pushdown
