import Pushdown.Proofs.StackUse

/-! Steps that fault. An instruction takes its operands from the stack, looks at them, and only then does
anything that lasts. So a step that faults has taken two cells at most, and a line of input only if the line
itself was the fault; everything else is as it was, and the machine stands where it stood. -/
namespace Pushdown

theorem Opcode.pops_le (op : Opcode) : op.pops ≤ 2 := by cases op <;> decide

namespace Machine

variable {α β : Type} {p q : Nat}

/-- What is left of a machine when an action has failed. -/
structure Unwound (pops : Nat) (kind : FaultKind) (m m' : Machine) : Prop where
  code : m'.code = m.code
  initial : m'.initial = m.initial
  memory : m'.memory = m.memory
  counter : m'.counter = m.counter
  output : m'.output = m.output
  stack : ∃ taken, taken.length ≤ pops ∧ m.stack = taken ++ m'.stack
  input : m'.input = m.input ∨
    ∃ e, kind = .stream e ∧ m.input.pending = .error e :: m'.input.pending

theorem Unwound.mono {kind : FaultKind} {m m' : Machine} (unwound : Unwound p kind m m') (more : p ≤ q) :
    Unwound q kind m m' := by
  obtain ⟨taken, short, stack⟩ := unwound.stack
  exact { unwound with stack := ⟨taken, Nat.le_trans short more, stack⟩ }

theorem Unwound.refl (kind : FaultKind) (m : Machine) : Unwound p kind m m :=
  ⟨rfl, rfl, rfl, rfl, rfl, ⟨[], Nat.zero_le p, rfl⟩, .inl rfl⟩

/-- Actions that fail before they do anything but take a number of cells. -/
def Unwinds (pops : Nat) (act : Action α) : Prop :=
  ∀ m kind m', act m = .error kind m' → Unwound pops kind m m'

/-- Actions that do nothing but take a number of cells. -/
structure Takes (pops : Nat) (act : Action α) : Prop where
  done : ∀ m a m', act m = .ok a m' →
    ∃ taken rest, taken.length ≤ pops ∧ m.stack = taken ++ rest ∧ m' = { m with stack := rest }
  failed : Unwinds pops act

namespace Takes

theorem attempt (outcome : Except FaultKind α) : Takes 0 (attempt outcome) := by
  cases outcome with
  | ok a =>
    refine ⟨?_, ?_⟩
    · rintro m _ _ ⟨⟩
      exact ⟨[], m.stack, Nat.le_refl 0, rfl, rfl⟩
    · rintro m _ _ ⟨⟩
  | error kind =>
    refine ⟨?_, ?_⟩
    · rintro m _ _ ⟨⟩
    · rintro m _ _ ⟨⟩
      exact .refl kind m

theorem get : Takes 0 (get : Action Machine) := by
  refine ⟨?_, ?_⟩
  · rintro m _ _ ⟨⟩
    exact ⟨[], m.stack, Nat.le_refl 0, rfl, rfl⟩
  · rintro m _ _ ⟨⟩

theorem pop (op : Opcode) : Takes 1 (pop op) := by
  refine ⟨?_, ?_⟩
  · intro m cell m' done
    obtain ⟨rest, stack, rfl⟩ := pop_eq_ok done
    exact ⟨[cell], rest, Nat.le_refl 1, stack, rfl⟩
  · rintro ⟨code, initial, memory, stack, counter, running, input, output⟩ kind m' failed
    cases stack with
    | nil =>
      cases failed
      exact .refl _ _
    | cons cell rest => cases failed

end Takes

/-- Actions that never fail. -/
def Sure (act : Action α) : Prop := ∀ m kind m', act m ≠ .error kind m'

theorem sure_pure (a : α) : Sure (pure a) := by rintro m kind m' ⟨⟩

theorem sure_push (cell : Cell) : Sure (push cell) := by rintro m kind m' ⟨⟩

theorem sure_modify (f : Machine → Machine) : Sure (modify f) := by rintro m kind m' ⟨⟩

namespace Unwinds

theorem of_sure {act : Action α} (sure : Sure act) : Unwinds p act :=
  fun m kind m' failed => absurd failed (sure m kind m')

/-- First an action takes its cells, then the other takes from what is below. -/
theorem bind {act : Action α} {rest : α → Action β} (first : Takes p act)
    (second : ∀ a, Unwinds q (rest a)) : Unwinds (p + q) (act >>= rest) := by
  intro m kind m'' failed
  rcases bind_eq_error failed with failed | ⟨a, m', done, failed⟩
  · exact (first.failed m kind m'' failed).mono (Nat.le_add_right p q)
  · obtain ⟨taken, below, short, stack, rfl⟩ := first.done m a m' done
    have unwound := second a _ kind m'' failed
    obtain ⟨more, shortToo, stack'⟩ := unwound.stack
    refine { unwound with stack := ⟨taken ++ more, ?_, ?_⟩ }
    · rw [List.length_append]
      exact Nat.add_le_add short shortToo
    · rw [stack, List.append_assoc]
      exact congrArg (taken ++ ·) stack'

/-- Nothing that comes behind the action fails. -/
theorem andThen {act : Action α} {rest : α → Action β} (first : Unwinds p act)
    (sure : ∀ a, Sure (rest a)) : Unwinds p (act >>= rest) := by
  intro m kind m'' failed
  rcases bind_eq_error failed with failed | ⟨a, m', _, failed⟩
  · exact first m kind m'' failed
  · exact absurd failed (sure a m' kind m'')

theorem give (outcome : Except FaultKind Cell) :
    Unwinds 0 (do push (← Machine.attempt outcome)) :=
  .andThen (Takes.attempt outcome).failed sure_push

theorem fetch (place : Cell) : Unwinds 0 (fetch place) :=
  .bind (.attempt _) fun _ => .bind .get fun _ => .give _

theorem store (place cell : Cell) : Unwinds 0 (store place cell) := by
  refine Unwinds.bind (p := 0) (q := 0) (.attempt _) fun a => ?_
  refine Unwinds.bind (p := 0) (q := 0) .get fun m => ?_
  cases m.memory.refusal? a with
  | some error => exact (Takes.attempt (.error (.memory error))).failed
  | none => exact .of_sure (sure_modify _)

theorem combine (f : Cell → Cell → Except OperandError Cell) (l r : Cell) :
    Unwinds 0 (combine f l r) :=
  .give _

theorem binary (op : Opcode) (f : Cell → Cell → Except OperandError Cell) :
    Unwinds 2 (binary op f) :=
  .bind (.pop op) fun _ => .bind (.pop op) fun _ => .combine f _ _

theorem readLine : Unwinds 0 readLine := by
  rintro ⟨code, initial, memory, stack, counter, running, ⟨pending⟩, output⟩ kind m' failed
  rcases pending with _ | ⟨e | line, pending⟩
  · cases failed
    exact .refl _ _
  · cases failed
    exact ⟨rfl, rfl, rfl, rfl, rfl, ⟨[], Nat.le_refl 0, rfl⟩, .inr ⟨e, rfl, rfl⟩⟩
  · cases failed

theorem perform (op : Opcode) (operand : Cell) : Unwinds op.pops (perform op operand) := by
  cases op with
  | quit => exact .of_sure (sure_modify _)
  | literal => exact .of_sure (sure_push _)
  | load => exact .fetch _
  | store => exact .bind (.pop _) fun _ => .store _ _
  | loadAt => exact .bind (.pop _) fun _ => .fetch _
  | storeAt => exact .bind (.pop _) fun _ => .bind (.pop _) fun _ => .store _ _
  | add | sub | mul | div => exact .binary _ _
  | eq | lt | gt | ne | le | ge | and | or => exact .binary _ _
  | neg => exact .bind (.pop _) fun _ => .give _
  | not => exact .bind (q := 0) (.pop _) fun _ => .of_sure (sure_push _)
  | input => exact .andThen .readLine fun _ => sure_push _
  | output => exact .bind (q := 0) (.pop _) fun _ => .of_sure (sure_modify _)
  | increment | decrement => exact .bind (.pop _) fun _ => .combine _ _ _
  | jump | jumpTo | jumpUnless => exact .of_sure (sure_pure _)

theorem execute (i : Instruction) : Unwinds i.op.pops (execute i) := by
  obtain ⟨op, operand, next⟩ := i
  cases op with
  | jump => exact .bind (.pop _) fun _ => (Takes.attempt _).failed
  | jumpTo => exact (Takes.attempt _).failed
  | jumpUnless =>
    refine .bind (.pop _) fun target => .bind (q := 0) (.pop _) fun condition => ?_
    split
    · exact .of_sure (sure_pure _)
    · exact (Takes.attempt _).failed
  | _ => exact .andThen (.perform _ operand) fun _ => sure_pure _

theorem cycle : Unwinds 2 cycle := by
  refine Unwinds.bind (p := 0) (q := 2) .get fun m => ?_
  refine Unwinds.bind (p := 0) (q := 2) (.attempt _) fun i => ?_
  exact fun m kind m' failed => (Unwinds.execute i m kind m' failed).mono i.op.pops_le

end Unwinds

end Machine

open Machine

/-- A step that faults leaves the machine stopped where it stood. Up to two cells are gone from its stack, and
of its input at most the line that could not be read; all else is as before. -/
theorem faulting_step_only_takes {m m' : Machine} {f : Fault} (faulted : step m = .error f m') :
    f.counter = m.counter ∧ m'.counter = m.counter ∧ m'.running = false ∧
    m'.code = m.code ∧ m'.initial = m.initial ∧ m'.memory = m.memory ∧ m'.output = m.output ∧
    (m'.input = m.input ∨
      ∃ e, f.kind = .stream e ∧ m.input.pending = .error e :: m'.input.pending) ∧
    ∃ taken, taken.length ≤ 2 ∧ m.stack = taken ++ m'.stack := by
  unfold step at faulted
  split at faulted
  · dsimp only at faulted
    split at faulted
    · cases faulted
    · rename_i kind target failed
      cases faulted
      have unwound := Unwinds.cycle m kind target failed
      exact ⟨rfl, unwound.counter, rfl, unwound.code, unwound.initial, unwound.memory, unwound.output,
        unwound.input, unwound.stack⟩
  · cases faulted

/-- About to store at a negative number, with a further cell below the two operands. -/
def misplacedStore : Machine :=
  { load ⟨#[.opcode .storeAt], .ofCells #[.int 5]⟩ (.ofLines ["unread"]) (.printed #["1"]) with
    stack := [.int 7, .int (-3), .text "below"] }

theorem faulting_step_only_takes_misplacedStore :
    ∃ m', step misplacedStore = .error ⟨1, .invalidAddress (.int (-3))⟩ m' ∧
      m'.counter = 1 ∧ m'.running = false ∧ m'.memory = misplacedStore.memory ∧
      m'.output = misplacedStore.output ∧ m'.input = misplacedStore.input ∧
      m'.stack = [.text "below"] ∧
      ∃ taken, taken.length ≤ 2 ∧ misplacedStore.stack = taken ++ m'.stack := by
  have faulted : step misplacedStore = .error ⟨1, .invalidAddress (.int (-3))⟩
      { misplacedStore with stack := [.text "below"], running := false } := rfl
  obtain ⟨_, counter, running, _, _, memory, output, _, stack⟩ := faulting_step_only_takes faulted
  exact ⟨_, faulted, counter, running, memory, output, rfl, rfl, stack⟩

end Pushdown
