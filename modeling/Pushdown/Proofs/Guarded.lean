import Mathlib
import Pushdown.Machine.Trace
import Pushdown.Proofs.Addresses
import Pushdown.Proofs.Memory

/-! Computations under guard. Machine and emitter count in 64-bit words and look into memory by index, mostly
without a test on the spot. Here every such computation stands behind a guard, and is an overrun if a sum
is no word, a difference is negative, an index is not below the length, or the counter is not in the code
where places behind it are counted. The tests that are made anyway leave no room for this: guarded or not,
machine and emitter do the same in every state that they can come to. -/
namespace Pushdown

variable {α β ε ε' σ : Type}

/-- How a computation under guard fails. -/
inductive Halt (ε : Type) where
  /-- Something went out of range. -/
  | overrun
  /-- The computation failed by itself. -/
  | error (e : ε)

def Halt.map (f : ε → ε') : Halt ε → Halt ε'
  | .overrun => .overrun
  | .error e => .error (f e)

namespace Guarded

/-- A value that must not be computed unless a condition holds. -/
def given (condition : Prop) [Decidable condition] (value : α) : Except (Halt ε) α :=
  if condition then .ok value else .error .overrun

def sum (a b : Nat) : Except (Halt ε) Nat := given (a + b < 2 ^ 64) (a + b)

def difference (a b : Nat) : Except (Halt ε) Nat := given (b ≤ a) (a - b)

def element (xs : Array α) (i : Nat) : Except (Halt ε) α :=
  match xs[i]? with
  | some x => .ok x
  | none => .error .overrun

def replaced (xs : Array α) (i : Nat) (x : α) : Except (Halt ε) (Array α) :=
  given (i < xs.size) (xs.setIfInBounds i x)

/-- The word before a word. Before zero there is the greatest. -/
def wordBefore (n : Nat) : Nat := (n + (2 ^ 64 - 1)) % 2 ^ 64

/-- The outcome of a computation as an action. -/
def outcome : Except (Halt ε) α → EStateM (Halt ε) σ α
  | .ok a => pure a
  | .error e => throw e

/-- An action that computes nothing under guard. -/
def plain (act : EStateM ε σ α) : EStateM (Halt ε) σ α := act.adaptExcept .error

theorem given_of_holds {condition : Prop} [Decidable condition] (holds : condition) (value : α) :
    given condition value = (.ok value : Except (Halt ε) α) := if_pos holds

theorem sum_of_lt {a b : Nat} (word : a + b < 2 ^ 64) : sum a b = (.ok (a + b) : Except (Halt ε) Nat) :=
  given_of_holds word _

theorem difference_of_le {a b : Nat} (le : b ≤ a) :
    difference a b = (.ok (a - b) : Except (Halt ε) Nat) :=
  given_of_holds le _

theorem replaced_of_lt {xs : Array α} {i : Nat} (inside : i < xs.size) (x : α) :
    replaced xs i x = (.ok (xs.setIfInBounds i x) : Except (Halt ε) (Array α)) :=
  given_of_holds inside _

theorem wordBefore_zero : wordBefore 0 = 2 ^ 64 - 1 := by
  unfold wordBefore
  omega

theorem wordBefore_succ {n : Nat} (word : n + 1 < 2 ^ 64) : wordBefore (n + 1) = n := by
  unfold wordBefore
  omega

theorem plain_bind (act : EStateM ε σ α) (rest : α → EStateM ε σ β) :
    plain (act >>= rest) = plain act >>= fun a => plain (rest a) := by
  funext s
  simp only [plain, Bind.bind, EStateM.bind, EStateM.adaptExcept]
  cases act s <;> rfl

/-- One action behind another, each under guard. -/
theorem eq_plain_bind {act : EStateM ε σ α} {rest : α → EStateM ε σ β}
    {guardedAct : EStateM (Halt ε) σ α} {guardedRest : α → EStateM (Halt ε) σ β} {s : σ}
    (first : guardedAct s = plain act s)
    (second : ∀ a s', act s = .ok a s' → guardedRest a s' = plain (rest a) s') :
    (guardedAct >>= guardedRest) s = plain (act >>= rest) s := by
  rw [plain_bind]
  simp only [Bind.bind, EStateM.bind, first, plain, EStateM.adaptExcept]
  cases done : act s with
  | ok a s' => exact second a s' done
  | error e s' => rfl

theorem mapError_map (f : ε → ε') (x : Except ε α) :
    (x.mapError Halt.error).mapError (Halt.map f) = (x.mapError f).mapError .error := by
  cases x <;> rfl

end Guarded

open Guarded

namespace Memory

/-- The index of an address, which is tested first. -/
def guardedIndex (m : Memory) (address : Nat) : Except (Halt MemoryError) Nat :=
  if address = 0 ∨ m.cells.size < address then .error (.error (.outOfRange address))
  else difference address 1

def guardedLoad (m : Memory) (address : Nat) : Except (Halt MemoryError) Cell := do
  element m.cells (← m.guardedIndex address)

/-- Steps on a memory under guard. -/
abbrev GuardedAction := EStateM (Halt MemoryError) Memory

def guardedStore (address : Nat) (cell : Cell) : GuardedAction Unit := do
  match (← get).refusal? address with
  | some error => throw (.error error)
  | none =>
    modify fun m =>
      { m with cells := if m.cells.size < address then padded m.cells address else m.cells }
    let index ← outcome (difference address 1)
    let cells ← outcome (replaced (← get).cells index cell)
    modify fun m => { m with cells := cells }

def guardedAllocate (count : Nat) : GuardedAction Nat := do
  let m ← get
  let address ← outcome (sum m.cells.size 1)
  if m.capacity < (← outcome (sum m.cells.size count)) then throw (.error .outOfMemory)
  else
    modify fun m => { m with cells := m.cells ++ Array.replicate count .unset }
    return address

variable (m : Memory)

theorem guardedLoad_eq (address : Nat) :
    m.guardedLoad address = (m.load address).mapError .error := by
  unfold guardedLoad guardedIndex load
  by_cases zero : address = 0
  · rw [if_pos (.inl zero), if_pos zero]
    rfl
  · by_cases beyond : m.cells.size < address
    · have absent : m.cells[address - 1]? = none := Array.getElem?_eq_none (by omega)
      rw [if_pos (.inr beyond), if_neg zero, absent]
      rfl
    · have inside : address - 1 < m.cells.size := by omega
      rw [if_neg (not_or.mpr ⟨zero, beyond⟩), if_neg zero, difference_of_le (by omega)]
      simp only [bind, Except.bind, element, Array.getElem?_eq_getElem inside]
      rfl

theorem guardedStore_eq (address : Nat) (cell : Cell) :
    guardedStore address cell m = plain (store address cell) m := by
  rw [plain, EStateM.adaptExcept, store_eq, guardedStore, bind_get]
  cases refused : m.refusal? address with
  | some error => rfl
  | none =>
    obtain ⟨positive, _⟩ := refusal?_eq_none_iff.mp refused
    have grown : (if m.cells.size < address then padded m.cells address else m.cells) =
        padded m.cells address := by
      split
      · rfl
      · have enough : address - m.cells.size = 0 := by omega
        rw [padded, enough, Array.replicate_zero, Array.append_empty]
    have inside : address - 1 < (padded m.cells address).size := by
      rw [padded, Array.size_append, Array.size_replicate]
      omega
    rw [difference_of_le positive]
    -- The memory has grown by now, so that the address is inside.
    change (do
      let cells ← outcome (replaced (ite _ _ _) (address - 1) cell)
      modify fun m => { m with cells := cells } : GuardedAction Unit) { m with cells := ite _ _ _ } = _
    rw [grown, replaced_of_lt inside]
    rfl

theorem guardedAllocate_eq {count : Nat} (next : m.cells.size + 1 < 2 ^ 64)
    (total : m.cells.size + count < 2 ^ 64) :
    guardedAllocate count m = plain (allocate count) m := by
  rw [plain, EStateM.adaptExcept, allocate_eq, guardedAllocate, bind_get, sum_of_lt next,
    sum_of_lt total]
  simp only [outcome, pure_bind]
  split <;> rfl

-- The guard is not idle: a memory of one cell and the greatest word are too much together.
example : guardedAllocate 18446744073709551615 (ofCells #[.unset]) =
    .error .overrun (ofCells #[.unset]) := by cbv

end Memory

namespace Machine

/-- The number behind one that belongs to the instruction at the counter. It must not be counted unless the
counter is at a place of the code. -/
def behind (code : Array Cell) (counter number : Nat) : Except (Halt ε) Nat := do
  let _ ← given (1 ≤ counter ∧ counter ≤ code.size) ()
  sum number 1

def guardedDecode (code : Array Cell) (counter : Nat) : Except (Halt FaultKind) Instruction :=
  match Program.fetch? code counter with
  | none => .error (.error .outsideCode)
  | some (.opcode op) => do
    let next ← behind code counter counter
    if op.hasOperand then
      match Program.fetch? code next with
      | none => .error (.error (.missingOperand op))
      | some operand => return ⟨op, operand, ← behind code counter next⟩
    else return ⟨op, .unset, next⟩
  | some cell => .error (.error (.unknownOpcode cell))

/-- The instruction at an index, for the counter. -/
def guardedAt (code : Array Cell) (counter index : Nat) : Except (Halt FaultKind) String :=
  match code[index]? with
  | some (.opcode op) =>
    if op.hasOperand then do
      match code[← behind code counter index]? with
      | some operand => return s!"{op.mnemonic}  {operand.render}"
      | none => return op.mnemonic
    else return op.mnemonic
  | some cell => return cell.render
  | none => return "?"

/-- The instruction that a trace shows. Its index is found from the counter without a test. -/
def guardedUpcoming (m : Machine) : Except (Halt FaultKind) String :=
  guardedAt m.code m.counter (wordBefore m.counter)

/-- Actions of the machine under guard. -/
abbrev GuardedAction := EStateM (Halt FaultKind) Machine

def guardedFetch (place : Cell) : GuardedAction Unit := do
  let address ← plain (attempt (location place))
  let cell ← outcome (((← get).memory.guardedLoad address).mapError (.map .memory))
  plain (push cell)

def guardedStore (place cell : Cell) : GuardedAction Unit := do
  let address ← plain (attempt (location place))
  Memory.inside Machine.memory (fun m memory => { m with memory := memory }) (.map .memory)
    (Memory.guardedStore address cell)

def guardedPerform (op : Opcode) (operand : Cell) : GuardedAction Unit :=
  match op with
  | .load => guardedFetch operand
  | .store => do guardedStore operand (← plain (pop op))
  | .loadAt => do guardedFetch (← plain (pop op))
  | .storeAt => do
    let cell ← plain (pop op)
    guardedStore (← plain (pop op)) cell
  | op => plain (perform op operand)

def guardedExecute (i : Instruction) : GuardedAction Nat :=
  match i.op with
  | .jump | .jumpTo | .jumpUnless => plain (execute i)
  | op => do
    guardedPerform op i.operand
    return i.next

def guardedCycle : GuardedAction Nat := do
  let m ← get
  guardedExecute (← outcome (guardedDecode m.code m.counter))

def guardedStep : EStateM (Halt Fault) Machine Unit := fun m =>
  if m.running then
    let counter := m.counter
    match guardedCycle m with
    | .ok next m => .ok () { m with counter := next }
    | .error e m => .error (e.map (Fault.mk counter)) { m with running := false }
  else .ok () m

theorem behind_eq {code : Array Cell} {counter number : Nat} (inside : 1 ≤ counter ∧ counter ≤ code.size)
    (word : number + 1 < 2 ^ 64) :
    behind code counter number = (.ok (number + 1) : Except (Halt ε) Nat) := by
  rw [behind, given_of_holds inside]
  exact sum_of_lt word

theorem guardedDecode_eq {code : Array Cell} (short : code.size < 2 ^ 63) (counter : Nat) :
    guardedDecode code counter = (decode code counter).mapError .error := by
  unfold guardedDecode decode
  cases here : Program.fetch? code counter with
  | none => rfl
  | some cell =>
    have inside := Program.fetch?_bounds here
    cases cell with
    | int | real | text | address | unset => rfl
    | opcode op =>
      have next : behind code counter counter = (.ok (counter + 1) : Except (Halt FaultKind) Nat) :=
        behind_eq inside (by omega)
      simp only [next, bind, Except.bind]
      split
      · cases after : Program.fetch? code (counter + 1) with
        | none => rfl
        | some operand =>
          -- The operand is in the code, so the place behind it is a word as well.
          have further := (Program.fetch?_bounds after).2
          simp only [behind_eq inside (by omega : counter + 1 + 1 < 2 ^ 64)]
          rfl
      · rfl

theorem guardedUpcoming_eq {m : Machine} (short : m.code.size < 2 ^ 63) (word : m.counter < 2 ^ 64) :
    m.guardedUpcoming = .ok m.upcoming := by
  unfold guardedUpcoming upcoming
  cases counter : m.counter with
  | zero =>
    have absent : m.code[2 ^ 64 - 1]? = none := Array.getElem?_eq_none (by omega)
    rw [wordBefore_zero, guardedAt, absent]
    rfl
  | succ index =>
    have first : Program.fetch? m.code (index + 1) = m.code[index]? := by
      simp [Program.fetch?]
    have second : Program.fetch? m.code (index + 1 + 1) = m.code[index + 1]? := by
      simp [Program.fetch?]
    rw [counter] at word
    rw [wordBefore_succ word, guardedAt, first, second]
    cases found : m.code[index]? with
    | none => rfl
    | some cell =>
      obtain ⟨inside, _⟩ := Array.getElem?_eq_some_iff.mp found
      cases cell with
      | int | real | text | address | unset => rfl
      | opcode op =>
        have next : behind m.code (index + 1) index = (.ok (index + 1) : Except (Halt FaultKind) Nat) :=
          behind_eq ⟨by omega, by omega⟩ (by omega)
        simp only [next, bind, Except.bind]
        cases m.code[index + 1]? with
        | none => split <;> rfl
        | some operand => split <;> rfl

theorem outcome_mapError (x : Except FaultKind α) : outcome (x.mapError .error) = plain (attempt x) := by
  cases x <;> rfl

theorem guardedFetch_eq (place : Cell) : guardedFetch place = plain (fetch place) := by
  rw [fetch, plain_bind]
  refine congrArg _ (funext fun address => funext fun m => ?_)
  rw [bind_get, Memory.guardedLoad_eq, mapError_map, outcome_mapError, ← plain_bind]
  rfl

theorem guardedStore_eq (place cell : Cell) : guardedStore place cell = plain (store place cell) := by
  rw [store, plain_bind]
  refine congrArg _ (funext fun address => funext fun m => ?_)
  rw [Memory.inside, Memory.guardedStore_eq]
  simp only [plain, EStateM.adaptExcept, bind_get, Memory.store_eq]
  cases m.memory.refusal? address <;> rfl

theorem guardedPerform_eq (op : Opcode) (operand : Cell) :
    guardedPerform op operand = plain (perform op operand) := by
  cases op with
  | load => exact guardedFetch_eq operand
  | loadAt => simp only [guardedPerform, perform, plain_bind, guardedFetch_eq]
  | store | storeAt => simp only [guardedPerform, perform, plain_bind, guardedStore_eq]
  | _ => rfl

theorem guardedExecute_eq (i : Instruction) : guardedExecute i = plain (execute i) := by
  obtain ⟨op, operand, next⟩ := i
  cases op with
  | jump | jumpTo | jumpUnless => rfl
  | _ =>
    simp only [guardedExecute, execute, plain_bind, guardedPerform_eq]
    rfl

/-- A step, with every computation under guard. -/
theorem InWords.guardedStep_eq {m : Machine} (words : m.InWords) : guardedStep m = plain step m := by
  have cycled : guardedCycle m = plain cycle m := by
    rw [guardedCycle, bind_get, guardedDecode_eq words.code_size, outcome_mapError]
    simp only [guardedExecute_eq, ← plain_bind]
    rfl
  simp only [guardedStep, cycled, plain, EStateM.adaptExcept, step]
  cases m.running with
  | false => rfl
  | true => cases cycle m <;> rfl

end Machine

end Pushdown
