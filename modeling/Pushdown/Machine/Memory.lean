import Pushdown.Machine.Cell

/-! Data memory. Its cells have the addresses from one on. A store behind the last cell makes the
memory grow, up to its capacity, and the cells in between are not set. -/
namespace Pushdown

inductive MemoryError where
  | outOfMemory
  | outOfRange (address : Nat)
deriving Repr, DecidableEq

def MemoryError.message : MemoryError → String
  | .outOfMemory => "Out of memory"
  | .outOfRange address => s!"Address {address} is out of range"

structure Memory where
  cells : Array Cell
  capacity : Nat

namespace Memory

def defaultCapacity : Nat := 65536

/-- An empty memory. -/
def withCapacity (capacity : Nat) : Memory := ⟨#[], capacity⟩

def empty : Memory := withCapacity defaultCapacity

instance : Inhabited Memory := ⟨empty⟩

/-- A memory with given cells, of default capacity unless there are more of them. -/
def ofCells (cells : Array Cell) : Memory := ⟨cells, max defaultCapacity cells.size⟩

/-- The capacity never falls below the number of cells. -/
def setCapacity (m : Memory) (capacity : Nat) : Memory :=
  { m with capacity := max capacity m.cells.size }

/-- The address that the next reservation starts at. -/
def nextAddress (m : Memory) : Nat := m.cells.size + 1

def load (m : Memory) (address : Nat) : Except MemoryError Cell :=
  if address = 0 then .error (.outOfRange address)
  else
    match m.cells[address - 1]? with
    | some cell => .ok cell
    | none => .error (.outOfRange address)

/-- The cells, with unset ones behind them up to the given number. -/
def padded (cells : Array Cell) (size : Nat) : Array Cell :=
  cells ++ Array.replicate (size - cells.size) .unset

/-- Why nothing can be stored at an address, if so. -/
def refusal? (m : Memory) (address : Nat) : Option MemoryError :=
  if address = 0 then some (.outOfRange address)
  else if m.capacity < address then some .outOfMemory
  else none

/-- The memory with a cell put at an address that is not refused. -/
def put (m : Memory) (address : Nat) (cell : Cell) : Memory :=
  { m with cells := (padded m.cells address).setIfInBounds (address - 1) cell }

/-- Steps on a memory that may fail and keep what was done until then. -/
abbrev Action := EStateM MemoryError Memory

def store (address : Nat) (cell : Cell) : Action Unit := do
  match (← get).refusal? address with
  | some error => throw error
  | none => modify (·.put address cell)

/-- Reserves unset cells behind the last one and gives the address of the first. -/
def allocate (count : Nat) : Action Nat := do
  let m ← get
  let address := m.nextAddress
  if m.capacity < m.cells.size + count then throw .outOfMemory
  else
    modify fun m => { m with cells := m.cells ++ Array.replicate count .unset }
    return address

/-- A step on the memory that a larger state holds, with the larger state's faults. -/
def inside {σ ε ε' α : Type} (view : σ → Memory) (update : σ → Memory → σ) (fault : ε → ε')
    (step : EStateM ε Memory α) : EStateM ε' σ α := fun s =>
  match step (view s) with
  | .ok a m => .ok a (update s m)
  | .error e m => .error (fault e) (update s m)

def render (m : Memory) : String := Cell.renderRow m.cells.toList

end Memory

end Pushdown
