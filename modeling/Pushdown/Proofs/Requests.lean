import Pushdown.Proofs.Memory

/-! Memory as a bounded map. Whatever is asked of a memory, and whether it is granted or refused, an address up
to the length holds what was last stored there. If nothing was, it holds the cell that the memory began
with, and behind those it is unset. The length stays within the capacity and never shrinks. -/
namespace Pushdown

namespace Memory

/-- What can be asked of a memory. -/
inductive Request where
  | load (address : Nat)
  | store (address : Nat) (cell : Cell)
  | allocate (count : Nat)
  | setCapacity (capacity : Nat)

/-- What is done about a request, until it is granted or refused. -/
def serve : Request → Action Unit
  | .load address => do
    match (← get).load address with
    | .ok _ => pure ()
    | .error error => throw error
  | .store address cell => store address cell
  | .allocate count => do
    let _ ← allocate count
  | .setCapacity capacity => modify (·.setCapacity capacity)

/-- The memory that a step leaves, whether it succeeded or failed. -/
def left {α : Type} : EStateM.Result MemoryError Memory α → Memory
  | .ok _ m | .error _ m => m

/-- The memory after a request, whether it was granted or refused. -/
def next (m : Memory) (r : Request) : Memory := left (serve r m)

def after (m : Memory) (requests : List Request) : Memory := requests.foldl next m

/-- The cell that a request puts at an address, if it is a store there that is granted. -/
def stored? (m : Memory) (a : Nat) : Request → Option Cell
  | .store b cell =>
    match store b cell m with
    | .ok _ _ => if b = a then some cell else none
    | .error _ _ => none
  | _ => none

/-- The cells that requests put at an address, in order. -/
def storedAt (m : Memory) (a : Nat) : List Request → List Cell
  | [] => []
  | r :: rest => (m.stored? a r).toList ++ (m.next r).storedAt a rest

/-- The cell at an address, unset where there is none. -/
def cellAt (m : Memory) (a : Nat) : Cell := m.cells.getD (a - 1) .unset

variable {m : Memory} {a : Nat} {cell : Cell} {r : Request}

theorem store_eq_ok_iff {m' : Memory} :
    store a cell m = .ok () m' ↔ (0 < a ∧ a ≤ m.capacity) ∧ m' = m.put a cell := by
  rw [store_eq, ← refusal?_eq_none_iff]
  cases m.refusal? a with
  | some error => simp
  | none => simp [eq_comm]

theorem store_eq_error {error : MemoryError} {m' : Memory}
    (refused : store a cell m = .error error m') : m' = m := by
  rw [store_eq] at refused
  split at refused
  · cases refused
    rfl
  · cases refused

theorem allocate_eq_ok_iff {count : Nat} {m' : Memory} :
    allocate count m = .ok a m' ↔ m.cells.size + count ≤ m.capacity ∧ a = m.nextAddress ∧
      m' = { m with cells := m.cells ++ Array.replicate count .unset } := by
  rw [allocate_eq, ← Nat.not_lt]
  split
  · simp [*]
  · simp [*, eq_comm]

theorem allocate_eq_error {count : Nat} {error : MemoryError} {m' : Memory}
    (refused : allocate count m = .error error m') : m' = m := by
  rw [allocate_eq] at refused
  split at refused
  · cases refused
    rfl
  · cases refused

/-- All that serving a request can come to. -/
inductive Serves (m : Memory) : Request → EStateM.Result MemoryError Memory Unit → Prop
  | refused {r : Request} {error : MemoryError} (stored : ∀ a, m.stored? a r = none) :
    Serves m r (.error error m)
  | loaded {a : Nat} : Serves m (.load a) (.ok () m)
  | stored {a : Nat} {cell : Cell} (positive : 0 < a) (within : a ≤ m.capacity) :
    Serves m (.store a cell) (.ok () (m.put a cell))
  | extended {count : Nat} (fits : m.cells.size + count ≤ m.capacity) :
    Serves m (.allocate count) (.ok () { m with cells := m.cells ++ Array.replicate count .unset })
  | resized (capacity : Nat) : Serves m (.setCapacity capacity) (.ok () (m.setCapacity capacity))

theorem serve_serves (m : Memory) (r : Request) : Serves m r (serve r m) := by
  cases r with
  | load address =>
    change Serves m _ ((match m.load address with
      | .ok _ => pure ()
      | .error error => throw error : Action Unit) m)
    cases m.load address with
    | ok cell => exact .loaded
    | error e => exact .refused fun _ => rfl
  | store b cell =>
    cases served : store b cell m with
    | ok _ m' =>
      obtain ⟨⟨positive, within⟩, rfl⟩ := store_eq_ok_iff.mp served
      rw [serve, served]
      exact .stored positive within
    | error e m' =>
      obtain rfl := store_eq_error served
      rw [serve, served]
      exact .refused fun a => by simp only [stored?, served]
  | allocate count =>
    simp only [serve, bind, EStateM.bind]
    cases served : allocate count m with
    | ok address m' =>
      obtain ⟨fits, _, rfl⟩ := allocate_eq_ok_iff.mp served
      exact .extended fits
    | error e m' =>
      obtain rfl := allocate_eq_error served
      exact .refused fun _ => rfl
  | setCapacity capacity => exact .resized capacity

theorem cellAt_put {b : Nat} (positive : 0 < a) (other : 0 < b) :
    (m.put b cell).cellAt a = if b = a then cell else m.cellAt a := by
  simp only [cellAt, Array.getD_eq_getD_getElem?, getElem?_put m other]
  split
  · have same : b = a := by omega
    simp [same]
  · have different : b ≠ a := by omega
    simp only [different, if_false]
    split
    · rfl
    · rename_i outside
      rw [Array.getElem?_eq_none (Nat.le_of_not_lt outside)]
      split <;> rfl

theorem cellAt_extend {count : Nat} :
    cellAt { m with cells := m.cells ++ Array.replicate count .unset } a = m.cellAt a := by
  simp only [cellAt, Array.getD_eq_getD_getElem?]
  grind

namespace Serves

variable {result : EStateM.Result MemoryError Memory Unit}

theorem size_le (serves : Serves m r result) : m.cells.size ≤ (left result).cells.size := by
  cases serves with
  | refused | loaded | resized => exact Nat.le_refl _
  | stored =>
    simp only [left, size_put]
    exact Nat.le_max_left _ _
  | extended => simp [left]

theorem within (serves : Serves m r result) (before : m.cells.size ≤ m.capacity) :
    (left result).cells.size ≤ (left result).capacity := by
  cases serves with
  | refused | loaded => exact before
  | stored _ reached =>
    simp only [left, size_put]
    exact Nat.max_le.mpr ⟨before, reached⟩
  | extended fits => simpa [left] using fits
  | resized => exact Nat.le_max_right _ _

/-- At an address there is the cell that was put there, or else what was there before. -/
theorem cellAt_eq (serves : Serves m r result) (positive : 0 < a) :
    (left result).cellAt a = (m.stored? a r).getD (m.cellAt a) := by
  cases serves with
  | refused stored => rw [stored a, Option.getD_none, left]
  | loaded | resized => rfl
  | @stored b cell other reached =>
    simp only [left, cellAt_put positive other, stored?, store_granted other reached]
    split <;> rfl
  | extended => exact cellAt_extend

end Serves

theorem size_after (m : Memory) (history : List Request) :
    m.cells.size ≤ (m.after history).cells.size := by
  induction history generalizing m with
  | nil => exact Nat.le_refl _
  | cons r rest ih => exact Nat.le_trans (serve_serves m r).size_le (ih (m.next r))

theorem after_within (within : m.cells.size ≤ m.capacity) (history : List Request) :
    (m.after history).cells.size ≤ (m.after history).capacity := by
  induction history generalizing m with
  | nil => exact within
  | cons r rest ih => exact ih ((serve_serves m r).within within)

theorem cellAt_after (positive : 0 < a) (m : Memory) (history : List Request) :
    (m.after history).cellAt a = (m.storedAt a history).getLastD (m.cellAt a) := by
  induction history generalizing m with
  | nil => rfl
  | cons r rest ih =>
    have onward := ih (m.next r)
    have now : (m.next r).cellAt a = _ := (serve_serves m r).cellAt_eq positive
    rw [now] at onward
    refine onward.trans ?_
    rw [storedAt]
    cases m.stored? a r with
    | none => rfl
    | some cell => exact List.getLastD_cons.symm

theorem load_eq_ok_iff_cellAt :
    m.load a = .ok cell ↔ (1 ≤ a ∧ a ≤ m.cells.size) ∧ cell = m.cellAt a := by
  rw [load_eq_ok_iff, cellAt, Array.getD_eq_getD_getElem?]
  grind

/-- Memories as they are made: empty ones, and those with given cells. -/
inductive Made : Memory → Prop
  | withCapacity (capacity : Nat) : Made (withCapacity capacity)
  | ofCells (cells : Array Cell) : Made (ofCells cells)

theorem Made.within (made : m.Made) : m.cells.size ≤ m.capacity := by
  cases made with
  | withCapacity capacity => exact Nat.zero_le _
  | ofCells cells => exact Nat.le_max_right _ _

/-- The memory answers as the bounded map does that a history of requests made of a first memory. -/
structure Answers (first : Memory) (history : List Request) (m : Memory) : Prop where
  within : m.cells.size ≤ m.capacity
  grows : ∀ later, m.cells.size ≤ (m.after later).cells.size
  loads : ∀ a cell, m.load a = .ok cell ↔ (1 ≤ a ∧ a ≤ m.cells.size) ∧
    cell = (first.storedAt a history).getLastD (first.cells.getD (a - 1) .unset)
  stores : ∀ a cell, (∃ m', store a cell m = .ok () m') ↔ 1 ≤ a ∧ a ≤ m.capacity
  stored : ∀ a cell m', store a cell m = .ok () m' →
    m'.cells.size = max m.cells.size a ∧ m'.capacity = m.capacity
  allocates : ∀ count, (∃ a m', allocate count m = .ok a m') ↔ m.cells.size + count ≤ m.capacity
  allocated : ∀ count a m', allocate count m = .ok a m' → a = m.cells.size + 1 ∧
    m'.cells = m.cells ++ Array.replicate count .unset ∧ m'.capacity = m.capacity
  refused : ∀ r e m', serve r m = .error e m' → m' = m

end Memory

open Memory

/-- However a memory is made and whatever is then asked of it, its length stays within its capacity and never
shrinks. Loads reach the addresses up to the length and give what was last stored there, stores reach those
up to the capacity, cells are reserved behind the last one if they fit, and what is refused changes
nothing. -/
theorem memory_is_bounded_map {first : Memory} (made : first.Made) (history : List Request) :
    Answers first history (first.after history) := by
  generalize now : first.after history = m
  constructor
  case within => exact now ▸ after_within made.within history
  case grows => exact size_after m
  case loads =>
    intro a cell
    rw [load_eq_ok_iff_cellAt]
    refine and_congr_right fun reached => ?_
    rw [← now, cellAt_after reached.1, cellAt]
  case stores =>
    intro a cell
    constructor
    · rintro ⟨m', granted⟩
      exact (store_eq_ok_iff.mp granted).1
    · rintro ⟨positive, within⟩
      exact ⟨_, store_granted positive within⟩
  case stored =>
    intro a cell m' granted
    obtain ⟨_, rfl⟩ := store_eq_ok_iff.mp granted
    exact ⟨size_put m a cell, rfl⟩
  case allocates =>
    intro count
    constructor
    · rintro ⟨a, m', granted⟩
      exact (allocate_eq_ok_iff.mp granted).1
    · intro fits
      exact ⟨_, _, allocate_eq_ok_iff.mpr ⟨fits, rfl, rfl⟩⟩
  case allocated =>
    intro count a m' granted
    obtain ⟨_, rfl, rfl⟩ := allocate_eq_ok_iff.mp granted
    exact ⟨rfl, rfl, rfl⟩
  case refused =>
    intro r e m' error
    have serves := serve_serves m r
    rw [error] at serves
    cases serves with
    | refused => rfl

/-- Requests to a memory of two cells, whose capacity is first lowered to these and then raised to five. Three
are refused: stores behind the capacity and at no address, and a reservation that does not fit. -/
def mixedRequests : List Request :=
  [.setCapacity 1, .store 3 (.int 4), .setCapacity 5, .store 4 (.int 7), .store 0 .unset, .allocate 2,
   .allocate 1, .store 1 (.int 8), .store 4 (.text "four")]

theorem memory_is_bounded_map_mixedRequests :
    (Memory.ofCells #[.int 5, .int 6]).Made ∧
      Answers (.ofCells #[.int 5, .int 6]) mixedRequests
        (after (.ofCells #[.int 5, .int 6]) mixedRequests) ∧
      after (.ofCells #[.int 5, .int 6]) mixedRequests =
        ⟨#[.int 8, .int 6, .unset, .text "four", .unset], 5⟩ ∧
      storedAt (.ofCells #[.int 5, .int 6]) 4 mixedRequests = [.int 7, .text "four"] :=
  ⟨.ofCells _, memory_is_bounded_map (.ofCells _) mixedRequests, rfl, rfl⟩

end Pushdown
