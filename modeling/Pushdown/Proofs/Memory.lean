import Pushdown.Machine.Memory

/-! Laws of data memory: what is read back after a store, and what reserving cells leaves as it was. -/
namespace Pushdown.Memory

variable {m : Memory} {a b : Nat} {c cell : Cell}

theorem load_eq_ok_iff : m.load a = .ok c ↔ 0 < a ∧ m.cells[a - 1]? = some c := by
  unfold load
  split
  · simp_all
  · have positive : 0 < a := by omega
    split <;> simp_all

theorem refusal?_eq_none_iff : m.refusal? a = none ↔ 0 < a ∧ a ≤ m.capacity := by
  unfold refusal?
  grind

theorem store_eq (m : Memory) (a : Nat) (cell : Cell) :
    store a cell m =
      match m.refusal? a with
      | some error => .error error m
      | none => .ok () (m.put a cell) := by
  change (match m.refusal? a with
    | some error => throw error
    | none => modify (·.put a cell) : Action Unit) m = _
  cases m.refusal? a <;> rfl

theorem store_granted (positive : 0 < a) (within : a ≤ m.capacity) :
    store a cell m = .ok () (m.put a cell) := by
  rw [store_eq, refusal?_eq_none_iff.mpr ⟨positive, within⟩]

theorem allocate_eq (m : Memory) (count : Nat) :
    allocate count m =
      if m.capacity < m.cells.size + count then .error .outOfMemory m
      else .ok m.nextAddress { m with cells := m.cells ++ Array.replicate count .unset } := by
  change (if m.capacity < m.cells.size + count then throw .outOfMemory
    else do
      modify fun m => { m with cells := m.cells ++ Array.replicate count .unset }
      return m.nextAddress : Action Nat) m = _
  split <;> rfl

theorem size_put (m : Memory) (a : Nat) (cell : Cell) :
    (m.put a cell).cells.size = max m.cells.size a := by
  simp only [put, padded, Array.size_setIfInBounds, Array.size_append, Array.size_replicate]
  omega

theorem getElem?_put (m : Memory) {a : Nat} (positive : 0 < a) (cell : Cell) (i : Nat) :
    (m.put a cell).cells[i]? =
      if i + 1 = a then some cell
      else if i < m.cells.size then m.cells[i]?
      else if i < a then some .unset else none := by
  simp only [put, padded]
  grind

theorem load_put (accepted : m.refusal? a = none) : (m.put a cell).load a = .ok cell := by
  obtain ⟨positive, _⟩ := refusal?_eq_none_iff.mp accepted
  refine load_eq_ok_iff.mpr ⟨positive, ?_⟩
  simp only [put, padded]
  grind

theorem load_put_of_ne (other : b ≠ a) (positive : 0 < a) (loaded : m.load b = .ok c) :
    (m.put a cell).load b = .ok c := by
  obtain ⟨positiveB, present⟩ := load_eq_ok_iff.mp loaded
  refine load_eq_ok_iff.mpr ⟨positiveB, ?_⟩
  simp only [put, padded]
  grind

theorem load_extend {more : Array Cell} (loaded : m.load a = .ok c) :
    ({ m with cells := m.cells ++ more } : Memory).load a = .ok c := by
  obtain ⟨positive, present⟩ := load_eq_ok_iff.mp loaded
  refine load_eq_ok_iff.mpr ⟨positive, ?_⟩
  grind

/-- A put changes one cell, and what it adds before that is unset. -/
theorem load_of_put (other : b ≠ a) (positive : 0 < a) (loaded : (m.put a cell).load b = .ok c) :
    c = .unset ∨ m.load b = .ok c := by
  obtain ⟨positiveB, present⟩ := load_eq_ok_iff.mp loaded
  rw [load_eq_ok_iff]
  simp only [put, padded] at present
  grind

theorem load_of_extend {count : Nat}
    (loaded : ({ m with cells := m.cells ++ Array.replicate count .unset } : Memory).load a = .ok c) :
    c = .unset ∨ m.load a = .ok c := by
  obtain ⟨positive, present⟩ := load_eq_ok_iff.mp loaded
  rw [load_eq_ok_iff]
  grind

end Pushdown.Memory
