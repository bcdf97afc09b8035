import Mathlib
import Pushdown.Proofs.Arena

/-! Numbers of the nodes of a tree. Each node but the root gets its number as a child of one node, whose own
number is smaller; and under the numbers that are listed for a node its children are found. -/
namespace Pushdown.Tree

theorem size_eq (t : Tree) : t.size = sizeAll t.children + 1 := by
  obtain ⟨symbol, value, trees⟩ := t
  rfl

theorem size_pos (t : Tree) : 0 < t.size := by
  obtain ⟨symbol, value, below⟩ := t
  exact Nat.succ_pos _

theorem size_lt_of_mem_children {t child : Tree} (member : child ∈ t.children) :
    child.size < t.size := by
  obtain ⟨symbol, value, trees⟩ := t
  obtain ⟨before, after, rfl⟩ := List.append_of_mem member
  rw [size, sizeAll_append, sizeAll]
  omega

mutual

theorem length_rowsBelow (next : Nat) (t : Tree) : (rowsBelow next t).length = t.size - 1 := by
  obtain ⟨symbol, value, below⟩ := t
  have bound := length_le_sizeAll below
  rw [rowsBelow, List.length_append, length_siblings, length_rowsBelowAll, size]
  omega

theorem length_rowsBelowAll (next : Nat) (forest : List Tree) :
    (rowsBelowAll next forest).length = sizeAll forest - forest.length := by
  cases forest with
  | nil => rfl
  | cons tree forest =>
    have bound := length_le_sizeAll forest
    have positive := size_pos tree
    rw [rowsBelowAll, List.length_append, length_rowsBelow, length_rowsBelowAll, sizeAll,
      List.length_cons]
    omega

end

mutual

/-- Below a node every number is given out once. -/
theorem perm_rowsBelow (next : Nat) (t : Tree) :
    (List.range' next t.children.length ++ (rowsBelow next t).flatMap Row.children).Perm
      (List.range' next (t.size - 1)) := by
  obtain ⟨symbol, value, below⟩ := t
  have bound := length_le_sizeAll below
  have inner := (perm_rowsBelowAll (next + below.length) below).append_left
    (List.range' next below.length)
  rw [List.range'_append_1, Nat.add_sub_cancel' bound] at inner
  simpa [rowsBelow, size, children] using inner

theorem perm_rowsBelowAll (next : Nat) (forest : List Tree) :
    ((siblings next forest).flatMap Row.children ++
      (rowsBelowAll next forest).flatMap Row.children).Perm
        (List.range' next (sizeAll forest - forest.length)) := by
  cases forest with
  | nil => exact .nil
  | cons tree forest =>
    have first := perm_rowsBelow next tree
    have later := perm_rowsBelowAll (next + (tree.size - 1)) forest
    have count : tree.size - 1 + (sizeAll forest - forest.length) =
        sizeAll (tree :: forest) - (tree :: forest).length := by
      have bound := length_le_sizeAll forest
      have positive := size_pos tree
      rw [sizeAll, List.length_cons]
      omega
    rw [← count, ← List.range'_append_1]
    refine List.Perm.trans ?_ (first.append later)
    simp only [siblings, rowsBelowAll, List.flatMap_cons, List.flatMap_append, List.append_assoc]
    exact (List.perm_append_comm_assoc ..).append_left _

end

theorem le_of_mem_siblings {next : Nat} {forest : List Tree} {r : Row} {child : Nat}
    (row : r ∈ siblings next forest) (below : child ∈ r.children) : next ≤ child := by
  induction forest generalizing next with
  | nil => cases row
  | cons tree forest ih =>
    rcases List.mem_cons.mp row with rfl | later
    · exact (List.mem_range'_1.mp below).1
    · have after := ih later
      omega

mutual

/-- A node below another one has a smaller number than its children. -/
theorem lt_of_rowsBelow (next : Nat) (t : Tree) {i child : Nat} {r : Row}
    (row : (rowsBelow next t)[i]? = some r) (below : child ∈ r.children) : next + i < child := by
  obtain ⟨symbol, value, trees⟩ := t
  rw [rowsBelow] at row
  rcases Nat.lt_or_ge i trees.length with here | deeper
  · rw [List.getElem?_append_left (by rwa [length_siblings])] at row
    have after := le_of_mem_siblings (List.mem_of_getElem? row) below
    omega
  · rw [List.getElem?_append_right (by rwa [length_siblings]), length_siblings] at row
    have after := lt_of_rowsBelowAll _ trees row below
    omega

theorem lt_of_rowsBelowAll (next : Nat) (forest : List Tree) {i child : Nat} {r : Row}
    (row : (rowsBelowAll next forest)[i]? = some r) (below : child ∈ r.children) :
    next + i < child := by
  cases forest with
  | nil => cases row
  | cons tree forest =>
    rw [rowsBelowAll] at row
    rcases Nat.lt_or_ge i (tree.size - 1) with here | later
    · rw [List.getElem?_append_left (by rwa [length_rowsBelow])] at row
      exact lt_of_rowsBelow next tree row below
    · rw [List.getElem?_append_right (by rwa [length_rowsBelow]), length_rowsBelow] at row
      have after := lt_of_rowsBelowAll _ forest row below
      omega

end

theorem length_table (t : Tree) : t.table.length = t.size := by
  have positive := size_pos t
  rw [table, List.length_cons, length_rowsBelow]
  omega

/-- Every number but that of the root is given out once. -/
theorem perm_table (t : Tree) :
    (t.table.flatMap Row.children).Perm (List.range' 1 (t.size - 1)) :=
  perm_rowsBelow 1 t

theorem nodup_table (t : Tree) : (t.table.flatMap Row.children).Nodup :=
  (perm_table t).nodup_iff.mpr List.nodup_range'

/-- No number stands among the children of two rows. -/
theorem parent_unique {t : Tree} {child p q : Nat} {r r' : Row} (row : t.table[p]? = some r)
    (row' : t.table[q]? = some r') (below : child ∈ r.children) (below' : child ∈ r'.children) :
    p = q := by
  have apart := List.pairwise_iff_getElem.mp (List.nodup_flatMap.mp (nodup_table t)).2
  obtain ⟨first, rfl⟩ := List.getElem?_eq_some_iff.mp row
  obtain ⟨second, rfl⟩ := List.getElem?_eq_some_iff.mp row'
  rcases Nat.lt_trichotomy p q with before | same | behind
  · exact absurd below' (apart p q first second before below)
  · exact same
  · exact absurd below (apart q p second first behind below')

theorem lt_of_table {t : Tree} {parent child : Nat} {r : Row} (row : t.table[parent]? = some r)
    (below : child ∈ r.children) : parent < child := by
  cases parent with
  | zero =>
    cases row
    exact (List.mem_range'_1.mp below).1
  | succ i =>
    have after := lt_of_rowsBelow 1 t row below
    omega

/-- Some numbers are those of rows with some trees. -/
def Finds (rows : List Row) : List Nat → List Tree → Prop :=
  List.Forall₂ fun i t => rows[i]?.map Row.tree = some t

theorem finds_siblings (before after : List Row) (next : Nat) (forest : List Tree) :
    Finds (before ++ (siblings next forest ++ after)) (List.range' before.length forest.length)
      forest := by
  induction forest generalizing before next with
  | nil => exact .nil
  | cons tree forest ih =>
    have onward := ih (before ++ [⟨tree, List.range' next tree.children.length⟩])
      (next + (tree.size - 1))
    rw [List.append_assoc, List.length_append] at onward
    refine List.Forall₂.cons ?_ onward
    simp [siblings]

mutual

/-- Where the rows below a node stand in their places, its children are found, and those of the nodes
below it. -/
theorem finds_rowsBelow {rows before after : List Row} {next : Nat} (t : Tree)
    (length : before.length = next) (whole : rows = before ++ (rowsBelow next t ++ after)) :
    Finds rows (List.range' next t.children.length) t.children ∧
      ∀ r ∈ rowsBelow next t, Finds rows r.children r.tree.children := by
  obtain ⟨symbol, value, trees⟩ := t
  rw [rowsBelow, List.append_assoc] at whole
  have own := finds_siblings before (rowsBelowAll (next + trees.length) trees ++ after)
    (next + trees.length) trees
  rw [← whole, length] at own
  have reached : (before ++ siblings (next + trees.length) trees).length = next + trees.length := by
    rw [List.length_append, length_siblings, length]
  have deeper := finds_rowsBelowAll trees reached (whole.trans (List.append_assoc ..).symm)
  exact ⟨own, deeper⟩

theorem finds_rowsBelowAll {rows before after : List Row} {next : Nat} (forest : List Tree)
    (length : before.length = next) (whole : rows = before ++ (rowsBelowAll next forest ++ after)) :
    ∀ r ∈ siblings next forest ++ rowsBelowAll next forest, Finds rows r.children r.tree.children := by
  cases forest with
  | nil =>
    intro r member
    cases member
  | cons tree forest =>
    rw [rowsBelowAll, List.append_assoc] at whole
    obtain ⟨own, below⟩ := finds_rowsBelow tree length whole
    have reached : (before ++ rowsBelow next tree).length = next + (tree.size - 1) := by
      rw [List.length_append, length_rowsBelow, length]
    have later := finds_rowsBelowAll forest reached (whole.trans (List.append_assoc ..).symm)
    intro r member
    simp only [siblings, rowsBelowAll, List.cons_append, List.mem_cons, List.mem_append] at member
    rcases member with rfl | beside | inside | behind
    · exact own
    · exact later r (List.mem_append_left _ beside)
    · exact below r inside
    · exact later r (List.mem_append_right _ behind)

end

/-- The children of every node are found in the table. -/
theorem finds_table (t : Tree) : ∀ r ∈ t.table, Finds t.table r.children r.tree.children := by
  have whole : t.table = [⟨t, List.range' 1 t.children.length⟩] ++ (rowsBelow 1 t ++ []) := by
    simp [table]
  obtain ⟨own, below⟩ := finds_rowsBelow t rfl whole
  intro r member
  rcases List.mem_cons.mp member with rfl | inside
  · exact own
  · exact below r inside

end Pushdown.Tree
