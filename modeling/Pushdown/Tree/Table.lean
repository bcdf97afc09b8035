import Pushdown.Tree.Basic

/-! Derivation trees as tables. The nodes are numbered in the order in which a run from the root meets
them: the children of a node get the next free numbers when the node is expanded, and nodes are
expanded from left to right, each before what lies to the right of it. -/
namespace Pushdown.Tree

/-- A node, and the numbers of its children. -/
structure Row where
  tree : Tree
  children : List Nat

/-- The rows of siblings, where `next` is the first number below the first of them. -/
def siblings (next : Nat) : List Tree → List Row
  | [] => []
  | tree :: forest =>
    ⟨tree, List.range' next tree.children.length⟩ :: siblings (next + (tree.size - 1)) forest

mutual

/-- The rows below a node whose children have the numbers from `next` on. -/
def rowsBelow (next : Nat) : Tree → List Row
  | .node _ _ children =>
    siblings (next + children.length) children ++ rowsBelowAll (next + children.length) children

def rowsBelowAll (next : Nat) : List Tree → List Row
  | [] => []
  | tree :: forest => rowsBelow next tree ++ rowsBelowAll (next + (tree.size - 1)) forest

end

/-- The rows of a tree; the root has the number zero. -/
def table (t : Tree) : List Row := ⟨t, List.range' 1 t.children.length⟩ :: rowsBelow 1 t

end Pushdown.Tree
