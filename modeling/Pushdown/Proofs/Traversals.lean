import Mathlib
import Pushdown.Proofs.Numbering

/-! Traversals of the tree of a run. In the arena every node but the first is a child of one node, which has
a smaller number. So a walk from child to child ends, whether by recursion or by a loop with a stack. The
loop that looks for the phrases of a symbol meets the nodes in preorder, and the phrase of a node is a part of
the leaves of the whole tree that lies together. -/
namespace Pushdown

open Automaton

namespace Tree

mutual

/-- A node before its children, and these one after another. -/
def preorder : Tree → List Tree
  | .node symbol value children => .node symbol value children :: preorderAll children

def preorderAll : List Tree → List Tree
  | [] => []
  | tree :: forest => preorder tree ++ preorderAll forest

end

theorem preorderAll_append (front back : List Tree) :
    preorderAll (front ++ back) = preorderAll front ++ preorderAll back := by
  induction front with
  | nil => rfl
  | cons tree front ih => simp [preorderAll, ih]

/-- The phrases, unless they are empty, of the nodes with a symbol among some nodes. -/
def phrasesAmong (g : Grammar) (symbol : Symbol) (nodes : List Tree) : List String :=
  ((nodes.filter (·.symbol = symbol)).map (phrase g)).filter (· ≠ "")

theorem preorderAll_cons (t : Tree) (forest : List Tree) :
    preorderAll (t :: forest) = t :: preorderAll (t.children ++ forest) := by
  obtain ⟨symbol, value, trees⟩ := t
  rw [preorderAll_append]
  rfl

theorem phrasesAmong_cons (g : Grammar) (symbol : Symbol) (t : Tree) (nodes : List Tree) :
    phrasesAmong g symbol (t :: nodes) =
      (if t.symbol = symbol ∧ t.phrase g ≠ "" then [t.phrase g] else []) ++
        phrasesAmong g symbol nodes := by
  unfold phrasesAmong
  by_cases same : t.symbol = symbol
  · by_cases empty : t.phrase g = ""
    · simp [same, empty]
    · simp [same, empty]
  · simp [same]

/-- The loop with a stack meets the nodes in preorder. -/
theorem phrasesFrom_eq (g : Grammar) (symbol : Symbol) (pending : Stack Tree) :
    phrasesFrom g symbol pending = phrasesAmong g symbol (preorderAll pending) := by
  fun_induction phrasesFrom g symbol pending with
  | case1 => rfl
  | case2 value children rest found text empty ih =>
    rw [preorderAll_cons, phrasesAmong_cons]
    simpa [empty, text, Tree.children] using ih
  | case3 value children rest found text shown ih =>
    rw [preorderAll_cons, phrasesAmong_cons, Tree.children, ← ih]
    simp [shown, text, Tree.symbol, found]
  | case4 root value children rest found other ih =>
    rw [preorderAll_cons, phrasesAmong_cons, Tree.children, ← ih]
    simp [other, Tree.symbol, found]

section Frontiers

variable {g : Grammar}

theorem frontierAll_eq (forest : List Tree) : frontierAll g forest = forest.flatMap (frontier g) := by
  induction forest with
  | nil => rfl
  | cons tree forest ih => rw [frontierAll, ih, List.flatMap_cons]

theorem frontier_of_children {t : Tree} (parted : t.children ≠ []) :
    t.frontier g = t.children.flatMap (frontier g) := by
  obtain ⟨symbol, value, children⟩ := t
  cases children with
  | nil => exact absurd rfl parted
  | cons tree forest => rw [frontier, frontierAll_eq, children, List.flatMap_cons]

/-- The leaves of one tree lie together among those of all. -/
theorem frontier_infix_of_mem {t : Tree} {forest : List Tree} (member : t ∈ forest) :
    t.frontier g <:+: forest.flatMap (frontier g) := by
  obtain ⟨before, after, rfl⟩ := List.append_of_mem member
  refine ⟨before.flatMap (frontier g), after.flatMap (frontier g), ?_⟩
  simp

mutual

/-- The leaves of a node lie together among those of the tree. -/
theorem frontier_infix (t : Tree) : ∀ n ∈ t.preorder, n.frontier g <:+: t.frontier g := by
  obtain ⟨symbol, value, children⟩ := t
  intro n member
  rcases List.mem_cons.mp (preorder.eq_def _ ▸ member) with rfl | below
  · exact List.infix_refl _
  · obtain ⟨child, isChild, within⟩ := frontier_infixAll children n below
    have parted : (Tree.node symbol value children).children ≠ [] := List.ne_nil_of_mem isChild
    rw [frontier_of_children parted]
    exact within.trans (frontier_infix_of_mem isChild)

theorem frontier_infixAll (forest : List Tree) :
    ∀ n ∈ preorderAll forest, ∃ t ∈ forest, n.frontier g <:+: t.frontier g := by
  intro n member
  cases forest with
  | nil => cases member
  | cons tree forest =>
    rcases List.mem_append.mp (preorderAll.eq_def _ ▸ member) with here | later
    · exact ⟨tree, List.mem_cons_self, frontier_infix tree n here⟩
    · obtain ⟨t, within, leaves⟩ := frontier_infixAll forest n later
      exact ⟨t, List.mem_cons_of_mem _ within, leaves⟩

end

end Frontiers

mutual

theorem size_le_of_mem_preorder (t : Tree) {n : Tree} (member : n ∈ t.preorder) :
    n.size ≤ t.size := by
  obtain ⟨symbol, value, trees⟩ := t
  rcases List.mem_cons.mp (preorder.eq_def _ ▸ member) with rfl | below
  · exact Nat.le_refl _
  · have smaller := size_le_of_mem_preorderAll trees below
    rw [size]
    omega

theorem size_le_of_mem_preorderAll (forest : List Tree) {n : Tree} (member : n ∈ preorderAll forest) :
    n.size ≤ sizeAll forest := by
  cases forest with
  | nil => cases member
  | cons tree forest =>
    rw [sizeAll]
    rcases List.mem_append.mp (preorderAll.eq_def _ ▸ member) with here | later
    · have smaller := size_le_of_mem_preorder tree here
      omega
    · have smaller := size_le_of_mem_preorderAll forest later
      omega

end

mutual

/-- The table has the nodes of the tree in another order. -/
theorem perm_rowsBelow_tree (next : Nat) (t : Tree) :
    (t :: (rowsBelow next t).map Row.tree).Perm t.preorder := by
  obtain ⟨symbol, value, trees⟩ := t
  exact (perm_rowsBelowAll_tree _ trees).cons _

theorem perm_rowsBelowAll_tree (next : Nat) (forest : List Tree) :
    ((siblings next forest ++ rowsBelowAll next forest).map Row.tree).Perm (preorderAll forest) := by
  cases forest with
  | nil => exact .nil
  | cons tree forest =>
    have first := perm_rowsBelow_tree next tree
    have later := perm_rowsBelowAll_tree (next + (tree.size - 1)) forest
    refine List.Perm.trans ?_ (first.append later)
    simp only [siblings, rowsBelowAll, List.map_append, List.map_cons, List.cons_append]
    exact (List.perm_append_comm_assoc ..).cons _

end

def Node.render (n : Node) : String := (⟨n.symbol, n.value⟩ : Token).render

namespace Arena

variable (g : Grammar)

/-- The terminals among the leaves below the node with a number, found by recursion from child to child as
deep as allowed. Nothing is found where a number is that of no node. -/
def leavesAt (nodes : List Node) : Nat → Nat → Option (List String)
  | 0, _ => none
  | depth + 1, number => do
    let n ← nodes[number]?
    if n.children = [] then some (if g.isTerminal n.symbol then [n.render] else [])
    else (n.children.mapM (leavesAt nodes depth)).map List.flatten

/-- The phrase of the node with a number. -/
def phraseAt (nodes : List Node) (number : Nat) : Option String :=
  (leavesAt g nodes nodes.length number).map (Text.joined "  ")

/-- The phrases, unless they are empty, of the nodes with a symbol, found by a loop that keeps the numbers
of the nodes still to be visited on a stack and may go through so many rounds. -/
def phrasesAt (symbol : Symbol) (nodes : List Node) : Nat → Stack Nat → Option (List String)
  | _, [] => some []
  | 0, _ :: _ => none
  | rounds + 1, number :: rest => do
    let n ← nodes[number]?
    let own ← if n.symbol = symbol then (phraseAt g nodes number).map fun text =>
      if text = "" then [] else [text] else some []
    let later ← phrasesAt symbol nodes rounds (Stack.pushAll rest n.children)
    return own ++ later

variable {g}

variable {nodes : List Node} {n : Node} {depth number : Nat}

theorem leavesAt_bare (present : nodes[number]? = some n) (bare : n.children = []) :
    leavesAt g nodes (depth + 1) number = some (if g.isTerminal n.symbol then [n.render] else []) := by
  simp [leavesAt, present, bare]

theorem leavesAt_parted (present : nodes[number]? = some n) (parted : n.children ≠ []) :
    leavesAt g nodes (depth + 1) number =
      (n.children.mapM (leavesAt g nodes depth)).map List.flatten := by
  simp [leavesAt, present, parted]

theorem phrasesAt_cons {symbol : Symbol} {rounds : Nat} {rest : Stack Nat} {text : String}
    (present : nodes[number]? = some n) (phrase : phraseAt g nodes number = some text) :
    phrasesAt g symbol nodes (rounds + 1) (number :: rest) =
      (phrasesAt g symbol nodes rounds (n.children ++ rest)).map
        ((if n.symbol = symbol ∧ text ≠ "" then [text] else []) ++ ·) := by
  by_cases same : n.symbol = symbol
  · by_cases empty : text = ""
    · simp [phrasesAt, present, phrase, same, empty]
    · simp [phrasesAt, present, phrase, same, empty, Option.map_eq_bind]
  · simp [phrasesAt, present, same]

theorem mapM_eq_some {α β γ : Type} {f : α → Option γ} {h : β → γ} {xs : List α} {ys : List β}
    (each : List.Forall₂ (fun x y => f x = some (h y)) xs ys) : xs.mapM f = some (ys.map h) := by
  induction each with
  | nil => rfl
  | cons first _ ih => simp [List.mapM_cons, first, ih]

section Linked

variable {rows : List Row} (linked : ∀ r ∈ rows, Finds rows r.children r.tree.children)

include linked

/-- The recursion from child to child ends, and finds the leaves of the tree. -/
theorem leavesAt_eq {r : Row} (row : rows[number]? = some r) (deep : r.tree.size ≤ depth) :
    leavesAt g (rows.map Row.node) depth number = some ((r.tree.frontier g).map render) := by
  induction depth generalizing number r with
  | zero =>
    have positive := size_pos r.tree
    omega
  | succ depth ih =>
    have finds := linked r (List.mem_of_getElem? row)
    have present : (rows.map Row.node)[number]? = some r.node := by
      rw [List.getElem?_map, row]
      rfl
    by_cases bare : r.children = []
    · rw [leavesAt_bare present bare]
      obtain ⟨⟨symbol, value, trees⟩, numbers⟩ := r
      obtain rfl : trees = [] := List.forall₂_nil_left_iff.mp (bare ▸ finds)
      rw [frontier]
      by_cases terminal : g.isTerminal symbol = true
      · simp only [Row.node, Tree.symbol, terminal, if_true]
        rfl
      · simp [Row.node, Tree.symbol, terminal]
    · have each : List.Forall₂ (fun i t => leavesAt g (rows.map Row.node) depth i =
          some ((t.frontier g).map render)) r.children r.tree.children := by
        have smaller : ∀ t ∈ r.tree.children, t.size < r.tree.size :=
          fun t member => size_lt_of_mem_children member
        refine ((List.forall₂_and_left _ _).mpr ⟨smaller, finds.flip⟩).flip.imp ?_
        rintro i t ⟨small, found⟩
        obtain ⟨r, row, rfl⟩ := Option.map_eq_some_iff.mp found
        apply ih row
        omega
      have parted : r.tree.children ≠ [] := by
        intro none
        exact bare (List.forall₂_nil_right_iff.mp (none ▸ finds))
      rw [leavesAt_parted present bare, Row.node, mapM_eq_some each, frontier_of_children parted,
        Option.map_some, List.map_flatMap, List.flatMap_def]

theorem phraseAt_eq {r : Row} (row : rows[number]? = some r) (deep : r.tree.size ≤ rows.length) :
    phraseAt g (rows.map Row.node) number = some (r.tree.phrase g) := by
  rw [phraseAt, List.length_map, leavesAt_eq linked row deep]
  rfl

/-- The loop with a stack of numbers ends, and finds the phrases of the nodes in preorder. -/
theorem phrasesAt_eq {symbol : Symbol} {rounds : Nat} {pending : Stack Nat} {forest : List Tree}
    (finds : Finds rows pending forest) (deep : ∀ t ∈ forest, t.size ≤ rows.length)
    (enough : sizeAll forest ≤ rounds) :
    phrasesAt g symbol (rows.map Row.node) rounds pending =
      some (phrasesAmong g symbol (preorderAll forest)) := by
  induction rounds generalizing pending forest with
  | zero =>
    have none := length_le_sizeAll forest
    obtain rfl := List.eq_nil_of_length_eq_zero (by omega : forest.length = 0)
    obtain rfl := List.forall₂_nil_right_iff.mp finds
    rfl
  | succ rounds ih =>
    cases forest with
    | nil =>
      obtain rfl := List.forall₂_nil_right_iff.mp finds
      rfl
    | cons tree forest =>
      obtain ⟨number, rest, here, others, rfl⟩ := List.forall₂_cons_right_iff.mp finds
      obtain ⟨r, row, rfl⟩ := Option.map_eq_some_iff.mp here
      have present : (rows.map Row.node)[number]? = some r.node := by
        rw [List.getElem?_map, row]
        rfl
      have phrase := phraseAt_eq (g := g) linked row (deep r.tree List.mem_cons_self)
      have onward : Finds rows (r.children ++ rest) (r.tree.children ++ forest) :=
        List.rel_append (linked r (List.mem_of_getElem? row)) others
      have smaller : ∀ t ∈ r.tree.children ++ forest, t.size ≤ rows.length := by
        intro t member
        rcases List.mem_append.mp member with below | beside
        · exact Nat.le_trans (size_lt_of_mem_children below).le (deep r.tree List.mem_cons_self)
        · exact deep t (List.mem_cons_of_mem _ beside)
      have fewer : sizeAll (r.tree.children ++ forest) ≤ rounds := by
        rw [sizeAll, size_eq] at enough
        rw [sizeAll_append]
        omega
      have later := ih onward smaller fewer
      rw [phrasesAt_cons present phrase, preorderAll_cons, phrasesAmong_cons]
      exact congrArg (Option.map _) later

end Linked

/-- The one number is among those of the children of the other's node. -/
def IsChild (nodes : List Node) (child parent : Nat) : Prop :=
  ∃ n, nodes[parent]? = some n ∧ child ∈ n.children

theorem isChild_table_iff {t : Tree} {child parent : Nat} :
    IsChild (t.table.map Row.node) child parent ↔
      ∃ r, t.table[parent]? = some r ∧ child ∈ r.children := by
  constructor
  · rintro ⟨n, present, member⟩
    rw [List.getElem?_map] at present
    obtain ⟨r, row, rfl⟩ := Option.map_eq_some_iff.mp present
    exact ⟨r, row, member⟩
  · rintro ⟨r, row, member⟩
    refine ⟨r.node, ?_, member⟩
    rw [List.getElem?_map, row]
    rfl

theorem exists_parent {t : Tree} {child : Nat} (positive : 0 < child) (within : child < t.size) :
    ∃! parent, IsChild (t.table.map Row.node) child parent := by
  have given : child ∈ t.table.flatMap Row.children := by
    rw [(perm_table t).mem_iff, List.mem_range'_1]
    omega
  obtain ⟨r, member, below⟩ := List.mem_flatMap.mp given
  obtain ⟨parent, row⟩ := List.mem_iff_getElem?.mp member
  refine ⟨parent, isChild_table_iff.mpr ⟨r, row, below⟩, ?_⟩
  intro other isParent
  obtain ⟨r', row', below'⟩ := isChild_table_iff.mp isParent
  exact parent_unique row' row below' below

theorem lt_of_isChild {t : Tree} {child parent : Nat}
    (isChild : IsChild (t.table.map Row.node) child parent) : parent < child ∧ child < t.size := by
  obtain ⟨r, row, below⟩ := isChild_table_iff.mp isChild
  have given : child ∈ t.table.flatMap Row.children :=
    List.mem_flatMap.mpr ⟨r, List.mem_of_getElem? row, below⟩
  rw [(perm_table t).mem_iff, List.mem_range'_1] at given
  have larger := lt_of_table row below
  omega

end Arena

/-- What holds of the nodes of a tree, and of what is found by walking from one to the other. -/
structure Traversed (g : Grammar) (nodes : List Node) (t : Tree) : Prop where
  rows : nodes = t.table.map Row.node
  parent : ∀ child, 0 < child → child < nodes.length → ∃! parent, Arena.IsChild nodes child parent
  later : ∀ child parent, Arena.IsChild nodes child parent → parent < child ∧ child < nodes.length
  once : ∀ n ∈ nodes, n.children.Nodup
  /-- The recursion ends with the leaves below a node. -/
  leaves : ∀ number r, t.table[number]? = some r →
    Arena.leavesAt g nodes nodes.length number = some ((r.tree.frontier g).map render)
  /-- The loop ends with the phrases that a stack of trees gives, too. -/
  loop : ∀ symbol, Arena.phrasesAt g symbol nodes nodes.length [0] = some (t.phrasesFor g symbol)
  preorder : ∀ symbol, t.phrasesFor g symbol =
    ((t.preorder.filter (·.symbol = symbol)).map (phrase g)).filter (· ≠ "")
  /-- The preorder has all nodes. -/
  visits : (t.table.map Row.tree).Perm t.preorder
  phrase : ∀ n ∈ t.preorder, n.phrase g = Text.joined "  " ((n.frontier g).map render) ∧
    n.frontier g <:+: t.frontier g

theorem traversed_table (g : Grammar) (t : Tree) : Traversed g (t.table.map Row.node) t := by
  have length : (t.table.map Row.node).length = t.size := by rw [List.length_map, length_table]
  have single : preorderAll [t] = t.preorder := List.append_nil _
  constructor
  · rfl
  · intro child positive within
    exact Arena.exists_parent positive (length ▸ within)
  · intro child parent isChild
    rw [length]
    exact Arena.lt_of_isChild isChild
  · intro n member
    obtain ⟨r, row, rfl⟩ := List.mem_map.mp member
    exact (List.nodup_flatMap.mp (nodup_table t)).1 r row
  · intro number r row
    apply Arena.leavesAt_eq (finds_table t) row
    have visited : r.tree ∈ t.preorder :=
      (perm_rowsBelow_tree 1 t).mem_iff.mp (List.mem_map_of_mem (List.mem_of_getElem? row))
    rw [length]
    exact size_le_of_mem_preorder t visited
  · intro symbol
    have root : Finds t.table [0] [t] := .cons rfl .nil
    rw [phrasesFor, phrasesFrom_eq]
    apply Arena.phrasesAt_eq (finds_table t) root
    · intro t' member
      rw [List.mem_singleton.mp member, length_table]
    · rw [length]
      exact Nat.le_refl _
  · intro symbol
    rw [phrasesFor, phrasesFrom_eq, single]
    rfl
  · exact perm_rowsBelow_tree 1 t
  · intro n member
    exact ⟨rfl, frontier_infix t n member⟩

end Tree

/-- In the tree of some tokens that are accepted, the nodes are numbered so that each but the root is a child
of one node, which has a smaller number. Walking from child to child, by recursion or with a stack, comes to
an end. What the loop finds are the phrases, unless they are empty, of the nodes with a symbol in preorder,
and each of them lies together among the leaves of the whole tree. -/
theorem built_tree_is_traversed {g : Grammar} {source : TokenSource} {budget : Nat} {t : Tree}
    (built : Tree.build? g source budget = some t) :
    Tree.Traversed g (Tree.Arena.grow g source budget).nodes t := by
  obtain ⟨_, root⟩ := Tree.build?_eq_some_iff.mp built
  rw [Tree.Arena.nodes_grow, Tree.parse_eq, root]
  exact Tree.traversed_table g t

theorem built_tree_is_traversed_twoWords :
    ∃ t, Tree.build? wordList (.ofTokens twoWords) 9 = some t ∧
      Tree.Traversed wordList (Tree.Arena.grow wordList (.ofTokens twoWords) 9).nodes t := by
  have accepted : verdict wordList (.ofTokens twoWords) 9 = .accepted := by decide +kernel
  obtain ⟨t, built⟩ := Option.isSome_iff_exists.mp (Tree.isSome_build?_iff.mpr accepted)
  exact ⟨t, built, built_tree_is_traversed built⟩

end Pushdown
