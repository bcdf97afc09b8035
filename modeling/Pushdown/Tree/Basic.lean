import Pushdown.Automaton.Trace

/-! Derivation trees. The tree of an accepted input is folded from the steps of its run, the last step
first: an expansion takes the trees of its right side from the front of the forest built so far.
Where the run ended early, the symbols that it did not reach are leaves. -/
namespace Pushdown

open Automaton

/-- A symbol, the value of the token it was matched with, and the trees of its right side. -/
inductive Tree where
  | node (symbol : Symbol) (value : Option Value) (children : List Tree)

namespace Tree

def leaf (symbol : Symbol) : Tree := .node symbol none []

def symbol : Tree → Symbol
  | .node symbol _ _ => symbol

def value : Tree → Option Value
  | .node _ value _ => value

def children : Tree → List Tree
  | .node _ _ children => children

/-- Takes a tree for each symbol from the front of a forest, and leaves once it is empty. -/
def adopt : List Symbol → List Tree → List Tree × List Tree
  | [], forest => ([], forest)
  | symbol :: symbols, [] => (leaf symbol :: (adopt symbols []).1, [])
  | _ :: symbols, tree :: forest =>
    let (trees, rest) := adopt symbols forest
    (tree :: trees, rest)

/-- Undoes a step on the forest of what came after it. -/
def graft (forest : List Tree) : Step → List Tree
  | .expanded _ rule =>
    let (trees, rest) := adopt rule.right forest
    .node rule.left none trees :: rest
  | .matched token => .node token.name token.value [] :: forest
  | .performed action => leaf action :: forest
  | .accepted | .rejected => forest

/-- The tree of a run from the start symbol, whose steps are given last first. -/
def ofSteps (start : Symbol) (steps : List Step) : Tree :=
  (steps.foldl graft []).head?.getD (leaf start)

/-- Collects the steps, last first. -/
def collector {σ : Type} : Observer σ (List Step) := fun step _ steps => step :: steps

/-- The state that the automaton of a grammar reaches, and the tree of its run. -/
def parse (g : Grammar) (source : TokenSource) (budget : Nat) : State × Tree :=
  match Watched.run g silent collector budget ⟨Config.init g source (), []⟩ with
  | .ok _ w => (w.config.state, ofSteps g.start w.notes)
  | .error e _ => nomatch e

mutual

/-- The number of nodes. -/
def size : Tree → Nat
  | .node _ _ children => sizeAll children + 1

/-- The number of nodes in a forest. -/
def sizeAll : List Tree → Nat
  | [] => 0
  | tree :: forest => tree.size + sizeAll forest

end

theorem sizeAll_append (l r : List Tree) : sizeAll (l ++ r) = sizeAll l + sizeAll r := by
  induction l with
  | nil => simp [sizeAll]
  | cons tree forest ih => simp only [List.cons_append, sizeAll, ih]; omega

end Tree

end Pushdown
