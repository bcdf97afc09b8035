import Pushdown.Tree.Basic

/-! What a derivation tree derives. The phrase of a node lists the terminals under it from left to right;
empty nonterminals and actions do not show. -/
namespace Pushdown.Tree

/-- The root, as phrases show it. -/
def render (t : Tree) : String := (⟨t.symbol, t.value⟩ : Token).render

mutual

/-- The terminals among the leaves, from left to right. -/
def frontier (g : Grammar) : Tree → List Tree
  | .node symbol value [] => if g.isTerminal symbol then [.node symbol value []] else []
  | .node _ _ (tree :: forest) => frontier g tree ++ frontierAll g forest

def frontierAll (g : Grammar) : List Tree → List Tree
  | [] => []
  | tree :: forest => frontier g tree ++ frontierAll g forest

end

def phrase (g : Grammar) (t : Tree) : String := Text.joined "  " ((t.frontier g).map render)

/-- The phrases, unless they are empty, of the nodes with a symbol. Nodes still to be visited are kept
on a stack, so that parents come before their children and these in order. -/
def phrasesFrom (g : Grammar) (symbol : Symbol) : Stack Tree → List String
  | [] => []
  | .node root value children :: rest =>
    let found := phrasesFrom g symbol (Stack.pushAll rest children)
    if root = symbol then
      let text := phrase g (.node root value children)
      if text = "" then found else text :: found
    else found
termination_by pending => sizeAll pending
decreasing_by
  simp only [sizeAll_append, sizeAll, size]
  omega

def phrasesFor (g : Grammar) (symbol : Symbol) (t : Tree) : List String :=
  phrasesFrom g symbol [t]

mutual

/-- One line to a node, set in by its depth. -/
def outlineFrom (depth : Nat) : Tree → List String
  | .node symbol value children =>
    (Text.spaces (2 * depth) ++ render (.node symbol value children) ++ "\n") ::
      outlineAll (depth + 1) children

def outlineAll (depth : Nat) : List Tree → List String
  | [] => []
  | tree :: forest => outlineFrom depth tree ++ outlineAll depth forest

end

def outline (t : Tree) : String := String.join (outlineFrom 0 t)

end Pushdown.Tree
