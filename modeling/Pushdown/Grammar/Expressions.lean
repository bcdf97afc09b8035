import Pushdown.Grammar.Basic

/-! A grammar of sums and products, with parentheses, over a single kind of operand. It has no
actions: it decides which token sequences are expressions. -/
namespace Pushdown.Grammar

/-- Sums of products; both operators repeat to the right. -/
def expressionGrammar : Grammar where
  start := "goal"
  terminals :=
    ["$id", "*", "+", "(", ")", "#", "%"]
  nonterminals :=
    ["e", "goal", "t", "mt", "f", "mf"]
  rules :=
    [⟨"goal", ["e"], ["$id", "("]⟩,
     ⟨"e", ["t", "mt"], ["$id", "("]⟩,
     ⟨"mt", ["+", "t", "mt"], ["+"]⟩,
     ⟨"mt", [], [")", "#"]⟩,
     ⟨"t", ["f", "mf"], ["$id", "("]⟩,
     ⟨"mf", ["*", "f", "mf"], ["*"]⟩,
     ⟨"mf", [], ["+", ")", "#"]⟩,
     ⟨"f", ["$id"], ["$id"]⟩,
     ⟨"f", ["(", "e", ")"], ["("]⟩]

end Pushdown.Grammar
