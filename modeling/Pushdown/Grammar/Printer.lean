import Pushdown.Grammar.Basic
import Pushdown.Text.Column

/-! Grammars on paper: the symbols, and the rules in columns with their numbers and lookahead sets. -/
namespace Pushdown

def Rule.renderRight (rule : Rule) : String := Text.joined " " rule.right

namespace Grammar

def renderList (opening close : String) (symbols : List Symbol) : String :=
  opening ++ " " ++ Text.joined ", " symbols ++ " " ++ close

def render (g : Grammar) : String :=
  let symbols := renderList "[" "]"
  let width := Text.widest (g.rules.map Rule.left)
  let rules := g.rules.zipIdx.map fun (rule, i) =>
    s!"{i}) {Text.alignRight width rule.left} -> {rule.renderRight}"
  let column := Text.widest rules + 4
  let lines := (rules.zip g.rules).map fun (text, rule) =>
    Text.alignLeft column text ++ renderList "\x7b" "\x7d" rule.lookahead ++ "\n"
  s!"Start Symbol:   {g.start}\n" ++
  s!"Nonterminals:   {symbols g.nonterminals}\n" ++
  s!"Terminals:      {symbols g.terminals}\n" ++
  (if g.actions.isEmpty then "" else s!"Action Symbols: {symbols g.actions}\n") ++
  "Rules:\n" ++ String.join lines

end Grammar

end Pushdown
