import Pushdown.Token.Basic

/-! Context-free grammars whose rules carry lookahead sets. A rule applies to its left side when the
next token is in its set; where several do, the first one counts. The right sides may also name
actions, which makes the grammar a scheme for emitting code. -/
namespace Pushdown

inductive Kind where
  | terminal
  | nonterminal
  | action
deriving Repr, DecidableEq

structure Rule where
  left : Symbol
  right : List Symbol
  lookahead : List Symbol
deriving Repr, DecidableEq

structure Grammar where
  start : Symbol
  terminals : List Symbol
  nonterminals : List Symbol
  actions : List Symbol := []
  rules : List Rule
deriving Repr, DecidableEq

/-- The symbol at the bottom of the parse stack. -/
def bottom : Symbol := "%"

inductive GrammarError where
  | missingHeader (name : String)
  | unterminatedList (line : Nat) (text : String)
  | malformedRule (line : Nat) (text : String)
  | missingLookahead (line : Nat)
  | lookaheadMismatch (rules sets : Nat)
  | symbolClash (symbol : Symbol)
  | unknownStart (symbol : Symbol)
  | undefinedSymbol (symbol : Symbol) (rule : Nat)
deriving Repr, DecidableEq

def GrammarError.message : GrammarError → String
  | .missingHeader name => s!"Missing header: {name}"
  | .unterminatedList line text => s!"Unterminated list on line {line}: {text}"
  | .malformedRule line text => s!"Malformed rule on line {line}: {text}"
  | .missingLookahead line => s!"Rule on line {line} has no lookahead set"
  | .lookaheadMismatch rules sets => s!"{rules} rules but {sets} lookahead sets"
  | .symbolClash symbol => s!"Symbol {symbol} is declared more than once"
  | .unknownStart symbol => s!"Start symbol {symbol} is not a nonterminal"
  | .undefinedSymbol symbol rule => s!"Undefined symbol {symbol} in rule {rule}"

namespace Grammar

variable (g : Grammar)

def kind? (s : Symbol) : Option Kind :=
  if s ∈ g.terminals then some .terminal
  else if s ∈ g.nonterminals then some .nonterminal
  else if s ∈ g.actions then some .action
  else none

def isTerminal (s : Symbol) : Bool := g.kind? s = some .terminal

/-- Terminals and nonterminals; actions do not occur in input. -/
def isVocabulary (s : Symbol) : Bool :=
  g.kind? s = some .terminal || g.kind? s = some .nonterminal

/-- All symbols, in the order of their declaration. -/
def declared : List Symbol := g.terminals ++ g.nonterminals ++ g.actions

def Applies (top next : Symbol) (rule : Rule) : Prop := rule.left = top ∧ next ∈ rule.lookahead

instance (top next : Symbol) : DecidablePred (Applies top next) :=
  fun rule => inferInstanceAs (Decidable (rule.left = top ∧ next ∈ rule.lookahead))

/-- The first of the rules that applies, numbered from `index` on. -/
def selectFrom (index : Nat) (top next : Symbol) : List Rule → Option (Nat × Rule)
  | [] => none
  | rule :: rest =>
    if Applies top next rule then some (index, rule) else selectFrom (index + 1) top next rest

/-- The rule for a nonterminal before a token, with its number. -/
def select? (top next : Symbol) : Option (Nat × Rule) := selectFrom 0 top next g.rules

/-- The first symbol of a list that stands in it once more before, given what came earlier. -/
def repeated? (earlier : List Symbol) : List Symbol → Option Symbol
  | [] => none
  | s :: rest => if s ∈ earlier then some s else repeated? (s :: earlier) rest

/-- The first symbol of a rule that is not declared for its place. -/
def undefined? (rule : Rule) : Option Symbol :=
  if g.kind? rule.left ≠ some .nonterminal then some rule.left
  else
    match rule.right.find? (g.kind? · = none) with
    | some s => some s
    | none => rule.lookahead.find? (!g.isTerminal ·)

/-- Every symbol is declared once, and used in its place. -/
def check : Except GrammarError Unit :=
  match repeated? [] g.declared with
  | some s => .error (.symbolClash s)
  | none =>
    if g.kind? g.start ≠ some .nonterminal then .error (.unknownStart g.start)
    else
      match g.rules.zipIdx.findSome? fun (rule, i) => (g.undefined? rule).map (·, i) with
      | some (s, i) => .error (.undefinedSymbol s i)
      | none => .ok ()

/-- A checked grammar, its rules and their lookahead sets being listed apart. -/
def ofParts (start : Symbol) (terminals nonterminals actions : List Symbol)
    (rules : List (Symbol × List Symbol)) (lookaheads : List (List Symbol)) :
    Except GrammarError Grammar :=
  if rules.length ≠ lookaheads.length then
    .error (.lookaheadMismatch rules.length lookaheads.length)
  else
    let rules := rules.zipWith (fun (left, right) lookahead => ⟨left, right, lookahead⟩) lookaheads
    let g : Grammar := ⟨start, terminals, nonterminals, actions, rules⟩
    g.check.map fun _ => g

end Grammar

end Pushdown
