import Pushdown.Grammar.Basic
import Pushdown.Text.Alphanumeric
import Pushdown.Text.Blank

/-! Grammars from text. Headers of the form `name = value` give the start symbol and the lists of
symbols; a line with the word `rules` begins the rules, each of the form `left -> right {lookahead}`.
Items of a list are divided by commas, and a backslash takes the next character literally. Single
quotes do not count anywhere, and lines of any other form are free text. -/
namespace Pushdown.Grammar

/-- What stands before and after the first occurrence of a pattern. -/
def divideAt (pattern : List Char) (cs : List Char) : Option (List Char × List Char) :=
  if pattern.isPrefixOf cs then some ([], cs.drop pattern.length)
  else
    match cs with
    | [] => none
    | c :: rest => (divideAt pattern rest).map fun (before, after) => (c :: before, after)

/-- An item of a list, unless nothing is left of it after trimming. -/
def addItem (item : List Char) (items : List Symbol) : List Symbol :=
  match Text.trim item with
  | [] => items
  | item => String.ofList item :: items

/-- The items of a list up to the closing character, `item` being the part already read of the first
one, last character first. -/
def readItems (close : Char) (item : List Char) : List Char → Option (List Symbol)
  | [] => none
  | '\\' :: [] => none
  | '\\' :: c :: rest => readItems close (c :: item) rest
  | ',' :: rest => (readItems close [] rest).map (addItem item.reverse)
  | c :: rest =>
    if c = close then some (addItem item.reverse []) else readItems close (c :: item) rest

/-- A list between the given characters. What follows it does not count. -/
def readList (opening close : Char) : List Char → Option (List Symbol)
  | [] => none
  | c :: rest => if c = opening then readItems close [] rest else none

def isInset (c : Char) : Bool := c = ' ' || c = '\t'

/-- The name and the value of a header. -/
def readHeader (line : List Char) : Option (List Char × List Char) :=
  let line := line.dropWhile isInset
  let name := line.takeWhile fun c => Text.isAlphanumeric c || c = '_'
  match (line.drop name.length).dropWhile Text.isGap with
  | '=' :: value => if name.isEmpty then none else some (name, Text.trim value)
  | _ => none

/-- What has been read of a grammar. -/
structure Draft where
  start : Option Symbol := none
  terminals : Option (List Symbol) := none
  nonterminals : Option (List Symbol) := none
  actions : Option (List Symbol) := none
  inRules : Bool := false
  /-- The rules read so far, the last one first. -/
  rules : List Rule := []

namespace Draft

/-- Takes a header over; names that mean nothing here are passed by. -/
def setHeader (d : Draft) (number : Nat) (name value : List Char) : Except GrammarError Draft :=
  let symbols : Except GrammarError (List Symbol) :=
    match readList '[' ']' (value.dropWhile isInset) with
    | some symbols => .ok symbols
    | none => .error (.unterminatedList number (String.ofList value))
  match String.ofList name with
  | "start_symbol" => .ok { d with start := some (String.ofList value) }
  | "terminals" => symbols.map fun symbols => { d with terminals := some symbols }
  | "nonterminals" => symbols.map fun symbols => { d with nonterminals := some symbols }
  | "action_symbols" => symbols.map fun symbols => { d with actions := some symbols }
  | _ => .ok d

/-- A rule from a line of the given number, divided at its arrow. -/
def readRule (number : Nat) (raw : List Char) (left rest : List Char) :
    Except GrammarError Rule :=
  let right := rest.takeWhile (· ≠ '\x7b')
  let set := rest.dropWhile (· ≠ '\x7b')
  match Text.words left with
  | [left] =>
    if set.isEmpty then .error (.missingLookahead number)
    else
      match readList '\x7b' '\x7d' set with
      | none => .error (.unterminatedList number (String.ofList set))
      | some lookahead =>
        .ok ⟨String.ofList left, (Text.words right).map String.ofList, lookahead⟩
  | _ => .error (.malformedRule number (String.ofList raw))

/-- Takes over one line of the text, with its number. -/
def readLine (d : Draft) (raw : List Char) (number : Nat) : Except GrammarError Draft :=
  let line := raw.filter (· ≠ '\x27')
  if Text.trim line = [] then .ok d
  else if d.inRules then
    match divideAt ['-', '>'] line with
    | none => .ok d
    | some (left, rest) =>
      (readRule number raw left rest).map fun rule => { d with rules := rule :: d.rules }
  else
    match readHeader line with
    | some (name, value) => d.setHeader number name value
    | none => .ok { d with inRules := (divideAt "rules".toList line).isSome }

def require {α : Type} (name : String) : Option α → Except GrammarError α
  | some a => .ok a
  | none => .error (.missingHeader name)

/-- The grammar, if nothing is missing and it passes the check. -/
def finish (d : Draft) : Except GrammarError Grammar := do
  let start ← require "start_symbol" (d.start.filter (· ≠ ""))
  let terminals ← require "terminals" d.terminals
  let nonterminals ← require "nonterminals" d.nonterminals
  require "rules" (if d.inRules then some () else none)
  let g : Grammar := ⟨start, terminals, nonterminals, d.actions.getD [], d.rules.reverse⟩
  g.check
  return g

end Draft

def read (text : String) : Except GrammarError Grammar := do
  let draft ← (Text.lines text.toList).zipIdx.foldlM
    (fun d (line, index) => d.readLine line (index + 1)) ({} : Draft)
  draft.finish

end Pushdown.Grammar
