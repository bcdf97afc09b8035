import Pushdown.ReadError

/-! What can be typed at the prompt. A line that begins with the name of a command asks for it; every
other line is a program to be run. -/
namespace Pushdown

inductive Command where
  /-- Show the tokens of a program. -/
  | tokens (source : String)
  /-- Tell whether a program is accepted. -/
  | parse (source : String)
  /-- Show the phrases of a symbol in a program. -/
  | tree (symbol source : String)
  /-- Show the code of a program. -/
  | code (source : String)
  /-- Show the symbol table of a program. -/
  | symbols (source : String)
  /-- Show the scheme in use. -/
  | grammar
  /-- Run a program. -/
  | run (source : String)
deriving Repr, DecidableEq

namespace Command

/-- What follows a word at the beginning of a text. -/
def after? (word : String) (cs : List Char) : Option (List Char) :=
  if word.toList.isPrefixOf cs then some (cs.drop word.toList.length) else none

def sourceOf (cs : List Char) : String := String.ofList (Text.trim cs)

/-- A command and what it leaves of the text. All commands but one take the rest of the line as a
program; where a command lacks its symbol, the line is a program itself. -/
def readFrom (cs : List Char) : Command × List Char :=
  let named : Option (Command × List Char) :=
    ((after? ":tokens" cs).map fun rest => (.tokens (sourceOf rest), [])) <|>
    ((after? ":parse" cs).map fun rest => (.parse (sourceOf rest), [])) <|>
    (((after? ":tree" cs).bind Text.nextWord).map fun (symbol, rest) =>
      (.tree (String.ofList symbol) (sourceOf rest), [])) <|>
    ((after? ":code" cs).map fun rest => (.code (sourceOf rest), [])) <|>
    ((after? ":symbols" cs).map fun rest => (.symbols (sourceOf rest), [])) <|>
    ((after? ":grammar" cs).map fun rest => (.grammar, rest.dropWhile Text.isGap)) <|>
    ((after? ":run" cs).map fun rest => (.run (sourceOf rest), []))
  named.getD (.run (sourceOf cs), [])

/-- Reads a line. Only blanks may be left over. -/
def read (line : String) : Except ReadError Command :=
  let (command, rest) := readFrom (line.toList.dropWhile Text.isGap)
  if Text.trim rest = [] then .ok command
  else .error (.incomplete "command" "ShowGrammar" (String.ofList rest))

end Command

end Pushdown
