import Pushdown.Text.Blank
import Pushdown.Text.Column
import Pushdown.Text.Quoted

/-! Errors of readers, shown with the place they arose at. A failure lists what the reader looked
for, each with the number and the text of its line and a caret under its column; columns count
bytes from one. A reader that stops early reports what it read and what it left. -/
namespace Pushdown

/-- What a reader looked for, and how many characters stand before the place. -/
structure Complaint where
  offset : Nat
  sought : String
deriving Repr, DecidableEq

inductive ReadError where
  | failed (what text : String) (complaints : List Complaint)
  | incomplete (what parsed rest : String)
deriving Repr, DecidableEq

/-- One complaint about a text, numbered as `index`. -/
def Complaint.render (text : List Char) (index : Nat) (complaint : Complaint) : String :=
  if text.isEmpty then
    s!"{index}: in {complaint.sought}, got empty input\n\n"
  else
    let before := text.take complaint.offset
    let number := before.count '\n' + 1
    let lead := (before.reverse.takeWhile (· ≠ '\n')).reverse
    let line := Text.trimRight (lead ++ (text.drop complaint.offset).takeWhile (· ≠ '\n'))
    let caret := Text.alignRight ((String.ofList lead).utf8ByteSize + 1) "^"
    s!"{index}: at line {number}, in {complaint.sought}:\n{String.ofList line}\n{caret}\n\n"

def ReadError.message : ReadError → String
  | .failed what text complaints =>
    let entries := complaints.zipIdx.map fun (complaint, index) =>
      complaint.render text.toList index
    s!"Failed to parse {what}:\n" ++ Text.joined "" entries
  | .incomplete what parsed rest =>
    s!"Incomplete parse of {what}:\nParsed: {parsed}\nRest: {rest}"

/-- Reads a text that holds a single word. -/
def readWord (text : String) : Except ReadError String :=
  let cs := text.toList
  match Text.nextWord cs with
  | none =>
    .error (.failed "word" text [⟨(cs.takeWhile Text.isGap).length, "TakeWhile1"⟩])
  | some (word, rest) =>
    let word := String.ofList word
    if Text.trim rest = [] then .ok word
    else .error (.incomplete "word" (Text.quoted word) (String.ofList rest))

end Pushdown
