import Pushdown.Numeral.Real
import Pushdown.Text.Quoted

/-! The values that tokens carry: 64-bit integers, floating-point numbers and texts. A word is read
as the first of these that it writes. -/
namespace Pushdown

inductive Value where
  | int (n : Int64)
  | real (x : Float)
  | text (s : String)

namespace Value

/-- An integer if the word is one that fits in 64 bits, else a real number, else a text. -/
def ofWord (word : String) : Value :=
  match Numeral.readInt64 word.toList with
  | some n => .int n
  | none =>
    match Numeral.readReal word.toList with
    | some x => .real x
    | none => .text word

def text? : Value → Option String
  | .text s => some s
  | _ => none

def render : Value → String
  | .int n => String.ofList (Numeral.writeInt64 n)
  | .real x => String.ofList (Numeral.writeReal x)
  | .text s => s

/-- The value with its kind, as messages show it. -/
def describe : Value → String
  | .int n => s!"Int({String.ofList (Numeral.writeInt64 n)})"
  | .real x => s!"Real({String.ofList (Numeral.writeReal x)})"
  | .text s => s!"Text({Text.quoted s})"

end Value

end Pushdown
