import Pushdown.Machine.Cell
import Pushdown.Text.Stream

/-! What a machine reads from and prints to. Input is the list of lines still to be read, where a line
of a byte stream may turn out not to be text. Output is the list of printed lines, unless nobody
listens. -/
namespace Pushdown

structure Input where
  pending : List (Except Text.StreamError String)

namespace Input

def none : Input := ⟨[]⟩

/-- Lines that are given as they are. -/
def ofLines (lines : List String) : Input := ⟨lines.map .ok⟩

/-- The lines of a byte stream. -/
def ofBytes (bytes : List UInt8) : Input := ⟨Text.streamLines bytes⟩

def ofText (text : String) : Input := ofBytes (Text.encode text)

/-- The next line, or nothing at the end. A line that is no text is passed over all the same. -/
def read : Input → Except Text.StreamError (Option String) × Input
  | ⟨[]⟩ => (.ok .none, ⟨[]⟩)
  | ⟨.ok line :: rest⟩ => (.ok (some line), ⟨rest⟩)
  | ⟨.error e :: rest⟩ => (.error e, ⟨rest⟩)

end Input

inductive Output where
  | printed (lines : Array String)
  | ignored

namespace Output

def write : Output → Cell → Output
  | .printed lines, cell => .printed (lines.push cell.render)
  | .ignored, _ => .ignored

def lines : Output → Array String
  | .printed lines => lines
  | .ignored => #[]

end Output

end Pushdown
