/-! Columns of text: padding to a width, and lists of entries side by side. A width counts
characters where text is padded. Widths that are taken from a set of entries are the largest
number of bytes among them, which is at least the number of characters. -/
namespace Pushdown.Text

def spaces (n : Nat) : String := String.ofList (List.replicate n ' ')

/-- Pads on the left. -/
def alignRight (width : Nat) (s : String) : String := spaces (width - s.length) ++ s

/-- Pads on the right. -/
def alignLeft (width : Nat) (s : String) : String := s ++ spaces (width - s.length)

/-- The largest number of bytes in an entry. -/
def widest (entries : List String) : Nat :=
  entries.foldl (fun width s => max width s.utf8ByteSize) 0

def joined (separator : String) (entries : List String) : String :=
  separator.intercalate entries

end Pushdown.Text
