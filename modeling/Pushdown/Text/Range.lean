/-! Sets of characters given by ranges of code points. Character classes that follow a table of
a standard are lists of such ranges, each range holding both of its ends. -/
namespace Pushdown.Text

/-- Whether the code point of a character lies in one of the ranges. -/
def within (ranges : List (Nat × Nat)) (c : Char) : Bool :=
  ranges.any fun range => range.1 ≤ c.toNat && c.toNat ≤ range.2

end Pushdown.Text
