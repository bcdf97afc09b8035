import Pushdown.Text.Range

/-! White space, and the divisions of a text that depend on it: trimming, words and lines.
All of them work on lists of characters, so that what they keep can be compared with what
they were given. -/
namespace Pushdown.Text

/-- The characters with the Unicode property White_Space. -/
def blanks : List (Nat × Nat) :=
  [(0x9, 0xD), (0x20, 0x20), (0x85, 0x85), (0xA0, 0xA0), (0x1680, 0x1680), (0x2000, 0x200A),
   (0x2028, 0x2029), (0x202F, 0x202F), (0x205F, 0x205F), (0x3000, 0x3000)]

def isBlank (c : Char) : Bool := within blanks c

/-- The four blanks that separate the words of a command or a header: space, tab and the two
characters of a line break. -/
def isGap (c : Char) : Bool := c = ' ' || c = '\t' || c = '\r' || c = '\n'

def trimLeft (cs : List Char) : List Char := cs.dropWhile isBlank

def trimRight (cs : List Char) : List Char := (cs.reverse.dropWhile isBlank).reverse

def trim (cs : List Char) : List Char := trimRight (trimLeft cs)

/-- A text without the blanks at its two ends. -/
def strip (s : String) : String := String.ofList (trim s.toList)

theorem length_lt_of_dropWhile_eq_cons {α : Type} {p : α → Bool} {as rest : List α} {a : α}
    (h : as.dropWhile p = a :: rest) : rest.length < as.length := by
  have hle := (List.dropWhile_sublist (l := as) p).length_le
  rw [h, List.length_cons] at hle
  omega

/-- The maximal runs of characters that are not blank. -/
def words (cs : List Char) : List (List Char) :=
  match h : cs.dropWhile isBlank with
  | [] => []
  | c :: rest =>
    have := length_lt_of_dropWhile_eq_cons h
    have := (List.dropWhile_sublist (l := rest) (!isBlank ·)).length_le
    (c :: rest.takeWhile (!isBlank ·)) :: words (rest.dropWhile (!isBlank ·))
termination_by cs.length

/-- The lines of a text. A line feed ends a line and takes one carriage return before it along;
the text after the last line feed is a line only if there is any. -/
def lines (cs : List Char) : List (List Char) :=
  let line := cs.takeWhile (· ≠ '\n')
  match h : cs.dropWhile (· ≠ '\n') with
  | [] => if line.isEmpty then [] else [line]
  | _ :: rest =>
    have := length_lt_of_dropWhile_eq_cons h
    (if line.getLast? = some '\r' then line.dropLast else line) :: lines rest
termination_by cs.length

/-- The word a text begins with, and what follows it. Gaps before the word are skipped; any
other blank there is no word. -/
def nextWord (cs : List Char) : Option (List Char × List Char) :=
  match (cs.dropWhile isGap).span (!isBlank ·) with
  | ([], _) => none
  | (word, rest) => some (word, rest)

end Pushdown.Text
