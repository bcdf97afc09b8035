import Pushdown.ReadError
import Pushdown.Token.Basic

/-! From the text of a program to its tokens. A maximal run of ASCII letters and digits is an
integer if it has digits only, a reserved word, or else an identifier; an ASCII punctuation
character is a token of its own name; every other character separates. The one way to fail is an
integer that does not fit in 64 bits. -/
namespace Pushdown.Token

def reserved : List String :=
  ["declare", "put", "get", "stop", "goto", "if", "then", "end", "do"]

/-- The ASCII characters that show and are neither letters nor digits. -/
def isPunctuation (c : Char) : Bool :=
  33 ≤ c.toNat && c.toNat ≤ 126 && !c.isAlphanum

/-- The token of a run of letters and digits, unless it is an integer out of range. -/
def ofRun (run : List Char) : Option Token :=
  if run.all Char.isDigit then (Numeral.readInt64 run).map fun n => ⟨"$int", some (.int n)⟩
  else
    let word := String.ofList run
    if word ∈ reserved then some ⟨"$" ++ word, none⟩ else some ⟨"$id", some (.text word)⟩

/-- The tokens of a text that starts `offset` characters into the program, or the place of an
integer out of range. -/
def scanFrom (offset : Nat) (cs : List Char) : Except Nat (List Token) :=
  match cs with
  | [] => .ok []
  | c :: rest =>
    if c.isAlphanum then
      have := (List.dropWhile_sublist (l := rest) Char.isAlphanum).length_le
      let run := c :: rest.takeWhile Char.isAlphanum
      match ofRun run with
      | none => .error offset
      | some token =>
        (scanFrom (offset + run.length) (rest.dropWhile Char.isAlphanum)).map (token :: ·)
    else if isPunctuation c then
      (scanFrom (offset + 1) rest).map (⟨String.singleton c, none⟩ :: ·)
    else scanFrom (offset + 1) rest
termination_by cs.length

/-- The tokens of a program. -/
def scan (source : String) : Except ReadError (List Token) :=
  (scanFrom 0 source.toList).mapError fun offset =>
    .failed "source" source [⟨offset, "Digit"⟩, ⟨offset, "integer literal out of range"⟩]

end Pushdown.Token
