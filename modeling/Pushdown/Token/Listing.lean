import Pushdown.Text.Blank
import Pushdown.Token.Basic

/-! Token listings: texts that name tokens one after another. A name may be followed by the value of
its token, which is told from the next name by not being a name itself. -/
namespace Pushdown.Token

/-- A word that stands where a name should. -/
structure UnknownName where
  word : String
deriving Repr, DecidableEq

def UnknownName.message (e : UnknownName) : String := s!"Unknown token {e.word}"

/-- Reads the words of a listing, where `isName` tells names from values. -/
def ofWords (isName : String → Bool) : List String → Except UnknownName (List Token)
  | [] => .ok []
  | [name] => if isName name then .ok [⟨name, none⟩] else .error ⟨name⟩
  | name :: word :: rest =>
    if isName name then
      if isName word then (ofWords isName (word :: rest)).map (⟨name, none⟩ :: ·)
      else (ofWords isName rest).map (⟨name, some (.ofWord word)⟩ :: ·)
    else .error ⟨name⟩

def ofListing (isName : String → Bool) (text : String) : Except UnknownName (List Token) :=
  ofWords isName ((Text.words text.toList).map String.ofList)

/-- Tokens without values, from their names. -/
def ofNames (names : String) : List Token :=
  (Text.words names.toList).map fun name => ⟨String.ofList name, none⟩

end Pushdown.Token
