import Pushdown.Value

/-! Tokens and the source that supplies them. A source gives its tokens in order, then the end
marker once, and nothing afterwards. -/
namespace Pushdown

/-- Names of tokens, and of the symbols of a grammar. -/
abbrev Symbol := String

structure Token where
  name : Symbol
  value : Option Value := none

/-- The name of the token behind the last one. -/
def endMarker : Symbol := "#"

def Token.render (t : Token) : String :=
  match t.value with
  | some value => s!"({t.name}, {value.render})"
  | none => t.name

structure TokenSource where
  pending : List Token
  ended : Bool := false

namespace TokenSource

def ofTokens (tokens : List Token) : TokenSource := ⟨tokens, false⟩

/-- The next token, if there is one, and the source after it. -/
def next : TokenSource → Option Token × TokenSource
  | ⟨token :: rest, ended⟩ => (some token, ⟨rest, ended⟩)
  | ⟨[], true⟩ => (none, ⟨[], true⟩)
  | ⟨[], false⟩ => (some ⟨endMarker, none⟩, ⟨[], true⟩)

/-- What remains to be supplied, the end marker included. -/
def toList : TokenSource → List Token
  | ⟨pending, true⟩ => pending
  | ⟨pending, false⟩ => pending ++ [⟨endMarker, none⟩]

end TokenSource

end Pushdown
