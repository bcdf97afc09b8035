import Pushdown.Text.Unprintable

/-! Texts in quotation marks, as they appear in messages that show a value. A reader of the
message can tell every character of the text: quotation marks and backslashes are escaped, and
what would not show is written by name or by code point. -/
namespace Pushdown.Text

/-- One character between quotation marks. -/
def escape (c : Char) : List Char :=
  if c = '\x22' then ['\\', '\x22']
  else if c = '\\' then ['\\', '\\']
  else if c = '\n' then ['\\', 'n']
  else if c = '\t' then ['\\', 't']
  else if c = '\r' then ['\\', 'r']
  else if c.toNat = 0 then ['\\', '0']
  else if isUnprintable c then ['\\', 'u', '\x7b'] ++ Nat.toDigits 16 c.toNat ++ ['\x7d']
  else [c]

def quoted (s : String) : String :=
  String.ofList (['\x22'] ++ s.toList.flatMap escape ++ ['\x22'])

end Pushdown.Text
