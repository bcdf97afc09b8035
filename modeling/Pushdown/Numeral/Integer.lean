/-! Decimal numerals for natural numbers and for signed 64-bit integers. A numeral is made of
ASCII digits, with at most one sign in front where a sign is allowed; leading zeros do not
matter. -/
namespace Pushdown.Numeral

def digitValue (c : Char) : Nat := c.toNat - '0'.toNat

/-- The number written by a list of digits. -/
def ofDigits (digits : List Char) : Nat :=
  digits.foldl (fun n c => 10 * n + digitValue c) 0

def readNat (cs : List Char) : Option Nat :=
  if cs.isEmpty || cs.any (!·.isDigit) then none else some (ofDigits cs)

/-- A numeral that may carry a plus sign. -/
def readUnsigned : List Char → Option Nat
  | '+' :: digits => readNat digits
  | cs => readNat cs

def readInt : List Char → Option Int
  | '-' :: digits => (readNat digits).map fun n => -(n : Int)
  | cs => (readUnsigned cs).map fun n => (n : Int)

/-- A signed numeral whose number fits in 64 bits. -/
def readInt64 (cs : List Char) : Option Int64 :=
  (readInt cs).bind fun n =>
    if -0x8000000000000000 ≤ n ∧ n < 0x8000000000000000 then some (Int64.ofInt n) else none

def writeNat (n : Nat) : List Char := Nat.toDigits 10 n

def writeInt (n : Int) : List Char :=
  if n < 0 then '-' :: writeNat n.natAbs else writeNat n.natAbs

def writeInt64 (n : Int64) : List Char := writeInt n.toInt

end Pushdown.Numeral
