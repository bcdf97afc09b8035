import Pushdown.Numeral.Integer
import Pushdown.Numeral.Shortest

/-! Decimal notation of floating-point numbers. Writing gives the shortest digits that read back to
the same number, positionally in a middle range and with an exponent outside it. Reading takes
positional and exponent notation and the names of the special values, and rounds to nearest. -/
namespace Pushdown.Numeral

/-- How numbers are written: the range of decimal exponents that are positional, where `0.1` has
the exponent zero, and the names of the special values. -/
structure RealStyle where
  least : Int
  greatest : Int
  infinity : String
  undefined : String

/-- Numbers from `0.0001` up to sixteen integral digits are positional. -/
def RealStyle.standard : RealStyle := ⟨-3, 16, "inf", "NaN"⟩

/-- The digits `ds` with the decimal point after the first `point` of them. At least one digit stands
on each side of the point. -/
def positional (ds : List Char) (point : Int) : List Char :=
  if point ≤ 0 then '0' :: '.' :: (List.replicate (-point).toNat '0' ++ ds)
  else
    let whole := ds.take point.toNat
    let fraction := ds.drop point.toNat
    whole ++ List.replicate (point.toNat - whole.length) '0' ++
      '.' :: (if fraction.isEmpty then ['0'] else fraction)

/-- One digit, the others behind the point if there are any, and the exponent. -/
def scientific (ds : List Char) (point : Int) : List Char :=
  let fraction := ds.drop 1
  ds.take 1 ++ (if fraction.isEmpty then [] else '.' :: fraction) ++ 'e' :: writeInt (point - 1)

def Decimal.write (style : RealStyle) (d : Decimal) : List Char :=
  let ds := writeNat d.digits
  let point := ds.length + d.exponent
  if style.least ≤ point ∧ point ≤ style.greatest then positional ds point
  else scientific ds point

/-- Zero keeps its sign; what is not a number has none. -/
def RealStyle.write (style : RealStyle) (x : Float) : List Char :=
  let bits := x.toBits.toNat
  let sign := if bits < 0x8000000000000000 then [] else ['-']
  let magnitude := bits % 0x8000000000000000
  if magnitude = 0 then sign ++ ['0', '.', '0']
  else if magnitude < 0x7FF0000000000000 then
    sign ++ (Binary.ofBits magnitude).shortest.write style
  else if magnitude = 0x7FF0000000000000 then sign ++ style.infinity.toList
  else style.undefined.toList

def writeReal (x : Float) : List Char := RealStyle.standard.write x

/-- An exponent: a mark, an optional sign, and digits. Nothing at all is the exponent zero. -/
def readExponent : List Char → Option Int
  | [] => some 0
  | c :: cs => if c = 'e' || c = 'E' then readInt cs else none

/-- Digits with an optional point, at least one digit in all, and an optional exponent. -/
def readDecimal (cs : List Char) : Option Decimal :=
  let whole := cs.takeWhile Char.isDigit
  let rest := cs.dropWhile Char.isDigit
  let (fraction, rest) := match rest with
    | '.' :: rest => (rest.takeWhile Char.isDigit, rest.dropWhile Char.isDigit)
    | _ => ([], rest)
  if whole.isEmpty && fraction.isEmpty then none
  else (readExponent rest).map fun exponent =>
    ⟨ofDigits (whole ++ fraction), exponent - fraction.length⟩

/-- The double nearest to a decimal. Decimals beyond the range of doubles are settled by their
number of digits alone, so that no huge power is formed. -/
def Decimal.toFloat (d : Decimal) : Float :=
  let top := (writeNat d.digits).length + d.exponent
  if d.digits = 0 ∨ top < -400 then 0.0
  else if top > 400 then 1.0 / 0.0
  else Float.ofScientific d.digits (d.exponent < 0) d.exponent.natAbs

def readMagnitude (cs : List Char) : Option Float :=
  let name := String.ofList (cs.map Char.toLower)
  if name = "inf" ∨ name = "infinity" then some (1.0 / 0.0)
  else if name = "nan" then some (0.0 / 0.0)
  else (readDecimal cs).map Decimal.toFloat

def readReal : List Char → Option Float
  | '-' :: cs => (readMagnitude cs).map fun x => -x
  | '+' :: cs => readMagnitude cs
  | cs => readMagnitude cs

end Pushdown.Numeral
