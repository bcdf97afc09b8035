/-! The shortest decimal that identifies a binary floating-point number. The reals that round to a
finite double form an interval around it, its ends included when the significand is even. Among
the powers of ten, from the coarse to the fine, the first whose multiples meet that interval
decides how many digits are needed, and the nearest multiple decides which. -/
namespace Pushdown.Numeral

/-- A positive binary number `significand * 2 ^ exponent`. The flag tells whether the next smaller
double is only half as far away as the next larger one. -/
structure Binary where
  significand : Nat
  exponent : Int
  narrowBelow : Bool
deriving Repr, DecidableEq

/-- A decimal number `digits * 10 ^ exponent`. -/
structure Decimal where
  digits : Nat
  exponent : Int
deriving Repr, DecidableEq

/-- The magnitude of a finite double. -/
def Binary.ofBits (bits : Nat) : Binary :=
  let fraction : Nat := bits % Nat.pow 2 52
  let field : Nat := bits / Nat.pow 2 52 % Nat.pow 2 11
  if field = 0 then ⟨fraction, -1074, false⟩
  else ⟨Nat.pow 2 52 + fraction, (field : Int) - 1075, fraction = 0⟩

/-- The multiple of `10 ^ power` nearest to a number, if it rounds to that number. Of two multiples
at the same distance the larger is taken. All quantities are scaled by four and by the powers in
the denominators, which makes them natural numbers. -/
def Binary.multiple? (x : Binary) (power : Int) : Option Decimal :=
  let scale := Nat.pow 2 x.exponent.toNat * Nat.pow 10 (-power).toNat
  let unit := 4 * Nat.pow 2 (-x.exponent).toNat * Nat.pow 10 power.toNat
  let value := 4 * x.significand * scale
  let low := (4 * x.significand - if x.narrowBelow then 1 else 2) * scale
  let high := (4 * x.significand + 2) * scale
  let inside (n : Nat) : Bool :=
    if x.significand % 2 = 0 then low ≤ n && n ≤ high else low < n && n < high
  let below := value / unit
  let above := below + 1
  match inside (below * unit), inside (above * unit) with
  | true, true =>
    if value - below * unit < above * unit - value then some ⟨below, power⟩ else some ⟨above, power⟩
  | true, false => some ⟨below, power⟩
  | false, true => some ⟨above, power⟩
  | false, false => none

/-- An upper estimate of the decimal exponent of a number: `10 ^ x.ceiling` exceeds it. -/
def Binary.ceiling (x : Binary) : Int :=
  (x.exponent + x.significand.log2 + 1) * 30103 / 100000 + 1

/-- The shortest decimal that rounds to a positive number. Eighteen digits below the estimate
suffice, since seventeen tell any two doubles apart. -/
def Binary.shortest (x : Binary) : Decimal :=
  ((List.range 20).findSome? fun n : Nat => x.multiple? (x.ceiling - n)).getD ⟨0, 0⟩

end Pushdown.Numeral
