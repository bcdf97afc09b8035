import Pushdown.Machine.Cell

/-! Arithmetic and order on cells. Integers are 64-bit words with wrap-around, and division rounds the
quotient down. An address counts as the integer with the same 64 bits. If one operand is real the
other is made real. Texts can be joined and ordered; nothing else is defined. -/
namespace Pushdown

/-- What was to be done with two operands. -/
inductive Deed where
  | add
  | subtract
  | multiply
  | divide
  | negate
  | compare
deriving Repr, DecidableEq

def Deed.verb : Deed → String
  | .add => "add"
  | .subtract => "subtract"
  | .multiply => "multiply"
  | .divide => "divide"
  | .negate => "negate"
  | .compare => "compare"

inductive OperandError where
  | divisionByZero
  | mismatch (deed : Deed) (lhs rhs : Cell)

def OperandError.message : OperandError → String
  | .divisionByZero => "Attempt to divide by 0"
  | .mismatch deed lhs rhs => s!"Cannot {deed.verb} {lhs.render} and {rhs.render}"

/-- A cell taken as an operand of arithmetic. -/
inductive Number where
  | int (n : Int64)
  | real (x : Float)

namespace Number

def ofCell? : Cell → Option Number
  | .int n => some (.int n)
  | .address a => some (.int (Int64.ofNat a))
  | .real x => some (.real x)
  | _ => none

def toReal : Number → Float
  | .int n => n.toFloat
  | .real x => x

end Number

/-- The quotient rounded towards minus infinity, found from the quotient rounded towards zero. -/
def floorDiv (l r : Int64) : Int64 :=
  let quotient := l / r
  if l % r ≠ 0 ∧ (decide (l < 0) ≠ decide (r < 0)) then quotient - 1 else quotient

inductive Arithmetic where
  | add
  | sub
  | mul
  | div
deriving Repr, DecidableEq

namespace Arithmetic

def deed : Arithmetic → Deed
  | .add => .add
  | .sub => .subtract
  | .mul => .multiply
  | .div => .divide

def onInts (op : Arithmetic) (l r : Int64) : Except OperandError Int64 :=
  match op with
  | .add => .ok (l + r)
  | .sub => .ok (l - r)
  | .mul => .ok (l * r)
  | .div => if r = 0 then .error .divisionByZero else .ok (floorDiv l r)

def onReals (op : Arithmetic) (l r : Float) : Except OperandError Float :=
  match op with
  | .add => .ok (l + r)
  | .sub => .ok (l - r)
  | .mul => .ok (l * r)
  | .div => if r == 0.0 then .error .divisionByZero else .ok (l / r)

def onNumbers (op : Arithmetic) : Number → Number → Except OperandError Cell
  | .int l, .int r => (op.onInts l r).map .int
  | l, r => (op.onReals l.toReal r.toReal).map .real

def apply (op : Arithmetic) (lhs rhs : Cell) : Except OperandError Cell :=
  match op, lhs, rhs with
  | .add, .text l, .text r => .ok (.text (l ++ r))
  | op, lhs, rhs =>
    match Number.ofCell? lhs, Number.ofCell? rhs with
    | some l, some r => op.onNumbers l r
    | _, _ => .error (.mismatch op.deed lhs rhs)

end Arithmetic

def Cell.negate (c : Cell) : Except OperandError Cell :=
  match Number.ofCell? c with
  | some (.int n) => .ok (.int (-n))
  | some (.real x) => .ok (.real (-x))
  | none => .error (.mismatch .negate c .unset)

/-- Equality of cells: by value for numbers, else only with a cell of the same kind. -/
def Cell.equal (lhs rhs : Cell) : Bool :=
  match Number.ofCell? lhs, Number.ofCell? rhs with
  | some (.int l), some (.int r) => l == r
  | some l, some r => l.toReal == r.toReal
  | _, _ =>
    match lhs, rhs with
    | .text l, .text r => l == r
    | .opcode l, .opcode r => l == r
    | .unset, .unset => true
    | _, _ => false

def compareReals (l r : Float) : Option Ordering :=
  if l < r then some .lt else if l == r then some .eq else if l > r then some .gt else none

/-- The order of two numbers or of two texts. A real that is not a number is not ordered. -/
def Cell.compare (lhs rhs : Cell) : Except OperandError (Option Ordering) :=
  match Number.ofCell? lhs, Number.ofCell? rhs with
  | some (.int l), some (.int r) => .ok (some (compareOfLessAndEq l r))
  | some l, some r => .ok (compareReals l.toReal r.toReal)
  | _, _ =>
    match lhs, rhs with
    | .text l, .text r => .ok (some (compareOfLessAndEq l r))
    | _, _ => .error (.mismatch .compare lhs rhs)

/-- The relations and connectives that yield a truth value. -/
inductive Logic where
  | eq
  | ne
  | lt
  | le
  | gt
  | ge
  | and
  | or
deriving Repr, DecidableEq

def Logic.apply (op : Logic) (lhs rhs : Cell) : Except OperandError Bool :=
  match op with
  | .eq => .ok (lhs.equal rhs)
  | .ne => .ok (!lhs.equal rhs)
  | .and => .ok (lhs.holds && rhs.holds)
  | .or => .ok (lhs.holds || rhs.holds)
  | .lt => (lhs.compare rhs).map (· == some .lt)
  | .le => (lhs.compare rhs).map fun order => order == some .lt || order == some .eq
  | .gt => (lhs.compare rhs).map (· == some .gt)
  | .ge => (lhs.compare rhs).map fun order => order == some .gt || order == some .eq

end Pushdown
