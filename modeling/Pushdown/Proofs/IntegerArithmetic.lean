import Mathlib
import Pushdown.Proofs.Likeness

/-! Integer arithmetic against exact arithmetic. What is computed from two 64-bit integers is the exact
result, reduced to 64 bits. Division needs an argument: the quotient that the machine finds is rounded
towards zero, and one is taken off where the exact quotient lies below it. -/
namespace Pushdown

/-- The exact result on whole numbers, where a quotient is rounded down. -/
def Arithmetic.exact : Arithmetic → Int → Int → Int
  | .add, l, r => l + r
  | .sub, l, r => l - r
  | .mul, l, r => l * r
  | .div, l, r => ⌊(l : ℚ) / r⌋

/-- One is taken off the quotient: the division leaves a rest, and the signs differ. -/
def TakesOne (l r : Int64) : Prop := l % r ≠ 0 ∧ decide (l < 0) ≠ decide (r < 0)

instance (l r : Int64) : Decidable (TakesOne l r) :=
  inferInstanceAs (Decidable (l % r ≠ 0 ∧ decide (l < 0) ≠ decide (r < 0)))

theorem floorDiv_eq (l r : Int64) : floorDiv l r = if TakesOne l r then l / r - 1 else l / r := rfl

theorem takesOne_iff {l r : Int64} :
    TakesOne l r ↔ l.toInt.tmod r.toInt ≠ 0 ∧ (l.toInt < 0 ↔ 0 ≤ r.toInt) := by
  have rest : l % r ≠ 0 ↔ l.toInt.tmod r.toInt ≠ 0 := by
    rw [← Int64.toInt_mod, ← Int64.toInt_zero, ne_eq, ne_eq, Int64.toInt_inj]
  have signs : decide (l < 0) ≠ decide (r < 0) ↔ (l.toInt < 0 ↔ 0 ≤ r.toInt) := by
    rw [ne_eq, decide_eq_decide, Int64.lt_iff_toInt_lt, Int64.lt_iff_toInt_lt, Int64.toInt_zero]
    omega
  exact and_congr rest signs

section Quotients

variable {l r : Int}

/-- The rest of a division has the sign of the dividend. -/
theorem tmod_sign (l r : Int) : (0 ≤ l → 0 ≤ l.tmod r) ∧ (l < 0 → l.tmod r ≤ 0) := by
  constructor
  · exact Int.tmod_nonneg r
  · intro negative
    have mirrored := Int.tmod_nonneg r (by omega : 0 ≤ -l)
    rw [Int.neg_tmod] at mirrored
    omega

/-- The exact quotient is the one rounded towards zero and a fraction for the rest. -/
theorem exact_quotient (nonzero : r ≠ 0) : (l : ℚ) / r = l.tdiv r + (l.tmod r : ℚ) / r := by
  have whole : (l.tmod r : ℚ) + r * l.tdiv r = l := by exact_mod_cast Int.tmod_add_mul_tdiv l r
  have nonzero : (r : ℚ) ≠ 0 := by exact_mod_cast nonzero
  field_simp
  linarith

theorem abs_fraction_lt_one (nonzero : r ≠ 0) : |(l.tmod r : ℚ) / r| < 1 := by
  have smaller : |l.tmod r| < |r| := by
    rw [Int.abs_eq_natAbs, Int.abs_eq_natAbs, Int.natAbs_tmod]
    exact_mod_cast Nat.mod_lt _ (Int.natAbs_pos.mpr nonzero)
  have positive : 0 < |(r : ℚ)| := abs_pos.mpr (by exact_mod_cast nonzero)
  rw [abs_div, div_lt_one positive]
  exact_mod_cast smaller

theorem floor_of_opposite (nonzero : r ≠ 0) (leaves : l.tmod r ≠ 0) (differ : l < 0 ↔ 0 ≤ r) :
    ⌊(l : ℚ) / r⌋ = l.tdiv r - 1 := by
  have bounds := abs_lt.mp (abs_fraction_lt_one (l := l) nonzero)
  have negative : (l.tmod r : ℚ) / r < 0 := by
    obtain ⟨above, below⟩ := tmod_sign l r
    rcases lt_or_ge l 0 with isNegative | isNonneg
    · have rest : l.tmod r < 0 := lt_of_le_of_ne (below isNegative) leaves
      have divisor : 0 < r := lt_of_le_of_ne (differ.mp isNegative) nonzero.symm
      exact div_neg_of_neg_of_pos (by exact_mod_cast rest) (by exact_mod_cast divisor)
    · have rest : 0 < l.tmod r := lt_of_le_of_ne (above isNonneg) leaves.symm
      have divisor : r < 0 := by omega
      exact div_neg_of_pos_of_neg (by exact_mod_cast rest) (by exact_mod_cast divisor)
  rw [Int.floor_eq_iff, exact_quotient nonzero]
  push_cast
  constructor
  · linarith [bounds.1]
  · linarith

theorem floor_of_alike (nonzero : r ≠ 0) (alike : l.tmod r = 0 ∨ ¬(l < 0 ↔ 0 ≤ r)) :
    ⌊(l : ℚ) / r⌋ = l.tdiv r := by
  have bounds := abs_lt.mp (abs_fraction_lt_one (l := l) nonzero)
  have nonneg : 0 ≤ (l.tmod r : ℚ) / r := by
    rcases alike with exact | same
    · simp [exact]
    · obtain ⟨above, below⟩ := tmod_sign l r
      rcases lt_or_ge l 0 with isNegative | isNonneg
      · have divisor : r ≤ 0 := by omega
        exact div_nonneg_of_nonpos (by exact_mod_cast below isNegative) (by exact_mod_cast divisor)
      · have divisor : 0 ≤ r := by omega
        exact div_nonneg (by exact_mod_cast above isNonneg) (by exact_mod_cast divisor)
  rw [Int.floor_eq_iff, exact_quotient nonzero]
  constructor
  · linarith
  · linarith [bounds.2]

end Quotients

theorem toInt_floorDiv {l r : Int64} (nonzero : r ≠ 0) :
    (floorDiv l r).toInt = (Arithmetic.div.exact l.toInt r.toInt).bmod (2 ^ 64) := by
  have divisor : r.toInt ≠ 0 := by
    rw [← Int64.toInt_zero, Ne, Int64.toInt_inj]
    exact nonzero
  rw [floorDiv_eq, Arithmetic.exact]
  split
  · rename_i takes
    obtain ⟨leaves, differ⟩ := takesOne_iff.mp takes
    rw [floor_of_opposite divisor leaves differ, Int64.toInt_sub, Int64.toInt_div]
    exact Int.bmod_sub_bmod
  · rename_i keeps
    rw [takesOne_iff, not_and_or, not_not] at keeps
    rw [floor_of_alike divisor keeps, Int64.toInt_div]

/-- A division that leaves a rest is by a number other than one and minus one, so that its quotient lies
well within the range. -/
theorem tdiv_bounds {l r : Int64} (leaves : l.toInt.tmod r.toInt ≠ 0) :
    -2 ^ 62 ≤ l.toInt.tdiv r.toInt ∧ l.toInt.tdiv r.toInt ≤ 2 ^ 62 := by
  have lower := l.le_toInt
  have upper := l.toInt_lt
  have size : (l.toInt.tdiv r.toInt).natAbs = l.toInt.natAbs / r.toInt.natAbs := Int.natAbs_tdiv ..
  have unlike : r.toInt.natAbs ≠ 1 := by
    intro unit
    apply leaves
    rw [← Int.natAbs_eq_zero, Int.natAbs_tmod, unit, Nat.mod_one]
  have halved : l.toInt.natAbs / r.toInt.natAbs ≤ 2 ^ 62 := by
    rcases Nat.eq_zero_or_pos r.toInt.natAbs with zero | positive
    · rw [zero, Nat.div_zero]
      exact Nat.zero_le _
    · calc l.toInt.natAbs / r.toInt.natAbs ≤ l.toInt.natAbs / 2 :=
            Nat.div_le_div_left (by omega) Nat.two_pos
        _ ≤ 2 ^ 62 := by omega
  omega

/-- One can be taken off a quotient that lies above the exact one. -/
theorem TakesOne.within {l r : Int64} (takes : TakesOne l r) :
    -2 ^ 63 ≤ (l / r).toInt - 1 ∧ (l / r).toInt - 1 < 2 ^ 63 := by
  obtain ⟨lower, upper⟩ := tdiv_bounds (takesOne_iff.mp takes).1
  rw [Int64.toInt_div, Int.bmod_eq_of_le (by norm_num; omega) (by norm_num; omega)]
  constructor <;> omega

namespace Arithmetic

theorem onInts_eq_ok (op : Arithmetic) {l r : Int64} (defined : ¬(op = .div ∧ r = 0)) :
    ∃ n, op.onInts l r = .ok n ∧ n.toInt = (op.exact l.toInt r.toInt).bmod (2 ^ 64) := by
  cases op with
  | add => exact ⟨l + r, rfl, Int64.toInt_add l r⟩
  | sub => exact ⟨l - r, rfl, Int64.toInt_sub l r⟩
  | mul => exact ⟨l * r, rfl, Int64.toInt_mul l r⟩
  | div =>
    have nonzero : r ≠ 0 := fun zero => defined ⟨rfl, zero⟩
    exact ⟨floorDiv l r, if_neg nonzero, toInt_floorDiv nonzero⟩

theorem apply_ints (op : Arithmetic) (l r : Int64) :
    op.apply (.int l) (.int r) = (op.onInts l r).map .int := by
  rw [apply_eq op fun _ _ isText => Cell.noConfusion isText]
  rfl

/-- An operand may be exchanged for another one that is shown alike and counts as the same number. -/
theorem apply_agree (op : Arithmetic) {c d c' d' : Cell} (shown : c.render = d.render)
    (shown' : c'.render = d'.render) (number : Number.ofCell? c = Number.ofCell? d)
    (number' : Number.ofCell? c' = Number.ofCell? d')
    (apart : ∀ l r, c = .text l → c' ≠ .text r) (apart' : ∀ l r, d = .text l → d' ≠ .text r) :
    Agree Eq OperandError.message (op.apply c c') (op.apply d d') := by
  rw [apply_eq op apart, apply_eq op apart', number, number']
  split
  · exact .refl _
  · refine .error ?_
    simp only [OperandError.message, shown, shown']

end Arithmetic

/-- Arithmetic on two integers gives the exact result, reduced to 64 bits, unless it divides by zero, and
then it says so. Where one is taken off a quotient, this stays in the range. An address below 2 ^ 63 serves
as the integer of the same number, be it the left operand or the right one. -/
theorem integer_arithmetic_is_exact (op : Arithmetic) (l r : Int64) :
    (¬(op = .div ∧ r = 0) → ∃ n, op.apply (.int l) (.int r) = .ok (.int n) ∧
      n.toInt = (op.exact l.toInt r.toInt).bmod (2 ^ 64)) ∧
    (op.apply (.int l) (.int r) = .error .divisionByZero ↔ op = .div ∧ r = 0) ∧
    (floorDiv l r = if TakesOne l r then l / r - 1 else l / r) ∧
    (TakesOne l r → -2 ^ 63 ≤ (l / r).toInt - 1 ∧ (l / r).toInt - 1 < 2 ^ 63) ∧
    ∀ a : Nat, a < 2 ^ 63 → ∃ n : Int64, n.toInt = a ∧ ∀ c,
      Agree Eq OperandError.message (op.apply (.address a) c) (op.apply (.int n) c) ∧
      Agree Eq OperandError.message (op.apply c (.address a)) (op.apply c (.int n)) := by
  have computed : ¬(op = .div ∧ r = 0) → ∃ n, op.apply (.int l) (.int r) = .ok (.int n) ∧
      n.toInt = (op.exact l.toInt r.toInt).bmod (2 ^ 64) := by
    intro defined
    obtain ⟨n, found, exact⟩ := op.onInts_eq_ok defined
    refine ⟨n, ?_, exact⟩
    rw [op.apply_ints, found]
    rfl
  refine ⟨computed, ⟨?_, ?_⟩, floorDiv_eq l r, TakesOne.within, ?_⟩
  · intro failed
    by_contra defined
    obtain ⟨n, found, _⟩ := computed defined
    rw [found] at failed
    cases failed
  · rintro ⟨rfl, rfl⟩
    rfl
  · intro a fits
    refine ⟨Int64.ofNat a, Int64.toInt_ofNat_of_lt fits, fun c => ?_⟩
    have shown : (Cell.address a).render = (Cell.int (Int64.ofNat a)).render := by
      simp only [Cell.render, Numeral.writeInt64_ofNat fits]
    constructor
    · exact op.apply_agree shown rfl rfl rfl (fun _ _ isText => Cell.noConfusion isText)
        (fun _ _ isText => Cell.noConfusion isText)
    · exact op.apply_agree rfl shown rfl rfl (fun _ _ _ isText => Cell.noConfusion isText)
        (fun _ _ _ isText => Cell.noConfusion isText)

/-- Next to the lower limit, and with the greatest address that is an integer. -/
theorem integer_arithmetic_is_exact_limits :
    ¬(Arithmetic.div = .div ∧ (2 : Int64) = 0) ∧ TakesOne (Int64.minValue + 1) 2 ∧
      2 ^ 63 - 1 < 2 ^ 63 ∧
      (∃ n, Arithmetic.div.apply (.int (Int64.minValue + 1)) (.int 2) = .ok (.int n) ∧
        n.toInt = -2 ^ 62) ∧
      -2 ^ 63 ≤ ((Int64.minValue + 1) / 2).toInt - 1 ∧
      ∃ n : Int64, n.toInt = 2 ^ 63 - 1 ∧
        Agree Eq OperandError.message (Arithmetic.div.apply (.text "x") (.address (2 ^ 63 - 1)))
          (Arithmetic.div.apply (.text "x") (.int n)) := by
  have defined : ¬(Arithmetic.div = .div ∧ (2 : Int64) = 0) := by decide
  have takes : TakesOne (Int64.minValue + 1) 2 := by decide
  have fits : 2 ^ 63 - 1 < 2 ^ 63 := by decide
  obtain ⟨computed, _, _, within, addresses⟩ :=
    integer_arithmetic_is_exact .div (Int64.minValue + 1) 2
  obtain ⟨n, found, exact⟩ := computed defined
  obtain ⟨number, same, alike⟩ := addresses (2 ^ 63 - 1) fits
  have value : (Arithmetic.div.exact (Int64.minValue + 1).toInt (2 : Int64).toInt).bmod (2 ^ 64) =
      -2 ^ 62 := by
    decide +kernel
  exact ⟨defined, takes, fits, ⟨n, found, exact.trans value⟩, (within takes).1, number, same,
    (alike _).2⟩

end Pushdown
