import Mathlib.Algebra.Group.Nat.Defs
import Pushdown.Proofs.Words

/-! Written numerals. Each is a single word, and integers are read back as they were; an address is read
back as the integer of the same number, as long as there is one. -/
namespace Pushdown.Numeral

open Text

theorem readNat_writeNat (n : Nat) : readNat (writeNat n) = some n := by
  have digits : (writeNat n).any (!·.isDigit) = false := by
    rw [List.any_eq_false]
    intro c member
    simp [Nat.isDigit_of_mem_toDigits (by decide) (by decide) member]
  have nonempty : (writeNat n).isEmpty = false := by
    exact List.isEmpty_eq_false_iff.mpr Nat.toDigits_ne_nil
  have value : ofDigits (writeNat n) = n := Nat.ofDigitChars_ten_toDigits
  simp only [readNat, nonempty, digits, Bool.or_self, Bool.false_eq_true, if_false, value]

/-- A numeral of digits only has no sign in front. -/
theorem writeNat_ne_cons {n : Nat} {sign : Char} {rest : List Char} (other : sign.isDigit = false) :
    writeNat n ≠ sign :: rest := by
  intro same
  have member : sign ∈ writeNat n := same ▸ List.mem_cons_self
  rw [Nat.isDigit_of_mem_toDigits (by decide) (by decide) member] at other
  cases other

theorem readUnsigned_writeNat (n : Nat) : readUnsigned (writeNat n) = some n := by
  unfold readUnsigned
  split
  · rename_i signed
    exact absurd signed (writeNat_ne_cons (by decide))
  · exact readNat_writeNat n

theorem readInt_writeInt (n : Int) : readInt (writeInt n) = some n := by
  unfold writeInt
  split
  · rename_i negative
    have magnitude : -(n.natAbs : Int) = n := by omega
    rw [readInt, readNat_writeNat]
    exact congrArg some magnitude
  · rename_i positive
    unfold readInt
    split
    · rename_i signed
      exact absurd signed (writeNat_ne_cons (by decide))
    · have magnitude : (n.natAbs : Int) = n := by omega
      rw [readUnsigned_writeNat]
      exact congrArg some magnitude

theorem readInt64_writeInt64 (n : Int64) : readInt64 (writeInt64 n) = some n := by
  have fits : -0x8000000000000000 ≤ n.toInt ∧ n.toInt < 0x8000000000000000 :=
    ⟨n.le_toInt, n.toInt_lt⟩
  simp only [readInt64, writeInt64, readInt_writeInt, Option.bind_some, if_pos fits,
    Int64.ofInt_toInt]

theorem writeInt64_ofNat {a : Nat} (fits : a < 2 ^ 63) :
    writeInt64 (Int64.ofNat a) = writeNat a := by
  simp [writeInt64, writeInt, Int64.toInt_ofNat_of_lt fits]

theorem isBlank_of_isDigit {c : Char} (digit : c.isDigit = true) : isBlank c = false := by
  simp only [Char.isDigit, Bool.and_eq_true, decide_eq_true_eq, UInt32.le_iff_toNat_le] at digit
  have low : 48 ≤ c.toNat := digit.1
  have high : c.toNat ≤ 57 := digit.2
  clear digit
  simp only [isBlank, within, blanks, List.any_cons, List.any_nil, Bool.or_eq_false_iff,
    Bool.and_eq_false_iff, decide_eq_false_iff_not]
  grind

theorem solid_writeNat (n : Nat) : Solid (writeNat n) := fun _ member =>
  isBlank_of_isDigit (Nat.isDigit_of_mem_toDigits (by decide) (by decide) member)

theorem isWord_writeNat (n : Nat) : IsWord (writeNat n) := ⟨Nat.toDigits_ne_nil, solid_writeNat n⟩

theorem isWord_writeInt (n : Int) : IsWord (writeInt n) := by
  unfold writeInt
  split
  · exact ⟨List.cons_ne_nil _ _, solid_cons_iff.mpr ⟨by decide, solid_writeNat _⟩⟩
  · exact isWord_writeNat _

theorem solid_replicate (n : Nat) : Solid (List.replicate n '0') := by
  intro c member
  rw [List.eq_of_mem_replicate member]
  decide

theorem isWord_positional {ds : List Char} (solid : Solid ds) (point : Int) :
    IsWord (positional ds point) := by
  unfold positional
  split
  · refine ⟨List.cons_ne_nil _ _, ?_⟩
    simp only [solid_cons_iff, solid_append_iff]
    exact ⟨by decide, by decide, solid_replicate _, solid⟩
  · refine ⟨by simp, ?_⟩
    have whole : Solid (ds.take point.toNat) := fun c member => solid c (List.mem_of_mem_take member)
    have fraction : Solid (if (ds.drop point.toNat).isEmpty then ['0'] else ds.drop point.toNat) := by
      split
      · decide
      · exact fun c member => solid c (List.mem_of_mem_drop member)
    simp only [solid_append_iff, solid_cons_iff]
    exact ⟨⟨whole, solid_replicate _⟩, by decide, fraction⟩

theorem isWord_scientific {ds : List Char} (solid : Solid ds) (point : Int) :
    IsWord (scientific ds point) := by
  refine ⟨by simp [scientific], ?_⟩
  have whole : Solid (ds.take 1) := fun c member => solid c (List.mem_of_mem_take member)
  have fraction : Solid (if (ds.drop 1).isEmpty then [] else '.' :: ds.drop 1) := by
    split
    · exact solid_nil
    · exact solid_cons_iff.mpr ⟨by decide, fun c member => solid c (List.mem_of_mem_drop member)⟩
  simp only [scientific, solid_append_iff, solid_cons_iff]
  exact ⟨⟨whole, fraction⟩, by decide, (isWord_writeInt _).solid⟩

theorem isWord_writeReal (x : Float) : IsWord (writeReal x) := by
  have digits (d : Decimal) : IsWord (d.write RealStyle.standard) := by
    unfold Decimal.write
    dsimp only
    split
    · exact isWord_positional (solid_writeNat _) _
    · exact isWord_scientific (solid_writeNat _) _
  have signed {bits : Nat} {cs : List Char} (word : IsWord cs) :
      IsWord ((if bits < 0x8000000000000000 then [] else ['-']) ++ cs) := by
    refine ⟨by simp [word.nonempty], solid_append_iff.mpr ⟨?_, word.solid⟩⟩
    split
    · exact solid_nil
    · exact solid_cons_iff.mpr ⟨by decide, solid_nil⟩
  unfold writeReal RealStyle.write
  dsimp only
  split
  · exact signed ⟨List.cons_ne_nil _ _, by decide⟩
  · split
    · exact signed (digits _)
    · split
      · exact signed ⟨by decide, by decide⟩
      · exact ⟨by decide, by decide⟩

end Pushdown.Numeral
