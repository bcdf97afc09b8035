import Pushdown.Proofs.Syntax

/-! Scanned tokens. What a text is cut into has the shape that the syntax of programs expects. -/
namespace Pushdown

/-- Digits without a sign never write a negative integer. -/
theorem Numeral.readInt64_nonneg {cs : List Char} {n : Int64} (read : readInt64 cs = some n)
    (unsigned : cs.head? ≠ some '-') : 0 ≤ n := by
  obtain ⟨i, readInt, fits⟩ := Option.bind_eq_some_iff.mp read
  have nonneg : 0 ≤ i := by
    unfold Numeral.readInt at readInt
    split at readInt
    · simp at unsigned
    · obtain ⟨_, lifted, rfl⟩ := Option.map_eq_some_iff.mp readInt
      obtain ⟨k, _, cast⟩ := Option.bind_eq_some_iff.mp lifted
      cases cast
      exact Int.natCast_nonneg k
  split at fits
  · rename_i bounds
    cases fits
    rw [Int64.le_iff_toInt_le, Int64.toInt_ofInt_of_le bounds.1 bounds.2]
    exact nonneg
  · cases fits

namespace Token

theorem ofRun_shaped {run : List Char} {t : Token} (made : ofRun run = some t) : t.Shaped := by
  unfold ofRun at made
  split at made
  · rename_i digits
    obtain ⟨n, read, rfl⟩ := Option.map_eq_some_iff.mp made
    refine .integer n (Numeral.readInt64_nonneg read ?_)
    intro signed
    cases run with
    | nil => cases signed
    | cons c rest =>
      cases signed
      simp at digits
  · dsimp only at made
    split at made
    · rename_i member
      cases made
      have named : ∀ word ∈ reserved, "$" ++ word ≠ "$id" ∧ "$" ++ word ≠ "$int" := by decide
      exact .symbol _ (named _ member).1 (named _ member).2
    · cases made
      exact .identifier _

theorem map_cons_eq_ok {read : Except Nat (List Token)} {t : Token} {tokens : List Token}
    (mapped : read.map (t :: ·) = .ok tokens) : ∃ rest, read = .ok rest ∧ tokens = t :: rest := by
  cases read with
  | error => cases mapped
  | ok rest =>
    cases mapped
    exact ⟨rest, rfl, rfl⟩

theorem scanFrom_shaped {offset : Nat} {cs : List Char} {tokens : List Token}
    (scanned : scanFrom offset cs = .ok tokens) : ∀ t ∈ tokens, t.Shaped := by
  fun_induction scanFrom offset cs generalizing tokens with
  | case1 =>
    cases scanned
    simp
  | case2 => cases scanned
  | case3 offset c rest letter shorter run token made =>
    rename_i ih
    obtain ⟨later, read, rfl⟩ := map_cons_eq_ok scanned
    exact List.forall_mem_cons.mpr ⟨ofRun_shaped made, ih read⟩
  | case4 offset c rest other punctuation ih =>
    obtain ⟨later, read, rfl⟩ := map_cons_eq_ok scanned
    have short (name : String) (long : 1 < name.length) : String.singleton c ≠ name := by
      rintro rfl
      simp at long
    exact List.forall_mem_cons.mpr
      ⟨.symbol _ (short "$id" (by decide)) (short "$int" (by decide)), ih read⟩
  | case5 offset c rest other separator ih => exact ih scanned

theorem scan_eq_ok {text : String} {tokens : List Token} (scanned : scan text = .ok tokens) :
    scanFrom 0 text.toList = .ok tokens := by
  unfold scan at scanned
  cases whole : scanFrom 0 text.toList with
  | error =>
    rw [whole] at scanned
    cases scanned
  | ok read =>
    rw [whole] at scanned
    cases scanned
    rfl

theorem scan_shaped {text : String} {tokens : List Token} (scanned : scan text = .ok tokens) :
    ∀ t ∈ tokens, t.Shaped :=
  scanFrom_shaped (scan_eq_ok scanned)

end Token

end Pushdown
