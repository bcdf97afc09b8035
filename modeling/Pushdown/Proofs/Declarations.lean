import Pushdown.Grammar.Basic

/-! Declared symbols. In a checked grammar the start symbol is a nonterminal, and whatever stands in a rule is
declared. -/
namespace Pushdown

/-- All symbols of a rule are declared. -/
structure Rule.Declared (g : Grammar) (rule : Rule) : Prop where
  left : rule.left ∈ g.declared
  right : ∀ s ∈ rule.right, s ∈ g.declared
  lookahead : ∀ s ∈ rule.lookahead, s ∈ g.declared

namespace Grammar

variable {g : Grammar}

theorem mem_declared_iff {s : Symbol} : s ∈ g.declared ↔ g.kind? s ≠ none := by
  unfold declared kind?
  grind

theorem start_kind (checked : g.check = .ok ()) : g.kind? g.start = some .nonterminal := by
  unfold check at checked
  split at checked
  · cases checked
  · split at checked
    · cases checked
    · simpa using ‹¬ g.kind? g.start ≠ some .nonterminal›

theorem start_declared (checked : g.check = .ok ()) : g.start ∈ g.declared := by
  rw [mem_declared_iff, start_kind checked]
  nofun

theorem undefined?_eq_none {rule : Rule} (defined : g.undefined? rule = none) : rule.Declared g := by
  unfold undefined? at defined
  split at defined
  · cases defined
  · rename_i left
    split at defined
    · cases defined
    · rename_i none
      refine ⟨?_, fun s member => ?_, fun s member => ?_⟩
      · rw [mem_declared_iff, Decidable.not_not.mp left]
        nofun
      · rw [mem_declared_iff]
        simpa using List.find?_eq_none.mp none s member
      · have terminal := List.find?_eq_none.mp defined s member
        rw [mem_declared_iff]
        intro unknown
        simp [isTerminal, unknown] at terminal

theorem declared_of_check {rule : Rule} (checked : g.check = .ok ()) (member : rule ∈ g.rules) :
    rule.Declared g := by
  unfold check at checked
  split at checked
  · cases checked
  · split at checked
    · cases checked
    · split at checked
      · cases checked
      · rename_i none
        obtain ⟨i, found⟩ := List.mem_iff_getElem?.mp member
        have numbered : (rule, i) ∈ g.rules.zipIdx := List.mk_mem_zipIdx_iff_getElem?.mpr found
        exact undefined?_eq_none (by simpa using List.findSome?_eq_none_iff.mp none _ numbered)

theorem check_of_ofParts {start : Symbol} {terminals nonterminals actions : List Symbol}
    {rules : List (Symbol × List Symbol)} {lookaheads : List (List Symbol)}
    (made : ofParts start terminals nonterminals actions rules lookaheads = .ok g) :
    g.check = .ok () := by
  unfold ofParts at made
  split at made
  · cases made
  · dsimp only at made
    generalize Grammar.mk .. = h at made
    cases checked : h.check with
    | error e =>
      rw [checked] at made
      cases made
    | ok _ =>
      rw [checked] at made
      cases made
      exact checked

end Grammar

end Pushdown
