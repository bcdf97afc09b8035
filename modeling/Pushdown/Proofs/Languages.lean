import Mathlib.Data.List.TakeWhile
import Pushdown.Grammar.Expressions
import Pushdown.Grammar.Programs
import Pushdown.Proofs.Prediction

/-! The languages of the two given grammars. Their lookahead sets are written by hand; an outlook for
each grammar shows that they are neither too small nor too large. The automaton therefore decides
membership in the plain context-free language of the rules. -/
namespace Pushdown.Grammar

def expressionOutlook : Outlook where
  vanishing := ["mt", "mf"]
  first
    | "mt" => ["+"]
    | "mf" => ["*"]
    | _ => ["$id", "("]
  follow
    | "goal" => ["#"]
    | "t" | "mf" => ["+", ")", "#"]
    | "f" => ["*", "+", ")", "#"]
    | _ => [")", "#"]
  rank
    | "goal" => 4
    | "e" => 3
    | "t" => 2
    | _ => 1

theorem expressionGrammar_predicts : expressionGrammar.Predicts expressionOutlook := by
  constructor <;> decide +kernel

/-- The tokens that a statement without a label begins with. -/
def plainStarts : List Symbol := ["$id", "$put", "$get", "$stop", "$goto", "$if", "$do"]

/-- The tokens that a statement begins with. -/
def statementStarts : List Symbol := ":" :: plainStarts

/-- The tokens that an expression begins with. -/
def expressionStarts : List Symbol := ["$id", "$int", "(", "+", "-"]

/-- The tokens that end an expression. -/
def expressionEnds : List Symbol := [")", ";", "<", "=", ">", "$then", "#", ","]

def programOutlook : Outlook where
  vanishing :=
    ["program", "decls", "declexprs", "states", "getexprs", "putexprs", "subvar", "terms", "facts"]
  first
    | "program" => "$declare" :: statementStarts
    | "decls" => ["$declare"]
    | "declexprs" | "getexprs" | "putexprs" => [","]
    | "states" | "state" => statementStarts
    | "ustate" => plainStarts
    | "label" => [":"]
    | "put" => ["$put"]
    | "get" => ["$get"]
    | "stop" => ["$stop"]
    | "goto" => ["$goto"]
    | "if" => ["$if"]
    | "group" => ["$do"]
    | "relexpr" => ["=", ">", "<"]
    | "grexpr" | "lene_expr" => "=" :: ">" :: expressionStarts
    | "logexpr" | "putlist" | "putexpr" | "expr" => expressionStarts
    | "term" | "fact" => ["$id", "$int", "("]
    | "subvar" => ["("]
    | "terms" => ["+", "-"]
    | "facts" => ["*", "/"]
    | _ => ["$id"]
  follow
    | "program" => ["#"]
    | "decls" => "#" :: statementStarts
    | "states" => ["#", "$end"]
    | "declist" | "declexprs" | "getlist" | "getexprs" | "putlist" | "putexprs" => [";"]
    | "declexpr" | "getexpr" | "putexpr" => [",", ";"]
    | "logexpr" | "relexpr" | "grexpr" | "lene_expr" => ["$then"]
    | "expr" | "terms" => expressionEnds
    | "term" | "facts" => "+" :: "-" :: expressionEnds
    | "fact" | "var" | "subvar" => "*" :: "/" :: "+" :: "-" :: expressionEnds
    | _ => "#" :: "$end" :: statementStarts
  rank
    | "program" => 6
    | "states" | "putlist" => 5
    | "logexpr" | "grexpr" | "lene_expr" | "putexpr" | "state" => 4
    | "expr" | "ustate" => 3
    | "term" | "assign" | "getlist" => 2
    | "fact" | "getexpr" | "declist" => 1
    | _ => 0

theorem programScheme_predicts : programScheme.Predicts programOutlook := by
  constructor <;> decide +kernel

end Pushdown.Grammar

namespace Pushdown.Automaton

open Grammar Config Token

/-- A predictive grammar's automaton decides the language of the plain grammar, with some number of
cycles for every input. -/
theorem verdict_of_predicts {g : Grammar} {o : Outlook} (predicts : g.Predicts o)
    (tokens : List Token) (proper : ∀ t ∈ tokens, t.name ≠ endMarker) :
    ∃ n, ∀ budget, n ≤ budget →
      verdict g (.ofTokens tokens) budget ≠ .running ∧
      (verdict g (.ofTokens tokens) budget = .accepted ↔
        tokens.map Token.name ∈ g.plain.language) := by
  have whole : upToEnd tokens = tokens := by
    rw [upToEnd, List.takeWhile_eq_self_iff]
    simpa using proper
  have language : tokens.map Token.name ∈ g.plain.language ↔
      ∃ leaves, g.Derives [g.start] leaves ∧ Leaf.tokens leaves = tokens := by
    rw [← plain_derives_iff predicts.declared (by simp [predicts.start.1])]
    simp only [ContextFreeGrammar.mem_language_iff, List.map_map, plainWord,
      plainForm_nonterminal predicts.start.1]
    rfl
  obtain ⟨n, stopped⟩ := exists_stopped silent predicts tokens ()
  refine ⟨n, fun budget enough => ?_⟩
  have stopped := stopped budget enough
  unfold verdict
  cases done : run g silent budget (init g (.ofTokens tokens) ()) with
  | error e final => cases e
  | ok _ final =>
    rw [done] at stopped
    refine ⟨stopped, ?_⟩
    rw [language]
    constructor
    · intro accepted
      obtain ⟨leaves, derives, read, _⟩ := derives_of_accepted predicts done accepted
      exact ⟨leaves, derives, read.trans whole⟩
    · rintro ⟨leaves, derives, read⟩
      have result := run_of_derives silent predicts () derives (read.trans whole.symm)
      split at result
      · obtain ⟨m, accepted, state, _, _, onward⟩ := result
        cases run_eventually done stopped onward
        exact state
      · rename_i e _ _
        cases e

/-- The lookahead sets of the given grammars neither reject a sentence nor admit anything else. -/
theorem verdict_iff_mem_language (g : Grammar) (given : g = programScheme ∨ g = expressionGrammar)
    (tokens : List Token) (proper : ∀ t ∈ tokens, t.name ≠ endMarker) :
    ∃ n, ∀ budget, n ≤ budget →
      verdict g (.ofTokens tokens) budget ≠ .running ∧
      (verdict g (.ofTokens tokens) budget = .accepted ↔
        tokens.map Token.name ∈ g.plain.language) := by
  rcases given with rfl | rfl
  · exact verdict_of_predicts programScheme_predicts tokens proper
  · exact verdict_of_predicts expressionGrammar_predicts tokens proper

/-- A conditional jump whose comparison is written with two tokens. -/
theorem verdict_iff_mem_language_branch :
    ∃ n, ∀ budget, n ≤ budget →
      verdict programScheme (.ofTokens (["$if", "$id", "<", ">", "$int", "$then", "$goto", "$id",
        ";"].map (⟨·, none⟩))) budget ≠ .running ∧
      (verdict programScheme (.ofTokens (["$if", "$id", "<", ">", "$int", "$then", "$goto", "$id",
        ";"].map (⟨·, none⟩))) budget = .accepted ↔
        (["$if", "$id", "<", ">", "$int", "$then", "$goto", "$id", ";"].map
          ((⟨·, none⟩ : Symbol → Token))).map Token.name ∈ programScheme.plain.language) :=
  verdict_iff_mem_language programScheme (.inl rfl) _ (by decide)

end Pushdown.Automaton
