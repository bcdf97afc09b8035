import Pushdown.Proofs.Acceptance

/-! The parse stack of a running automaton. In a checked grammar every symbol that a rule writes is
declared. So the stack never runs empty: the bottom lies under declared symbols only, however the tokens
come and whatever the actions do. Hence a step that rejects does so for its token, and a step that expands
uses a rule of the grammar. -/
namespace Pushdown

open Automaton

namespace Grammar

variable {g : Grammar}

theorem selectFrom_getElem? {index found : Nat} {top next : Symbol} {rules : List Rule} {rule : Rule}
    (selected : selectFrom index top next rules = some (found, rule)) :
    ∃ i, found = index + i ∧ rules[i]? = some rule := by
  induction rules generalizing index with
  | nil => cases selected
  | cons candidate rest ih =>
    unfold selectFrom at selected
    split at selected
    · cases selected
      exact ⟨0, rfl, rfl⟩
    · obtain ⟨i, rfl, at_i⟩ := ih selected
      exact ⟨i + 1, by omega, at_i⟩

theorem select?_getElem? {index : Nat} {top next : Symbol} {rule : Rule}
    (selected : g.select? top next = some (index, rule)) : g.rules[index]? = some rule := by
  obtain ⟨i, rfl, found⟩ := selectFrom_getElem? selected
  rwa [Nat.zero_add]

end Grammar

namespace Automaton.Config

variable {σ ε : Type} {g : Grammar} {routine : Routine σ ε} {c : Config σ}

/-- The configurations that steps come to, failing ones included. Nothing is assumed of the tokens:
between two steps the source may be exchanged for any other, and the next token with it. -/
inductive Reachable (g : Grammar) (routine : Routine σ ε) : Config σ → Prop
  | init (source : TokenSource) (work : σ) : Reachable g routine (init g source work)
  | step {c : Config σ} : Reachable g routine c → Reachable g routine (afterStep g routine c)
  | resupply {c : Config σ} (source : TokenSource) (current : Option Token) : Reachable g routine c →
      Reachable g routine { c with source := source, current := current }

/-- The bottom with nothing but declared symbols above it. -/
def Grounded (g : Grammar) (stack : Stack Symbol) : Prop :=
  ∃ above, stack = above ++ [bottom] ∧ ∀ s ∈ above, s ∈ g.declared

theorem Grounded.top {stack : Stack Symbol} (grounded : Grounded g stack) :
    ∃ top rest, stack = top :: rest ∧ (top = bottom ∨ g.kind? top ≠ none) := by
  obtain ⟨above, rfl, declared⟩ := grounded
  cases above with
  | nil => exact ⟨bottom, [], rfl, .inl rfl⟩
  | cons s above =>
    exact ⟨s, above ++ [bottom], rfl, .inr (Grammar.mem_declared_iff.mp (declared s (.head _)))⟩

theorem afterStep_grounded (rules : ∀ rule ∈ g.rules, ∀ s ∈ rule.right, s ∈ g.declared)
    (running : c.state = .running) (grounded : Grounded g c.stack)
    (still : (afterStep g routine c).state = .running) :
    Grounded g (afterStep g routine c).stack := by
  obtain ⟨above, stack, declared⟩ := grounded
  unfold afterStep at still ⊢
  rw [step_running running] at still ⊢
  have effect := cycle_effect g routine c
  generalize cycle g routine c = result at effect still ⊢
  cases effect with
  | rejected | accepted => cases still
  | @expanded s _ _ rule top other _ selected =>
    obtain ⟨rest, rfl, rfl⟩ := symbols_eq_cons top stack other
    refine ⟨rule.right ++ rest, (List.append_assoc ..).symm, fun s member => ?_⟩
    rcases List.mem_append.mp member with written | left
    · exact rules rule (Grammar.select?_spec selected).1 s written
    · exact declared s (List.mem_cons_of_mem _ left)
  | matched top other =>
    obtain ⟨rest, rfl, rfl⟩ := symbols_eq_cons top stack other
    exact ⟨rest, rfl, fun s member => declared s (List.mem_cons_of_mem _ member)⟩
  | performed top other =>
    obtain ⟨rest, rfl, rfl⟩ := symbols_eq_cons top stack other
    exact ⟨rest, rfl, fun s member => declared s (List.mem_cons_of_mem _ member)⟩
  | failed => exact ⟨above, stack, declared⟩

theorem Reachable.grounded (checked : g.check = .ok ()) (reachable : Reachable g routine c)
    (running : c.state = .running) : Grounded g c.stack := by
  induction reachable with
  | init source work =>
    exact ⟨[g.start], rfl, fun s member => List.mem_singleton.mp member ▸ Grammar.start_declared checked⟩
  | @step c reachable ih =>
    have before : c.state = .running := by
      by_contra stopped
      have same : afterStep g routine c = c := afterSteps_stopped stopped 1
      exact stopped (same ▸ running)
    have rules (rule : Rule) (member : rule ∈ g.rules) := (Grammar.declared_of_check checked member).right
    exact afterStep_grounded rules before (ih before) running
  | resupply _ _ _ ih => exact ih running

/-- Why the next token is not the right one: it stands behind the end, no rule is for it, or the
terminal on top is another one. -/
inductive Mismatch (g : Grammar) (c : Config σ) : Prop
  | surplus {rest : Stack Symbol} : c.stack = bottom :: rest → c.next.name ≠ endMarker → Mismatch g c
  | unpredicted {s : Symbol} {rest : Stack Symbol} : c.stack = s :: rest →
      g.kind? s = some .nonterminal → g.select? s c.next.name = none → Mismatch g c
  | different {s : Symbol} {rest : Stack Symbol} : c.stack = s :: rest →
      g.kind? s = some .terminal → s ≠ c.next.name → Mismatch g c

/-- A cycle does not reject for its stack: not if this is empty, nor if a symbol is not declared. -/
theorem mismatch_of_rejected {c' : Config σ} (grounded : Grounded g c.stack)
    (rejected : cycle g routine c = .ok .rejected c') : Mismatch g c := by
  obtain ⟨top, rest, stack, declared⟩ := grounded.top
  simp only [cycle, stack] at rejected
  by_cases isBottom : top = bottom
  · rw [if_pos isBottom] at rejected
    split at rejected
    · cases rejected
    · exact .surplus (isBottom ▸ stack) ‹_›
  · rw [if_neg isBottom] at rejected
    split at rejected
    · split at rejected
      · cases rejected
      · exact .unpredicted stack ‹_› ‹_›
    · split at rejected
      · cases rejected
      · exact .different stack ‹_› ‹_›
    · split at rejected <;> cases rejected
    · exact absurd ‹_› (declared.resolve_left isBottom)

/-- A cycle expands by a rule of the grammar, under its number. -/
theorem getElem?_of_expanded {index : Nat} {rule : Rule} {c' : Config σ}
    (expanded : cycle g routine c = .ok (.expanded index rule) c') : g.rules[index]? = some rule := by
  have effect := cycle_effect g routine c
  rw [expanded] at effect
  cases effect with
  | expanded _ _ _ selected => exact Grammar.select?_getElem? selected

/-- What holds of the stack while the automaton runs, and of the step that looks at it. -/
structure WellStacked (g : Grammar) (routine : Routine σ ε) (c : Config σ) : Prop where
  grounded : ∃ above, c.stack = above ++ [bottom] ∧
    ∀ s ∈ above, s ∈ g.terminals ∨ s ∈ g.nonterminals ∨ s ∈ g.actions
  top : ∃ top rest, c.stack = top :: rest ∧ (top = bottom ∨ g.kind? top ≠ none)
  rejected : ∀ c', step g routine c = .ok .rejected c' → Mismatch g c
  expanded : ∀ index rule c', step g routine c = .ok (.expanded index rule) c' →
    g.rules[index]? = some rule

end Automaton.Config

open Config

/-- As long as the automaton of a checked grammar runs, its stack is the bottom with declared symbols above
it. There is always a symbol on top that a step knows; a step rejects only for the next token, and it
expands only by a rule that is there. -/
theorem running_stack_is_grounded {σ ε : Type} {g : Grammar} {start : Symbol}
    {terminals nonterminals actions : List Symbol} {rules : List (Symbol × List Symbol)}
    {lookaheads : List (List Symbol)}
    (made : Grammar.ofParts start terminals nonterminals actions rules lookaheads = .ok g)
    (routine : Routine σ ε) {c : Config σ} (reachable : Reachable g routine c)
    (running : c.state = .running) : WellStacked g routine c := by
  have grounded := reachable.grounded (Grammar.check_of_ofParts made) running
  refine ⟨?_, grounded.top, fun c' rejected => ?_, fun index rule c' expanded => ?_⟩
  · obtain ⟨above, stack, declared⟩ := grounded
    refine ⟨above, stack, fun s member => ?_⟩
    simpa [Grammar.declared, or_assoc] using declared s member
  · exact mismatch_of_rejected grounded (step_running running ▸ rejected)
  · exact getElem?_of_expanded (step_running running ▸ expanded)

/-- Marked words behind each other. The bottom symbol is written by a rule, and the end marker is not
declared at all. -/
def markedWords : Grammar where
  start := "words"
  terminals := ["word", "%"]
  nonterminals := ["words"]
  actions := ["@mark"]
  rules := [⟨"words", ["@mark", "word", "words", "%"], ["word"]⟩, ⟨"words", [], ["%"]⟩]

/-- An action that always fails. -/
def refusal : Routine Unit Unit := fun _ _ => throw ()

/-- After a failed action. -/
theorem running_stack_is_grounded_markedWords :
    Grammar.ofParts "words" ["word", "%"] ["words"] ["@mark"]
        [("words", ["@mark", "word", "words", "%"]), ("words", [])] [["word"], ["%"]] =
      .ok markedWords ∧
    ∃ c, Reachable markedWords refusal c ∧ c.state = .running ∧
      c.stack = ["@mark", "word", "words", "%", "%"] ∧ WellStacked markedWords refusal c := by
  have made : Grammar.ofParts "words" ["word", "%"] ["words"] ["@mark"]
      [("words", ["@mark", "word", "words", "%"]), ("words", [])] [["word"], ["%"]] =
        .ok markedWords := by decide +kernel
  have reachable : Reachable markedWords refusal (afterStep markedWords refusal
      (afterStep markedWords refusal (init markedWords (.ofTokens [⟨"word", none⟩]) ()))) :=
    .step (.step (.init _ _))
  exact ⟨made, _, reachable, rfl, rfl, running_stack_is_grounded made refusal reachable rfl⟩

end Pushdown
