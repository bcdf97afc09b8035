import Pushdown.Proofs.Trees

/-! The stack on acceptance. The automaton knows the bottom of its stack by name, and a grammar may use this
name for a symbol of its own. Such a symbol is never taken off the stack: whatever lies under it is not looked
at any more. So the stack of an accepting step holds the bottom alone exactly if no such symbol was
written on the way, by the start or by a rule. -/
namespace Pushdown

open Automaton

namespace Automaton.Config

variable {σ ε : Type}

/-- The configuration after a step, whether it succeeded or its action failed. -/
def afterStep (g : Grammar) (routine : Routine σ ε) (c : Config σ) : Config σ :=
  match step g routine c with
  | .ok _ next | .error _ next => next

/-- The configuration after a number of steps; those that fail are followed by others all the same. -/
def afterSteps (g : Grammar) (routine : Routine σ ε) : Nat → Config σ → Config σ
  | 0, c => c
  | n + 1, c => afterSteps g routine n (afterStep g routine c)

/-- The rule that a result of a step tells, if the step expanded a nonterminal. -/
def expansion? : EStateM.Result ε (Config σ) Step → Option Rule
  | .ok (.expanded _ rule) _ => some rule
  | _ => none

/-- The rules that a number of steps expanded by. -/
def expansions (g : Grammar) (routine : Routine σ ε) : Nat → Config σ → List Rule
  | 0, _ => []
  | n + 1, c =>
    (expansion? (step g routine c)).toList ++ expansions g routine n (afterStep g routine c)

variable {g : Grammar} {routine : Routine σ ε} {c : Config σ}

theorem step_running (running : c.state = .running) : step g routine c = cycle g routine c := by
  simp [step, running]

theorem afterSteps_stopped (stopped : c.state ≠ .running) (n : Nat) :
    afterSteps g routine n c = c := by
  induction n with
  | zero => rfl
  | succ n ih =>
    have same : afterStep g routine c = c := by
      unfold afterStep step
      cases state : c.state with
      | running => exact absurd state stopped
      | accepted | rejected => rfl
    rw [afterSteps, same, ih]

theorem expansions_subset (n : Nat) : ∀ rule ∈ expansions g routine n c, rule ∈ g.rules := by
  induction n generalizing c with
  | zero => exact fun _ member => absurd member List.not_mem_nil
  | succ n ih =>
    intro rule member
    rcases List.mem_append.mp member with now | later
    · by_cases running : c.state = .running
      · rw [step_running running] at now
        have effect := cycle_effect g routine c
        generalize cycle g routine c = result at effect now
        cases effect with
        | expanded _ _ _ selected =>
          rw [List.mem_singleton.mp now]
          exact (Grammar.select?_spec selected).1
        | rejected | accepted | matched | performed | failed => cases now
      · unfold step at now
        cases state : c.state with
        | running => exact absurd state running
        | accepted | rejected =>
          rw [state] at now
          cases now
    · exact ih rule later

/-- A step after which the automaton still runs leaves the bottom at the end of the stack. The bottom symbol
stands above it exactly if it did so before or the step wrote it. -/
theorem afterStep_stack {above : List Symbol} (running : c.state = .running)
    (stack : c.stack = above ++ [bottom]) (still : (afterStep g routine c).state = .running) :
    ∃ above', (afterStep g routine c).stack = above' ++ [bottom] ∧
      (bottom ∈ above' ↔
        bottom ∈ above ∨ ∃ rule ∈ expansion? (step g routine c), bottom ∈ rule.right) := by
  unfold afterStep at still ⊢
  rw [step_running running] at still ⊢
  have effect := cycle_effect g routine c
  generalize cycle g routine c = result at effect still ⊢
  cases effect with
  | rejected | accepted => cases still
  | @expanded s _ _ rule top other =>
    obtain ⟨rest, rfl, rfl⟩ := symbols_eq_cons top stack other
    refine ⟨rule.right ++ rest, (List.append_assoc ..).symm, ?_⟩
    simp [expansion?, other.symm, or_comm]
  | matched top other =>
    obtain ⟨rest, rfl, rfl⟩ := symbols_eq_cons top stack other
    exact ⟨rest, rfl, by simp [expansion?, other.symm]⟩
  | performed top other =>
    obtain ⟨rest, rfl, rfl⟩ := symbols_eq_cons top stack other
    exact ⟨rest, rfl, by simp [expansion?, other.symm]⟩
  | failed => exact ⟨above, stack, by simp [expansion?]⟩

/-- The same of all steps together. -/
theorem afterSteps_stack {above : List Symbol} {n : Nat} (running : c.state = .running)
    (stack : c.stack = above ++ [bottom]) (still : (afterSteps g routine n c).state = .running) :
    ∃ above', (afterSteps g routine n c).stack = above' ++ [bottom] ∧
      (bottom ∈ above' ↔
        bottom ∈ above ∨ ∃ rule ∈ expansions g routine n c, bottom ∈ rule.right) := by
  induction n generalizing c above with
  | zero => exact ⟨above, stack, by simp [expansions]⟩
  | succ n ih =>
    rw [afterSteps] at still ⊢
    have between : (afterStep g routine c).state = .running := by
      by_contra stopped
      rw [afterSteps_stopped stopped] at still
      exact stopped still
    obtain ⟨middle, stack, now⟩ := afterStep_stack running stack between
    obtain ⟨above', stack, later⟩ := ih between stack still
    refine ⟨above', stack, ?_⟩
    rw [later, now, expansions]
    simp only [List.mem_append, Option.mem_toList, Option.mem_def, or_and_right, exists_or, or_assoc]

/-- A step accepts only at the bottom symbol, before an end marker. -/
theorem top_of_accepted {s : Step} {c' : Config σ} (running : c.state = .running)
    (stepped : step g routine c = .ok s c') (accepted : c'.state = .accepted) :
    c.next.name = endMarker ∧ ∃ rest, c.stack = bottom :: rest := by
  rw [step_running running] at stepped
  have effect := cycle_effect g routine c
  rw [stepped] at effect
  cases effect with
  | accepted top ended => exact ⟨ended, _, top⟩
  | rejected => cases accepted
  | expanded | matched | performed => cases running.symm.trans accepted

end Automaton.Config

open Config

/-- A step accepts only before an end marker. The stack then holds the bottom symbol alone exactly if the
start has another name and no rule that was expanded on the way writes that symbol; so it does in all
runs of a grammar that keeps the symbol for the bottom. -/
theorem accepting_stack_iff {σ ε : Type} (g : Grammar) (routine : Routine σ ε) (tokens : List Token)
    (work : σ) (n : Nat) {c c' : Config σ} {s : Step}
    (reached : afterSteps g routine n (init g (.ofTokens tokens) work) = c)
    (running : c.state = .running) (stepped : step g routine c = .ok s c')
    (accepted : c'.state = .accepted) :
    c.next.name = endMarker ∧
    (c.stack = [bottom] ↔ g.start ≠ bottom ∧
      ∀ rule ∈ expansions g routine n (init g (.ofTokens tokens) work), bottom ∉ rule.right) ∧
    (g.start ≠ bottom → (∀ rule ∈ g.rules, bottom ∉ rule.right) → c.stack = [bottom]) := by
  obtain ⟨ended, rest, top⟩ := top_of_accepted running stepped accepted
  subst reached
  have start : (init g (.ofTokens tokens) work).stack = [g.start] ++ [bottom] := rfl
  obtain ⟨above, stack, written⟩ := afterSteps_stack rfl start running
  -- What stands above the bottom begins with the bottom symbol, if there is anything.
  have alone : above ++ [bottom] = [bottom] ↔ bottom ∉ above := by
    cases above with
    | nil => simp
    | cons first later =>
      obtain ⟨rfl, _⟩ := List.cons.inj (stack.symm.trans top)
      simp
  have exact : above ++ [bottom] = [bottom] ↔ g.start ≠ bottom ∧
      ∀ rule ∈ expansions g routine n (init g (.ofTokens tokens) work), bottom ∉ rule.right := by
    rw [alone, written, List.mem_singleton, not_or, eq_comm]
    simp only [not_exists, not_and, ne_eq]
  rw [stack]
  refine ⟨ended, exact, fun named rules => exact.mpr ⟨named, fun rule member => ?_⟩⟩
  exact rules rule (expansions_subset n rule member)

theorem accepting_stack_iff_twoWords :
    ∃ c c', afterSteps wordList silent 8 (init wordList (.ofTokens twoWords) ()) = c ∧
      c.state = .running ∧ step wordList silent c = .ok .accepted c' ∧ c'.state = .accepted ∧
      c.next.name = endMarker ∧
      (c.stack = [bottom] ↔ wordList.start ≠ bottom ∧
        ∀ rule ∈ expansions wordList silent 8 (init wordList (.ofTokens twoWords) ()),
          bottom ∉ rule.right) ∧
      (wordList.start ≠ bottom → (∀ rule ∈ wordList.rules, bottom ∉ rule.right) →
        c.stack = [bottom]) :=
  ⟨_, _, rfl, rfl, rfl, rfl,
    accepting_stack_iff wordList silent twoWords () 8 rfl rfl (s := .accepted) rfl rfl⟩

/-- A grammar that has a use for the bottom symbol: it derives nothing but this symbol with a word
behind it. -/
def earlyBottom : Grammar where
  start := "s"
  terminals := ["word", "%", "#"]
  nonterminals := ["s"]
  rules := [⟨"s", ["%", "word"], ["#"]⟩]

/-- No tokens at all are accepted, while a word and the bottom are left on the stack. -/
theorem earlyBottom_accepted_early :
    earlyBottom.check = .ok () ∧
      ∃ c c', afterSteps earlyBottom silent 1 (init earlyBottom (.ofTokens []) ()) = c ∧
        c.state = .running ∧ step earlyBottom silent c = .ok .accepted c' ∧ c'.state = .accepted ∧
        c.stack = [bottom, "word", bottom] :=
  ⟨by decide +kernel, _, _, rfl, rfl, rfl, rfl, rfl⟩

end Pushdown
