import Pushdown.Automaton.Basic
import Pushdown.Grammar.Printer

/-! Watched runs of the automaton. An observer sees each cycle and the configuration it leads to; a
trace is one such observer. Watching does not influence the run. -/
namespace Pushdown.Automaton

def Step.render : Step → String
  | .expanded index rule => s!"rule {index}:   {rule.left} -> {rule.renderRight}"
  | .matched token => s!"matching: {token.name}"
  | .performed action => s!"action: {action}"
  | .accepted => "accept"
  | .rejected => "reject"

/-- The entry of the trace for a cycle that led to a configuration. -/
def entry {σ : Type} (step : Step) (c : Config σ) : String :=
  let token := match c.current with
    | some token => token.render
    | none => "-"
  step.render ++ "\nstack:    " ++ Text.joined "  " c.stack ++ s!"\ntoken:    {token}\n\n"

/-- A configuration, and what an observer has noted of the run so far. -/
structure Watched (σ ω : Type) where
  config : Config σ
  notes : ω

/-- Notes a cycle and the configuration after it. -/
abbrev Observer (σ ω : Type) := Step → Config σ → ω → ω

namespace Watched

variable {σ ε ω : Type}

def step (g : Grammar) (routine : Routine σ ε) (observer : Observer σ ω) :
    EStateM ε (Watched σ ω) Step := fun ⟨config, notes⟩ =>
  let running := config.state == .running
  match config.step g routine with
  | .ok step config =>
    let notes := if running then observer step config notes else notes
    .ok step ⟨config, notes⟩
  | .error e config => .error e ⟨config, notes⟩

/-- Steps until the automaton stops, as many as the budget allows. -/
def run (g : Grammar) (routine : Routine σ ε) (observer : Observer σ ω) :
    Nat → EStateM ε (Watched σ ω) Unit
  | 0 => pure ()
  | budget + 1 => do
    if (← get).config.state = .running then
      let _ ← step g routine observer
      run g routine observer budget

end Watched

/-- Keeps the trace, if there is one, up to date. -/
def tracer {σ : Type} : Observer σ (Option (Array String)) :=
  fun step c trace => trace.map (·.push (entry step c))

end Pushdown.Automaton
