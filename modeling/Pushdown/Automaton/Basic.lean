import Pushdown.Grammar.Basic
import Pushdown.Stack

/-! The pushdown automaton of a grammar. Its stack holds what is still expected, above the bottom
symbol. In one cycle a nonterminal on top is replaced by the right side of the rule for the next token,
a terminal is matched with that token, and an action is performed by a routine that knows the token
matched last. The automaton accepts when the bottom meets the end of the input. -/
namespace Pushdown.Automaton

inductive State where
  | running
  | accepted
  | rejected
deriving Repr, DecidableEq

/-- What a cycle did. -/
inductive Step where
  | expanded (index : Nat) (rule : Rule)
  | matched (token : Token)
  | performed (action : Symbol)
  | accepted
  | rejected

/-- What actions do to a state of their own. They see the token matched last, if there is one, and may
fail. -/
abbrev Routine (σ ε : Type) := Symbol → Option Token → EStateM ε σ Unit

/-- Actions that do nothing. -/
def silent : Routine Unit Empty := fun _ _ => pure ()

structure Config (σ : Type) where
  stack : Stack Symbol
  source : TokenSource
  /-- The next token, unless the source has run dry. -/
  current : Option Token
  last : Option Token
  state : State
  /-- What the actions work on. -/
  work : σ

namespace Config

variable {σ ε : Type}

def init (g : Grammar) (source : TokenSource) (work : σ) : Config σ :=
  let (current, source) := source.next
  ⟨[g.start, bottom], source, current, none, .running, work⟩

/-- The next token, where no token at all counts as the end marker. -/
def next (c : Config σ) : Token := c.current.getD ⟨endMarker, none⟩

def reject (c : Config σ) : Config σ := { c with state := .rejected }

/-- Acceptance empties the stack. -/
def accept (c : Config σ) : Config σ := { c with stack := [], state := .accepted }

/-- Takes the next token for the terminal on top. -/
def shift (c : Config σ) (rest : Stack Symbol) : Config σ :=
  let (current, source) := c.source.next
  { c with stack := rest, last := some c.next, current := current, source := source }

/-- One cycle of an automaton that runs. If an action fails, its symbol stays on the stack. -/
def cycle (g : Grammar) (routine : Routine σ ε) : EStateM ε (Config σ) Step := fun c =>
  match c.stack with
  | [] => .ok .rejected c.reject
  | top :: rest =>
    if top = bottom then
      if c.next.name = endMarker then .ok .accepted c.accept else .ok .rejected c.reject
    else
      match g.kind? top with
      | some .nonterminal =>
        match g.select? top c.next.name with
        | some (index, rule) =>
          .ok (.expanded index rule) { c with stack := Stack.pushAll rest rule.right }
        | none => .ok .rejected c.reject
      | some .terminal =>
        if top = c.next.name then .ok (.matched c.next) (c.shift rest)
        else .ok .rejected c.reject
      | some .action =>
        let ⟨stack, source, current, last, state, work⟩ := c
        match routine top last work with
        | .ok _ work => .ok (.performed top) ⟨rest, source, current, last, state, work⟩
        | .error e work => .error e ⟨stack, source, current, last, state, work⟩
      | none => .ok .rejected c.reject

/-- One step. An automaton that has stopped repeats its verdict. -/
def step (g : Grammar) (routine : Routine σ ε) : EStateM ε (Config σ) Step := fun c =>
  match c.state with
  | .running => cycle g routine c
  | .accepted => .ok .accepted c
  | .rejected => .ok .rejected c

/-- Steps until the automaton stops, as many as the budget allows. -/
def run (g : Grammar) (routine : Routine σ ε) : Nat → EStateM ε (Config σ) Unit
  | 0 => pure ()
  | budget + 1 => do
    if (← get).state = .running then
      let _ ← step g routine
      run g routine budget

end Config

/-- Runs an automaton whose actions do nothing, and tells how it ended. -/
def verdict (g : Grammar) (source : TokenSource) (budget : Nat) : State :=
  match (Config.init g source ()).run g silent budget with
  | .ok _ c => c.state
  | .error e _ => nomatch e

end Pushdown.Automaton
