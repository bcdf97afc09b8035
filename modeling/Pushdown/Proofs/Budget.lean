import Mathlib
import Pushdown.Grammar.Expressions
import Pushdown.Grammar.Programs
import Pushdown.Proofs.Runs

/-! How many steps the automaton takes. Every token that is matched pays for a fixed number of steps, and a
tariff says what each nonterminal costs beyond that. One that consumes tokens may cost less than nothing,
which makes up for the rules that repeat it; what is owed before its tokens come is bounded apart. Where no rule
costs more than its left side, each step lowers what is owed for the stack, and the automaton stops within
a number of steps that is linear in the tokens. -/
namespace Pushdown

open Automaton

namespace Grammar

structure Tariff where
  /-- The steps that a token pays for. -/
  perToken : Nat
  /-- The steps that clear away a nonterminal, less those that its tokens pay for. -/
  due : Symbol → Int
  /-- The most that may be owed after the first step of a nonterminal. -/
  peak : Symbol → Nat

namespace Tariff

variable (g : Grammar) (t : Tariff)

/-- The steps that clear away a symbol, less those that its tokens pay for. End markers pay for none, as
they never run out. -/
def cost (s : Symbol) : Int :=
  match g.kind? s with
  | some .nonterminal => t.due s
  | some .terminal => if s = endMarker then 1 else 1 - t.perToken
  | _ => 1

def total (symbols : List Symbol) : Int := (symbols.map (t.cost g)).sum

/-- The most that may be owed for a symbol before it is cleared away. -/
def bound (s : Symbol) : Int :=
  match g.kind? s with
  | some .nonterminal => 1 + t.peak s
  | _ => 1

/-- The most that may be owed for a stack before it is cleared away. -/
def crest : List Symbol → Int
  | [] => 1
  | s :: rest => max (t.bound g s) (t.cost g s + crest rest)

/-- No rule costs more than its left side, and there is a step for the expansion. -/
structure Fair : Prop where
  due : ∀ rule ∈ g.rules, 1 + t.total g rule.right ≤ t.due rule.left
  peak : ∀ rule ∈ g.rules, t.crest g rule.right ≤ t.peak rule.left

/-- The steps that some tokens pay for. -/
def paid (upcoming : List Token) : Nat := t.perToken * upcoming.countP (·.name ≠ endMarker)

/-- The most steps that a stack may take before some tokens. -/
def owed (upcoming : List Token) (stack : List Symbol) : Int := t.paid upcoming + t.crest g stack

theorem one_le_bound (s : Symbol) : 1 ≤ t.bound g s := by
  unfold bound
  split <;> omega

theorem one_le_crest (stack : List Symbol) : 1 ≤ t.crest g stack := by
  cases stack with
  | nil => exact le_refl 1
  | cons s rest => exact (t.one_le_bound g s).trans (le_max_left _ _)

theorem one_le_owed (upcoming : List Token) (stack : List Symbol) : 1 ≤ t.owed g upcoming stack := by
  have positive := t.one_le_crest g stack
  unfold owed
  omega

theorem paid_le (tokens : List Token) : t.paid tokens ≤ t.perToken * tokens.length :=
  Nat.mul_le_mul_left _ List.countP_le_length

theorem paid_append_ending (tokens : List Token) : t.paid (tokens ++ [Token.ending]) = t.paid tokens := by
  simp [paid, Token.ending]

theorem paid_tail_le (upcoming : List Token) : t.paid upcoming.tail ≤ t.paid upcoming :=
  Nat.mul_le_mul_left _ (List.tail_sublist upcoming).countP_le

theorem paid_cons {token : Token} (proper : token.name ≠ endMarker) (later : List Token) :
    t.paid (token :: later) = t.paid later + t.perToken := by
  unfold paid
  rw [List.countP_cons_of_pos (by simpa using proper), Nat.mul_succ]

theorem crest_append (front back : List Symbol) :
    t.crest g (front ++ back) ≤ max (t.crest g front) (t.total g front + t.crest g back) := by
  induction front with
  | nil =>
    simp only [List.nil_append, total, List.map_nil, List.sum_nil]
    omega
  | cons s front ih =>
    simp only [List.cons_append, crest, total, List.map_cons, List.sum_cons] at ih ⊢
    omega

variable {g t}

/-- An expansion lowers what is owed. -/
theorem Fair.crest_expanded (fair : t.Fair g) {rule : Rule} (member : rule ∈ g.rules)
    (kind : g.kind? rule.left = some .nonterminal) (rest : List Symbol) :
    t.crest g (rule.right ++ rest) + 1 ≤ t.crest g (rule.left :: rest) := by
  have appended := t.crest_append g rule.right rest
  have due := fair.due rule member
  have peak := fair.peak rule member
  simp only [crest, bound, cost, kind]
  omega

end Tariff

end Grammar

namespace Automaton.Config

open Grammar

variable {σ ε : Type} {g : Grammar} {t : Tariff} {c : Config σ} {upcoming : List Token}

/-- A match takes a symbol off the stack, and either the token that pays for it or an end marker. -/
theorem owed_matched {s : Symbol} {rest : List Symbol} (awaits : c.Awaits upcoming)
    (kind : g.kind? s = some .terminal) (same : c.next.name = s) :
    t.owed g upcoming.tail rest + 1 ≤ t.owed g upcoming (s :: rest) := by
  rw [awaits.next_eq] at same
  simp only [Tariff.owed, Tariff.crest, Tariff.bound, Tariff.cost, kind]
  by_cases isEnd : s = endMarker
  · have fewer := t.paid_tail_le upcoming
    rw [if_pos isEnd]
    omega
  · cases upcoming with
    | nil => exact absurd same.symm isEnd
    | cons token later =>
      have proper : token.name ≠ endMarker := fun named => isEnd (same.symm.trans named)
      rw [if_neg isEnd, t.paid_cons proper, List.tail_cons]
      omega

/-- A cycle after which the automaton still runs lowers what is owed. -/
theorem owed_cycle (fair : t.Fair g) (routine : Routine σ ε) (awaits : c.Awaits upcoming) :
    Meets (fun _ next => next.state = .running → ∃ later, next.Awaits later ∧
        t.owed g later next.stack + 1 ≤ t.owed g upcoming c.stack)
      (fun _ => True) (cycle g routine c) := by
  have effect := cycle_effect g routine c
  generalize cycle g routine c = result at effect
  cases effect with
  | rejected | accepted => exact fun running => nomatch running
  | @expanded _ rest _ rule top _ kind selected =>
    intro _
    obtain ⟨member, rfl, _⟩ := select?_spec selected
    have lower := fair.crest_expanded member kind rest
    refine ⟨upcoming, awaits, ?_⟩
    simp only [top, Tariff.owed]
    omega
  | matched top _ kind same =>
    intro _
    refine ⟨upcoming.tail, awaits.shift _, ?_⟩
    rw [top]
    exact owed_matched awaits kind same
  | performed top _ kind _ =>
    intro _
    refine ⟨upcoming, awaits, ?_⟩
    simp only [top, Tariff.owed, Tariff.crest, Tariff.cost, kind]
    omega
  | failed => trivial

/-- A run stops within as many steps as are owed. -/
theorem stopped_of_owed (fair : t.Fair g) (routine : Routine σ ε) (awaits : c.Awaits upcoming)
    {budget : Nat} (enough : t.owed g upcoming c.stack ≤ budget) :
    Stopped (run g routine budget c) := by
  induction budget generalizing c upcoming with
  | zero =>
    have positive := t.one_le_owed g upcoming c.stack
    omega
  | succ budget ih =>
    by_cases running : c.state = .running
    · have cycled := owed_cycle fair routine awaits
      rw [run_running running]
      cases result : cycle g routine c with
      | error e next => trivial
      | ok step next =>
        rw [result] at cycled
        dsimp only
        by_cases still : next.state = .running
        · obtain ⟨later, awaits, lower⟩ := cycled still
          exact ih awaits (by omega)
        · rw [run_stopped still]
          exact still
    · rw [run_stopped running]
      exact running

/-- A run has come to its end: it accepted or rejected, or an action of the grammar failed. -/
def Ended (g : Grammar) (routine : Routine σ ε) : EStateM.Result ε (Config σ) Unit → Prop
  | .ok _ final => final.state = .accepted ∨ final.state = .rejected
  | .error e _ => ∃ a ∈ g.actions, ∃ last before after, routine a last before = .error e after

/-- A run that has stopped got a verdict or the error of an action. -/
theorem Stopped.ended {budget : Nat} {routine : Routine σ ε}
    (stopped : Stopped (run g routine budget c)) : Ended g routine (run g routine budget c) := by
  have failure : Meets (fun _ _ => True)
      (fun e => ∃ a ∈ g.actions, ∃ last before after, routine a last before = .error e after)
      (run g routine budget c) := by
    refine run_preserves (fun c _ _ => ?_) budget c trivial
    have effect := cycle_effect g routine c
    generalize cycle g routine c = result at effect
    cases effect with
    | rejected | accepted | expanded | matched | performed => trivial
    | failed _ _ kind failed => exact ⟨_, mem_actions kind, _, _, _, failed⟩
  cases ran : run g routine budget c with
  | error e final =>
    rw [ran] at failure
    exact failure
  | ok _ final =>
    rw [ran] at stopped
    change final.state = .accepted ∨ final.state = .rejected
    cases ended : final.state with
    | running => exact absurd ended stopped
    | accepted => exact .inl rfl
    | rejected => exact .inr rfl

end Automaton.Config

namespace Grammar

def expressionTariff : Tariff where
  perToken := 4
  due
    | "goal" => 3
    | "e" => 2
    | "t" => 0
    | "f" => -2
    | _ => 1
  peak
    | "goal" => 4
    | "e" => 3
    | "t" => 2
    | _ => 1

theorem expressionTariff_fair : expressionTariff.Fair expressionGrammar := by
  constructor <;> decide +kernel

def programTariff : Tariff where
  perToken := 8
  due
    | "program" => 4
    | "declist" => -23
    | "declexpr" => -25
    | "label" => -19
    | "state" => -4
    | "ustate" => -5
    | "assign" | "stop" | "if" => -12
    | "put" => -6
    | "get" => -11
    | "goto" => -19
    | "group" => -26
    | "putlist" => 7
    | "grexpr" | "lene_expr" | "putexpr" => 5
    | "logexpr" | "expr" => 3
    | "getlist" => 2
    | "getexpr" => 0
    | "relexpr" | "fact" => -1
    | "var" => -3
    | _ => 1
  peak
    | "program" | "putlist" => 7
    | "states" | "logexpr" | "grexpr" | "lene_expr" | "putexpr" => 5
    | "state" | "expr" => 4
    | "ustate" | "term" | "getlist" => 3
    | "declist" | "assign" | "getexpr" | "fact" => 2
    | _ => 1

theorem programTariff_fair : programTariff.Fair programScheme := by
  constructor <;> decide +kernel

end Grammar

open Grammar Config

/-- The automaton of a grammar with a fair tariff stops, whatever the tokens are and whatever its actions
do: the tokens are paid for, and so is the start symbol above the bottom. -/
theorem Automaton.Config.stopped_of_fair {σ ε : Type} {g : Grammar} {t : Tariff} (fair : t.Fair g)
    (routine : Routine σ ε) (tokens : List Token) (work : σ) (extra : Nat) {budget : Nat}
    (start : t.crest g [g.start, bottom] ≤ extra)
    (enough : t.perToken * tokens.length + extra ≤ budget) :
    Stopped (run g routine budget (init g (.ofTokens tokens) work)) := by
  refine stopped_of_owed fair routine (init_awaits tokens work) ?_
  have paid := t.paid_le tokens
  change t.owed g (tokens ++ [Token.ending]) [g.start, bottom] ≤ budget
  rw [Tariff.owed, Tariff.paid_append_ending]
  omega

/-- On any tokens and with any actions, the automata of the two given grammars come to their end within eight
steps for each token and eight more. -/
theorem given_automata_end {σ ε : Type} (g : Grammar)
    (given : g = programScheme ∨ g = expressionGrammar) (routine : Routine σ ε) (tokens : List Token)
    (work : σ) (budget : Nat) (enough : 8 * tokens.length + 8 ≤ budget) :
    Ended g routine (run g routine budget (init g (.ofTokens tokens) work)) := by
  apply Stopped.ended
  rcases given with rfl | rfl
  · exact stopped_of_fair programTariff_fair routine tokens work 8 (by decide +kernel) enough
  · have fewer : 4 * tokens.length + 8 ≤ budget := by omega
    exact stopped_of_fair expressionTariff_fair routine tokens work 8 (by decide +kernel) fewer

/-- An identifier that has no text, with markers and a token of no grammar behind it. -/
def strayTokens : List Token := [⟨"$id", none⟩, ⟨"#", none⟩, ⟨"%", none⟩, ⟨"?", some (.text "?")⟩]

theorem given_automata_end_strayTokens :
    8 * strayTokens.length + 8 ≤ 40 ∧
      Ended programScheme Emitter.routine (run programScheme Emitter.routine 40
        (init programScheme (.ofTokens strayTokens) { actions := programScheme.actions })) := by
  have enough : 8 * strayTokens.length + 8 ≤ 40 := by decide
  exact ⟨enough, given_automata_end programScheme (.inl rfl) Emitter.routine strayTokens _ 40 enough⟩

end Pushdown
