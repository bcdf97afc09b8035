import Mathlib.Data.Fintype.Card
import Mathlib.Logic.Relation
import Pushdown.Proofs.Trees

/-! Termination of the automaton. Between two matches only actions and nonterminals come to the top, and
each of them is a left corner of the rules above it. Without left recursion these corners are well-founded,
so the automaton stops or matches a token. Tokens are matched finitely often, unless it is end markers
behind the input that are matched; where these count as nothing too in a left corner, it always stops. -/
namespace Pushdown

open Automaton
open Token (ending)

namespace Grammar

/-- Symbols that derive no tokens except some marks. -/
def Idle (g : Grammar) (marks symbols : List Symbol) : Prop :=
  ∃ leaves, g.Derives symbols leaves ∧ ∀ t ∈ Leaf.tokens leaves, t.name ∈ marks

/-- A symbol that a rule may bring to the top with nothing but marks matched before it. -/
def Corner (g : Grammar) (marks : List Symbol) (a b : Symbol) : Prop :=
  ∃ rule ∈ g.rules, ∃ front back, rule.left = a ∧ rule.right = front ++ b :: back ∧
    ∀ s ∈ front, g.Idle marks [s]

/-- Some symbol is a corner of itself, directly or through others. -/
def LeftRecursive (g : Grammar) (marks : List Symbol) : Prop :=
  ∃ a, Relation.TransGen (g.Corner marks) a a

variable {g : Grammar} {marks : List Symbol}

theorem Idle.append {front back : List Symbol} (first : g.Idle marks front)
    (second : g.Idle marks back) : g.Idle marks (front ++ back) := by
  obtain ⟨leaves, derives, names⟩ := first
  obtain ⟨leaves', derives', names'⟩ := second
  refine ⟨leaves ++ leaves', derives.append derives', fun t member => ?_⟩
  rcases List.mem_append.mp (Leaf.tokens_append .. ▸ member) with here | there
  · exact names t here
  · exact names' t there

theorem Idle.mem_marks {s : Symbol} (kind : g.kind? s = some .terminal) (idle : g.Idle marks [s]) :
    s ∈ marks := by
  obtain ⟨leaves, derives, names⟩ := idle
  cases derives with
  | @terminal _ t _ _ _ same _ => exact same ▸ names t List.mem_cons_self
  | action other _ => exact absurd (kind.symm.trans other) (by simp)
  | expand other _ _ _ _ => exact absurd (kind.symm.trans other) (by simp)

/-- Ranks that fall to every corner exclude left recursion. -/
theorem not_leftRecursive (rank : Symbol → Nat)
    (falls : ∀ a b, g.Corner marks a b → rank b < rank a) : ¬ g.LeftRecursive marks := by
  rintro ⟨a, circle⟩
  have lower (b : Symbol) (path : Relation.TransGen (g.Corner marks) a b) : rank b < rank a := by
    induction path with
    | single corner => exact falls _ _ corner
    | tail _ corner ih => exact (falls _ _ corner).trans ih
  exact Nat.lt_irrefl _ (lower a circle)

/-- So do rules that begin with terminals other than the marks. -/
theorem not_leftRecursive_of_terminals
    (begins : ∀ rule ∈ g.rules, g.kind? rule.left = some .nonterminal ∧
      ∀ s ∈ rule.right.head?, g.kind? s = some .terminal ∧ s ∉ marks) :
    ¬ g.LeftRecursive marks := by
  refine not_leftRecursive (fun s => if g.kind? s = some .nonterminal then 1 else 0) ?_
  rintro _ b ⟨rule, member, front, back, rfl, split, idle⟩
  obtain ⟨left, first⟩ := begins rule member
  rw [split] at first
  cases front with
  | nil => simp [left, (first b rfl).1]
  | cons s front =>
    obtain ⟨kind, absent⟩ := first s rfl
    exact absurd ((idle s List.mem_cons_self).mem_marks kind) absent

/-- The left corners of finitely many rules go on forever only in a circle. -/
theorem corner_wellFounded (free : ¬ g.LeftRecursive marks) :
    WellFounded fun b a => g.Corner marks a b := by
  let Left := { a // a ∈ g.rules.map Rule.left }
  let below (b a : Left) : Prop := Relation.TransGen (g.Corner marks) a.1 b.1
  have finite : Finite Left := inferInstanceAs (Finite { a // a ∈ g.rules.map Rule.left })
  have trans : IsTrans Left below := ⟨fun _ _ _ first second => second.trans first⟩
  have irrefl : Std.Irrefl below := ⟨fun a circle => free ⟨a.1, circle⟩⟩
  have accessible (a : Left) : Acc (fun b a => g.Corner marks a b) a.1 := by
    induction a using (Finite.wellFounded_of_trans_of_irrefl below).induction with
    | h a ih =>
      refine ⟨_, fun b corner => ?_⟩
      by_cases left : b ∈ g.rules.map Rule.left
      · exact ih ⟨b, left⟩ (.single corner)
      · -- A symbol without rules has no corners.
        refine ⟨_, fun c next => ?_⟩
        obtain ⟨rule, member, _, _, rfl, _⟩ := next
        exact absurd (List.mem_map_of_mem member) left
  refine ⟨fun a => ⟨_, fun b corner => ?_⟩⟩
  obtain ⟨rule, member, _, _, rfl, _⟩ := id corner
  exact (accessible ⟨_, List.mem_map_of_mem member⟩).inv corner

end Grammar

namespace Automaton.Config

variable {σ ε : Type} {g : Grammar} {routine : Routine σ ε}

theorem steps_add (n budget : Nat) (c : Config σ) :
    steps g routine (n + budget) c = match run g routine n c with
      | .ok _ next => steps g routine n c ++ steps g routine budget next
      | .error _ _ => steps g routine n c := by
  induction n generalizing c with
  | zero =>
    rw [Nat.zero_add]
    rfl
  | succ n ih =>
    by_cases running : c.state = .running
    · rw [Nat.add_right_comm, run_running running, steps_running running, steps_running running]
      cases cycle g routine c with
      | error e next => rfl
      | ok step next =>
        simp only [ih]
        cases run g routine n next <;> rfl
    · rw [run_stopped running, steps_stopped running, steps_stopped running]
      simp only [steps_stopped running, List.append_nil]

/-- What a run has matched are the tokens to come, with end markers behind them. -/
theorem steps_read {upcoming : List Token} {c : Config σ} (awaits : c.Awaits upcoming) (n : Nat) :
    ∃ rest extra, (steps g routine n c).filterMap Step.token? ++ rest =
      upcoming ++ List.replicate extra ending := by
  induction n generalizing upcoming c with
  | zero => exact ⟨upcoming, 0, (List.append_nil _).symm⟩
  | succ n ih =>
    by_cases running : c.state = .running
    · rw [steps_running running]
      have effect := cycle_effect g routine c
      generalize cycle g routine c = result at effect
      cases effect with
      | rejected => exact ih awaits
      | accepted => exact ih awaits
      | expanded => exact ih awaits
      | performed => exact ih awaits
      | matched =>
        obtain ⟨rest, extra, read⟩ := ih (awaits.shift _)
        obtain ⟨extra, read⟩ := reads_cons awaits.next_eq read
        exact ⟨rest, extra, read⟩
      | failed => exact ⟨upcoming, 0, (List.append_nil _).symm⟩
    · rw [steps_stopped running]
      exact ⟨upcoming, 0, (List.append_nil _).symm⟩

/-- The run stops, or it comes to where the goal holds of how many tokens were matched on the way and
of the configuration. -/
def Comes (g : Grammar) (routine : Routine σ ε) (goal : Nat → Config σ → Prop) (c : Config σ) :
    Prop :=
  ∃ n, match run g routine n c with
    | .ok _ next => next.state ≠ .running ∨
        goal ((steps g routine n c).filterMap Step.token?).length next
    | .error _ _ => True

namespace Comes

variable {goal other : Nat → Config σ → Prop} {c : Config σ}

theorem here (holds : goal 0 c) : Comes g routine goal c := ⟨0, .inr holds⟩

theorem stopped (stopped : c.state ≠ .running) : Comes g routine goal c := ⟨0, .inl stopped⟩

theorem mono (comes : Comes g routine goal c) (weaker : ∀ k c, goal k c → other k c) :
    Comes g routine other c := by
  obtain ⟨n, came⟩ := comes
  refine ⟨n, ?_⟩
  cases ran : run g routine n c with
  | error e next => trivial
  | ok _ next =>
    rw [ran] at came
    exact came.imp_right (weaker _ next)

theorem trans (comes : Comes g routine goal c)
    (onward : ∀ k c, goal k c → Comes g routine (fun m => other (k + m)) c) :
    Comes g routine other c := by
  obtain ⟨n, came⟩ := comes
  cases ran : run g routine n c with
  | error e next => exact ⟨n, by rw [ran]; trivial⟩
  | ok _ next =>
    rw [ran] at came
    rcases came with stopped | holds
    · exact ⟨n, by rw [ran]; exact .inl stopped⟩
    · obtain ⟨m, came⟩ := onward _ next holds
      refine ⟨n + m, ?_⟩
      rw [run_add, steps_add, ran]
      dsimp only
      rw [List.filterMap_append, List.length_append]
      exact came

theorem of_cycle {step : Step} {next : Config σ} (running : c.state = .running)
    (cycled : cycle g routine c = .ok step next)
    (comes : Comes g routine (fun k => goal (step.token?.toList.length + k)) next) :
    Comes g routine goal c := by
  have first : Comes g routine (fun k c' => k = step.token?.toList.length ∧ c' = next) c := by
    refine ⟨1, ?_⟩
    rw [run_running running, steps_running running, cycled]
    refine .inr ⟨?_, rfl⟩
    cases step <;> rfl
  refine first.trans ?_
  rintro k c' ⟨rfl, rfl⟩
  exact comes

theorem of_failure {e : ε} {next : Config σ} (running : c.state = .running)
    (failed : cycle g routine c = .error e next) : Comes g routine goal c :=
  ⟨1, by rw [run_running running, failed]; trivial⟩

end Comes

/-- Some symbols on top of the stack, before given tokens, are cleared away with nothing but marks
matched, unless the run stops or comes to the goal. -/
def Clears (g : Grammar) (routine : Routine σ ε) (marks : List Symbol) (upcoming : List Token)
    (goal : Nat → Config σ → Prop) (symbols : List Symbol) : Prop :=
  ∀ (c : Config σ) (below : Stack Symbol), c.state = .running → c.Awaits upcoming →
    c.stack = symbols ++ below →
    Comes g routine (fun k next => goal k next ∨ next.state = .running ∧ next.Awaits upcoming ∧
      next.stack = below ∧ g.Idle marks symbols) c

section

variable {marks : List Symbol} {upcoming : List Token} {goal : Nat → Config σ → Prop}

/-- Symbols are cleared one after another, so each has to be only where those before it are idle. -/
theorem Clears.of_each {symbols : List Symbol} (keeps : ∀ k m c, goal m c → goal (k + m) c)
    (each : ∀ front s back, symbols = front ++ s :: back → (∀ a ∈ front, g.Idle marks [a]) →
      Clears g routine marks upcoming goal [s]) :
    Clears g routine marks upcoming goal symbols := by
  induction symbols with
  | nil =>
    intro c below running awaits stack
    exact .here (.inr ⟨running, awaits, stack, [], .nil, fun t member => nomatch member⟩)
  | cons s rest ih =>
    intro c below running awaits stack
    refine (each [] s rest rfl (by simp) c (rest ++ below) running awaits stack).trans ?_
    rintro k next (reached | ⟨running, awaits, stack, idle⟩)
    · exact .here (.inl reached)
    · have later : Clears g routine marks upcoming goal rest := by
        refine ih fun front a back split idles => each (s :: front) a back (by rw [split]; rfl) ?_
        simp only [List.mem_cons, forall_eq_or_imp]
        exact ⟨idle, idles⟩
      refine (later next below running awaits stack).mono ?_
      rintro m next (reached | ⟨running, awaits, stack, idleRest⟩)
      · exact .inl (keeps k m next reached)
      · exact .inr ⟨running, awaits, stack, idle.append idleRest⟩

/-- A symbol is cleared if its corners are. A match comes to the goal, or takes a mark and leaves the
tokens to come as they are. -/
theorem Clears.of_corners {s : Symbol} (keeps : ∀ k m c, goal m c → goal (k + m) c)
    (advances : ∀ (c : Config σ) rest, c.state = .running → c.Awaits upcoming →
      goal 1 (c.shift rest) ∨ c.next.name ∈ marks ∧ upcoming.tail = upcoming)
    (corners : ∀ b, g.Corner marks s b → Clears g routine marks upcoming goal [b]) :
    Clears g routine marks upcoming goal [s] := by
  intro c below running awaits stack
  have effect := cycle_effect g routine c
  generalize cycled : cycle g routine c = result at effect
  cases effect with
  | rejected => exact .of_cycle running cycled (.stopped State.noConfusion)
  | accepted => exact .of_cycle running cycled (.stopped State.noConfusion)
  | failed => exact .of_failure running cycled
  | performed top _ kind _ =>
    obtain ⟨rfl, rfl⟩ := List.cons.inj (top.symm.trans stack)
    refine .of_cycle running cycled (.here (.inr ⟨running, awaits, rfl, ?_⟩))
    exact ⟨_, .action kind .nil, fun t member => nomatch member⟩
  | matched top _ kind same =>
    obtain ⟨rfl, rfl⟩ := List.cons.inj (top.symm.trans stack)
    refine .of_cycle running cycled (.here ?_)
    rcases advances c _ running awaits with reached | ⟨mark, unchanged⟩
    · exact .inl reached
    · refine .inr ⟨running, ?_, rfl, [.token c.next], .terminal kind same .nil, ?_⟩
      · rw [← unchanged]
        exact awaits.shift _
      · intro t member
        rw [List.mem_singleton.mp member]
        exact mark
  | @expanded _ rest _ rule top _ kind selected =>
    obtain ⟨rfl, rfl⟩ := List.cons.inj (top.symm.trans stack)
    obtain ⟨member, left, _⟩ := Grammar.select?_spec selected
    have right : Clears g routine marks upcoming goal rule.right :=
      .of_each keeps fun front b back split idles =>
        corners b ⟨rule, member, front, back, left, split, idles⟩
    have cleared := right { c with stack := rule.right ++ rest } rest running awaits rfl
    refine .of_cycle running cycled (cleared.mono ?_)
    rintro k next (reached | ⟨running, awaits, stack, leaves, derives, marked⟩)
    · exact .inl (keeps _ k next reached)
    · exact .inr ⟨running, awaits, stack, leaves, .of_rule kind ⟨rule, member, left, rfl⟩ derives,
        marked⟩

/-- Where the corners are well-founded, every run stops or comes to the goal. -/
theorem comes_of_wellFounded (corners : WellFounded fun b a => g.Corner marks a b)
    (keeps : ∀ k m c, goal m c → goal (k + m) c)
    (advances : ∀ (c : Config σ) rest, c.state = .running → c.Awaits upcoming →
      goal 1 (c.shift rest) ∨ c.next.name ∈ marks ∧ upcoming.tail = upcoming)
    {c : Config σ} (running : c.state = .running) (awaits : c.Awaits upcoming) :
    Comes g routine goal c := by
  have each (s : Symbol) : Clears g routine marks upcoming goal [s] := by
    induction s using corners.induction with
    | h s ih => exact .of_corners keeps advances ih
  have all : Clears g routine marks upcoming goal c.stack := .of_each keeps fun _ s _ _ _ => each s
  refine (all c [] running awaits (List.append_nil _).symm).trans ?_
  rintro k next (reached | ⟨running, _, empty, _⟩)
  · exact .here reached
  · have rejected : cycle g routine next = .ok .rejected next.reject := by
      simp only [cycle, empty]
    exact .of_cycle running rejected (.stopped State.noConfusion)

end

/-- Where end markers count as nothing in the corners, every match that is not of such a mark takes a
token away, so the run stops. -/
theorem stops_of_wellFounded (routine : Routine σ ε)
    (corners : WellFounded fun b a => g.Corner [endMarker] a b)
    {upcoming : List Token} {c : Config σ} (running : c.state = .running)
    (awaits : c.Awaits upcoming) : ∃ n, Stopped (run g routine n c) := by
  suffices comes : Comes g routine (fun _ _ => False) c by
    obtain ⟨n, came⟩ := comes
    refine ⟨n, ?_⟩
    cases ran : run g routine n c with
    | error e next => trivial
    | ok _ next =>
      rw [ran] at came
      exact came.resolve_right id
  induction remaining : upcoming.length using Nat.strong_induction_on generalizing upcoming c with
  | h length ih =>
    have nearer : Comes g routine (fun _ next => next.state = .running ∧
        ∃ later, next.Awaits later ∧ later.length < length) c := by
      refine comes_of_wellFounded corners (fun _ _ _ holds => holds) ?_ running awaits
      intro c rest running awaits
      cases upcoming with
      | nil =>
        refine .inr ⟨?_, rfl⟩
        rw [awaits.next_eq]
        exact List.mem_singleton_self _
      | cons t later =>
        refine .inl ⟨running, later, awaits.shift rest, ?_⟩
        rw [← remaining, List.length_cons]
        exact Nat.lt_succ_self _
    refine nearer.trans ?_
    rintro _ next ⟨running, later, awaits, shorter⟩
    exact ih later.length shorter running awaits rfl

/-- Without any marks, the run stops or goes on matching tokens. -/
theorem matches_of_wellFounded (routine : Routine σ ε)
    (corners : WellFounded fun b a => g.Corner [] a b)
    {upcoming : List Token} {c : Config σ} (running : c.state = .running)
    (awaits : c.Awaits upcoming) (k : Nat) : Comes g routine (fun m _ => k ≤ m) c := by
  induction k generalizing upcoming c with
  | zero => exact .here (Nat.zero_le 0)
  | succ k ih =>
    have one : Comes g routine (fun m next => 1 ≤ m ∧ next.state = .running ∧
        ∃ later, next.Awaits later) c := by
      refine comes_of_wellFounded corners ?_ ?_ running awaits
      · rintro k m next ⟨matched, running⟩
        exact ⟨by omega, running⟩
      · intro c rest running awaits
        exact .inl ⟨le_refl 1, running, _, awaits.shift rest⟩
    refine one.trans ?_
    rintro m next ⟨matched, running, later, awaits⟩
    refine (ih running awaits).mono fun j _ enough => ?_
    omega

end Automaton.Config

namespace Automaton

variable {g : Grammar}

theorem verdict_ne_running {source : TokenSource} {n : Nat}
    (stopped : Config.Stopped (Config.run g silent n (.init g source ()))) {budget : Nat}
    (enough : n ≤ budget) : verdict g source budget ≠ .running := by
  obtain ⟨more, rfl⟩ := Nat.exists_eq_add_of_le enough
  have stopped := stopped.add more
  obtain ⟨final, ran, state⟩ := verdict_run g source (n + more)
  rw [ran] at stopped
  rw [state]
  exact stopped

theorem length_matched_mono (source : TokenSource) {n budget : Nat} (enough : n ≤ budget) :
    (matched g source n).length ≤ (matched g source budget).length := by
  obtain ⟨more, rfl⟩ := Nat.exists_eq_add_of_le enough
  unfold matched
  rw [Config.steps_add]
  split
  · rw [List.filterMap_append, List.length_append]
    exact Nat.le_add_right _ _
  · exact le_refl _

/-- What is matched beyond all the tokens are end markers. -/
theorem matched_eq (tokens : List Token) {budget : Nat}
    (all : tokens.length ≤ (matched g (.ofTokens tokens) budget).length) :
    matched g (.ofTokens tokens) budget = tokens ++
      List.replicate ((matched g (.ofTokens tokens) budget).length - tokens.length) ending := by
  obtain ⟨rest, extra, whole⟩ :
      ∃ rest extra, matched g (.ofTokens tokens) budget ++ rest =
        tokens ++ [ending] ++ List.replicate extra ending :=
    Config.steps_read (Config.init_awaits tokens ()) budget
  generalize matched g (.ofTokens tokens) budget = read at *
  replace whole : read ++ rest = tokens ++ List.replicate (extra + 1) ending := by
    rw [whole, List.append_assoc]
    rfl
  have fits : read.length ≤ tokens.length + (extra + 1) := by
    have lengths := congrArg List.length whole
    simp only [List.length_append, List.length_replicate] at lengths
    omega
  calc read = (read ++ rest).take read.length := List.take_left.symm
    _ = tokens ++ (List.replicate (extra + 1) ending).take (read.length - tokens.length) := by
      rw [whole, List.take_append, List.take_of_length_le all]
    _ = _ := by rw [List.take_replicate, Nat.min_eq_left (by omega)]

end Automaton

/-- Without left recursion the automaton comes to a verdict, or it matches all tokens and then goes on
matching end markers forever. Where end markers too count as nothing in left recursion, it always comes to
a verdict. -/
theorem verdict_or_endless_ends {g : Grammar} (free : ¬ g.LeftRecursive []) (tokens : List Token) :
    ((∃ n, ∀ budget, n ≤ budget → verdict g (.ofTokens tokens) budget ≠ .running) ∨
      ∀ k, ∃ n, ∀ budget, n ≤ budget → ∃ m, k ≤ m ∧
        matched g (.ofTokens tokens) budget = tokens ++ List.replicate m ending) ∧
    (¬ g.LeftRecursive [endMarker] →
      ∃ n, ∀ budget, n ≤ budget → verdict g (.ofTokens tokens) budget ≠ .running) := by
  have awaits := Config.init_awaits (g := g) tokens ()
  constructor
  · by_cases stops : ∃ n, Config.Stopped (Config.run g silent n (.init g (.ofTokens tokens) ()))
    · obtain ⟨n, stopped⟩ := stops
      exact .inl ⟨n, fun budget enough => verdict_ne_running stopped enough⟩
    · refine .inr fun k => ?_
      obtain ⟨n, came⟩ := Config.matches_of_wellFounded silent
        (Grammar.corner_wellFounded free) rfl awaits (tokens.length + k)
      have many : tokens.length + k ≤ (matched g (.ofTokens tokens) n).length := by
        cases ran : Config.run g silent n (.init g (.ofTokens tokens) ()) with
        | error e next => cases e
        | ok _ next =>
          rw [ran] at came
          refine came.resolve_left fun stopped => stops ⟨n, ?_⟩
          rw [ran]
          exact stopped
      refine ⟨n, fun budget enough => ?_⟩
      have more := length_matched_mono (g := g) (.ofTokens tokens) enough
      exact ⟨_, by omega, matched_eq tokens (by omega)⟩
  · intro free
    obtain ⟨n, stopped⟩ := Config.stops_of_wellFounded silent
      (Grammar.corner_wellFounded free) rfl awaits
    exact ⟨n, fun budget enough => verdict_ne_running stopped enough⟩

theorem verdict_or_endless_ends_twoWords :
    ¬ wordList.LeftRecursive [] ∧
      ((∃ n, ∀ budget, n ≤ budget → verdict wordList (.ofTokens twoWords) budget ≠ .running) ∨
        ∀ k, ∃ n, ∀ budget, n ≤ budget → ∃ m, k ≤ m ∧
          matched wordList (.ofTokens twoWords) budget = twoWords ++ List.replicate m ending) ∧
      ¬ wordList.LeftRecursive [endMarker] ∧
      ∃ n, ∀ budget, n ≤ budget → verdict wordList (.ofTokens twoWords) budget ≠ .running := by
  have free : ¬ wordList.LeftRecursive [] := Grammar.not_leftRecursive_of_terminals (by decide)
  have freeOfMarks : ¬ wordList.LeftRecursive [endMarker] :=
    Grammar.not_leftRecursive_of_terminals (by decide)
  obtain ⟨either, stops⟩ := verdict_or_endless_ends free twoWords
  exact ⟨free, either, freeOfMarks, stops freeOfMarks⟩

/-- End markers without end. -/
def endless : Grammar where
  start := "s"
  terminals := ["#"]
  nonterminals := ["s"]
  rules := [⟨"s", ["#", "s"], ["#"]⟩]

/-- The configurations that the automaton of this grammar goes through on no tokens. -/
def Looping (c : Config Unit) : Prop :=
  c.state = .running ∧ (c.stack = ["s", bottom] ∨ c.stack = ["#", "s", bottom]) ∧
    (c.Awaits [ending] ∨ c.Awaits [])

theorem cycle_looping (c : Config Unit) (_ : c.state = .running) (looping : Looping c) :
    Meets (fun _ => Looping) (fun _ => True) (Config.cycle endless silent c) := by
  obtain ⟨running, stack, awaits⟩ := looping
  have next : c.next = ending := by
    rcases awaits with one | none
    · exact one.next_eq
    · exact none.next_eq
  rcases stack with stack | stack
  · have expanded : Config.cycle endless silent c =
        .ok (.expanded 0 ⟨"s", ["#", "s"], ["#"]⟩) { c with stack := ["#", "s", bottom] } := by
      simp only [Config.cycle, stack, next]
      rfl
    rw [expanded]
    exact ⟨running, .inr rfl, awaits⟩
  · have matched : Config.cycle endless silent c =
        .ok (.matched c.next) (c.shift ["s", bottom]) := by
      simp only [Config.cycle, stack, next]
      rfl
    rw [matched]
    exact ⟨running, .inl rfl, .inr (awaits.elim (·.shift _) (·.shift _))⟩

/-- No rule of this grammar is left recursive, and yet the automaton never stops: on no tokens at all it
keeps matching the end of the input. -/
theorem endless_never_stops :
    endless.check = .ok () ∧ ¬ endless.LeftRecursive [] ∧
      ∀ budget, verdict endless (.ofTokens []) budget = .running := by
  refine ⟨by decide +kernel, Grammar.not_leftRecursive_of_terminals (by decide), fun budget => ?_⟩
  have start : Looping (.init endless (.ofTokens []) ()) :=
    ⟨rfl, .inl rfl, .inl (Config.init_awaits [] ())⟩
  have loops := Config.run_preserves cycle_looping budget _ start
  obtain ⟨final, ran, state⟩ := verdict_run endless (.ofTokens []) budget
  rw [ran] at loops
  rw [state]
  exact loops.1

end Pushdown
