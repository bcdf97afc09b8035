import Pushdown.Automaton.Trace
import Pushdown.Compiler
import Pushdown.Proofs.Derivation

/-! Runs of the pushdown automaton. All that a cycle can do is said once, for any grammar and any
routine; what every cycle keeps holds along a run, and watching a run does not change it. The leaves
of a derivation are replayed apart from the automaton. -/
namespace Pushdown

theorem bind_get {ε σ α : Type} (f : σ → EStateM ε σ α) (s : σ) :
    ((get : EStateM ε σ σ) >>= f) s = f s s := rfl

/-- What is said of a result: of the value and the state if all went well, else of the error. -/
def Meets {ε σ α : Type} (post : α → σ → Prop) (failure : ε → Prop) : EStateM.Result ε σ α → Prop
  | .ok a s => post a s
  | .error e _ => failure e

namespace Grammar

theorem selectFrom_spec {index found : Nat} {top next : Symbol} {rules : List Rule} {rule : Rule}
    (selected : selectFrom index top next rules = some (found, rule)) :
    rule ∈ rules ∧ rule.left = top ∧ next ∈ rule.lookahead := by
  induction rules generalizing index with
  | nil => cases selected
  | cons candidate rest ih =>
    unfold selectFrom at selected
    split at selected
    · rename_i applies
      cases selected
      exact ⟨List.mem_cons_self, applies⟩
    · obtain ⟨member, applies⟩ := ih selected
      exact ⟨List.mem_cons_of_mem _ member, applies⟩

theorem select?_spec {g : Grammar} {index : Nat} {top next : Symbol} {rule : Rule}
    (selected : g.select? top next = some (index, rule)) :
    rule ∈ g.rules ∧ rule.left = top ∧ next ∈ rule.lookahead :=
  selectFrom_spec selected

end Grammar

namespace Token

/-- The end marker as a token. -/
def ending : Token := ⟨endMarker, none⟩

/-- The tokens before the first end marker, which are all that an automaton reads. -/
def upToEnd (tokens : List Token) : List Token := tokens.takeWhile (·.name ≠ endMarker)

end Token

namespace Automaton

open Token (ending)

variable {σ ε : Type} {g : Grammar} {routine : Routine σ ε}

/-- What the leaves of a derivation do, from left to right: a token becomes the one matched last, and
an action is performed. -/
def replay (routine : Routine σ ε) : List Leaf → Option Token → EStateM ε σ (Option Token)
  | [], last => pure last
  | .token t :: leaves, _ => replay routine leaves (some t)
  | .action a :: leaves, last => do
    routine a last
    replay routine leaves last

theorem replay_append (first second : List Leaf) (last : Option Token) :
    replay routine (first ++ second) last =
      replay routine first last >>= replay routine second := by
  induction first generalizing last with
  | nil => simp [replay]
  | cons leaf rest ih =>
    cases leaf with
    | token t => simp [replay, ih]
    | action a => simp [replay, ih]

namespace Config

/-- The tokens still to come, behind which there are end markers only. -/
def Awaits (c : Config σ) (tokens : List Token) : Prop :=
  c.current.toList ++ c.source.toList = tokens ∧ (c.current = none → c.source.toList = [])

theorem next_toList (source : TokenSource) :
    source.next.1.toList ++ source.next.2.toList = source.toList ∧
      (source.next.1 = none → source.next.2.toList = []) := by
  obtain ⟨pending, ended⟩ := source
  cases pending <;> cases ended <;> simp [TokenSource.next, TokenSource.toList]

theorem init_awaits (tokens : List Token) (work : σ) :
    (init g (.ofTokens tokens) work).Awaits (tokens ++ [ending]) :=
  next_toList (.ofTokens tokens)

theorem Awaits.next_eq {c : Config σ} {tokens : List Token} (awaits : c.Awaits tokens) :
    c.next = tokens.headD ending := by
  obtain ⟨rfl, dry⟩ := awaits
  cases present : c.current with
  | none => simp [next, present, dry present, ending]
  | some t => simp [next, present]

theorem Awaits.shift {c : Config σ} {tokens : List Token} (awaits : c.Awaits tokens)
    (rest : Stack Symbol) : (c.shift rest).Awaits tokens.tail := by
  obtain ⟨rfl, dry⟩ := awaits
  obtain ⟨supply, drained⟩ := next_toList c.source
  refine ⟨?_, drained⟩
  change c.source.next.1.toList ++ c.source.next.2.toList = _
  rw [supply]
  cases present : c.current with
  | none => simp [dry present]
  | some t => simp

/-- All that a cycle can do. -/
inductive Effect (g : Grammar) (routine : Routine σ ε) (c : Config σ) :
    EStateM.Result ε (Config σ) Step → Prop
  | rejected : Effect g routine c (.ok .rejected c.reject)
  | accepted {rest : Stack Symbol} : c.stack = bottom :: rest → c.next.name = endMarker →
      Effect g routine c (.ok .accepted c.accept)
  | expanded {s : Symbol} {rest : Stack Symbol} {index : Nat} {rule : Rule} :
      c.stack = s :: rest → s ≠ bottom → g.kind? s = some .nonterminal →
      g.select? s c.next.name = some (index, rule) →
      Effect g routine c (.ok (.expanded index rule) { c with stack := rule.right ++ rest })
  | matched {s : Symbol} {rest : Stack Symbol} :
      c.stack = s :: rest → s ≠ bottom → g.kind? s = some .terminal → c.next.name = s →
      Effect g routine c (.ok (.matched c.next) (c.shift rest))
  | performed {a : Symbol} {rest : Stack Symbol} {work : σ} :
      c.stack = a :: rest → a ≠ bottom → g.kind? a = some .action →
      routine a c.last c.work = .ok () work →
      Effect g routine c (.ok (.performed a) { c with stack := rest, work := work })
  | failed {a : Symbol} {rest : Stack Symbol} {work : σ} {e : ε} :
      c.stack = a :: rest → a ≠ bottom → g.kind? a = some .action →
      routine a c.last c.work = .error e work →
      Effect g routine c (.error e { c with work := work })

theorem cycle_effect (g : Grammar) (routine : Routine σ ε) (c : Config σ) :
    Effect g routine c (cycle g routine c) := by
  unfold cycle
  split
  · exact .rejected
  · rename_i top rest stack
    split
    · rename_i isBottom
      subst isBottom
      split
      · exact .accepted stack ‹_›
      · exact .rejected
    · rename_i notBottom
      split
      · split
        · exact .expanded stack notBottom ‹_› ‹_›
        · exact .rejected
      · split
        · exact .matched stack notBottom ‹_› (Eq.symm ‹_›)
        · exact .rejected
      · rename_i kind
        obtain ⟨_, source, current, last, state, work⟩ := c
        cases stack
        dsimp only
        split
        · exact .performed rfl notBottom kind ‹_›
        · exact .failed rfl notBottom kind ‹_›
      · exact .rejected

theorem run_running {c : Config σ} (running : c.state = .running) (budget : Nat) :
    run g routine (budget + 1) c = match cycle g routine c with
      | .ok _ c => run g routine budget c
      | .error e c => .error e c := by
  have stepped : step g routine c = cycle g routine c := by simp [step, running]
  rw [run, bind_get, if_pos running]
  simp only [bind, EStateM.bind, stepped]
  cases cycle g routine c <;> rfl

theorem run_stopped {c : Config σ} (stopped : c.state ≠ .running) (budget : Nat) :
    run g routine budget c = .ok () c := by
  cases budget with
  | zero => rfl
  | succ budget =>
    rw [run, bind_get, if_neg stopped]
    rfl

theorem run_add (g : Grammar) (routine : Routine σ ε) (n budget : Nat) (c : Config σ) :
    run g routine (n + budget) c = match run g routine n c with
      | .ok _ c => run g routine budget c
      | .error e c => .error e c := by
  induction n generalizing c with
  | zero => rw [Nat.zero_add]; rfl
  | succ n ih =>
    by_cases running : c.state = .running
    · rw [Nat.add_right_comm, run_running running, run_running running]
      cases cycle g routine c with
      | ok step next => exact ih next
      | error e next => rfl
    · rw [run_stopped running, run_stopped running]
      exact (run_stopped running budget).symm

/-- A run that has come to its end: a verdict, or the failure of an action. -/
def Stopped : EStateM.Result ε (Config σ) Unit → Prop
  | .ok _ c => c.state ≠ .running
  | .error _ _ => True

/-- A run that has come to its end stays there. -/
theorem Stopped.add {c : Config σ} {n : Nat} (stopped : Stopped (run g routine n c)) (more : Nat) :
    Stopped (run g routine (n + more) c) := by
  rw [run_add]
  cases ran : run g routine n c with
  | ok _ final =>
    rw [ran] at stopped
    dsimp only
    rw [run_stopped stopped]
    exact stopped
  | error e final => trivial

/-- A symbol on top other than the bottom is the first of the symbols above the bottom. -/
theorem symbols_eq_cons {c : Config σ} {s : Symbol} {below symbols under : Stack Symbol}
    (top : c.stack = s :: below) (stack : c.stack = symbols ++ bottom :: under)
    (other : s ≠ bottom) : ∃ rest, symbols = s :: rest ∧ below = rest ++ bottom :: under := by
  cases symbols with
  | nil => exact absurd (List.cons.inj (top.symm.trans stack)).1 other
  | cons first rest =>
    obtain ⟨rfl, rfl⟩ := List.cons.inj (top.symm.trans stack)
    exact ⟨rest, rfl, rfl⟩

end Config

namespace Watched

variable {ω : Type}

/-- Watching a run does not change it. -/
theorem run_config (g : Grammar) (routine : Routine σ ε) (observer : Observer σ ω) (budget : Nat)
    (w : Watched σ ω) :
    match Watched.run g routine observer budget w with
    | .ok _ w' => Config.run g routine budget w.config = .ok () w'.config
    | .error e w' => Config.run g routine budget w.config = .error e w'.config := by
  induction budget generalizing w with
  | zero => rfl
  | succ budget ih =>
    by_cases running : w.config.state = .running
    · have stepped : w.config.step g routine = Config.cycle g routine w.config := by
        simp [Config.step, running]
      rw [Config.run_running running]
      rw [run, bind_get, if_pos running]
      simp only [bind, EStateM.bind, step, stepped]
      cases Config.cycle g routine w.config with
      | ok result c => exact ih _
      | error e c => rfl
    · rw [Config.run_stopped running]
      rw [run, bind_get, if_neg running]
      rfl

theorem config_of_run {observer : Observer σ ω} {budget : Nat} {w w' : Watched σ ω}
    (done : Watched.run g routine observer budget w = .ok () w') :
    Config.run g routine budget w.config = .ok () w'.config := by
  have same := run_config g routine observer budget w
  rw [done] at same
  exact same

/-- What every cycle keeps holds at the end of a run, and a run fails only as a cycle does. -/
theorem run_preserves (observer : Observer σ ω) {keeps : Config σ → ω → Prop} {failure : ε → Prop}
    (cycles : ∀ c notes, c.state = .running → keeps c notes →
      Meets (fun step c' => keeps c' (observer step c' notes)) failure (Config.cycle g routine c))
    (budget : Nat) (w : Watched σ ω) (start : keeps w.config w.notes) :
    Meets (fun _ w' => keeps w'.config w'.notes) failure
      (Watched.run g routine observer budget w) := by
  induction budget generalizing w with
  | zero => exact start
  | succ budget ih =>
    by_cases running : w.config.state = .running
    · have stepped : w.config.step g routine = Config.cycle g routine w.config := by
        simp [Config.step, running]
      have kept := cycles w.config w.notes running start
      rw [run, bind_get, if_pos running]
      simp only [bind, EStateM.bind, step, stepped]
      cases cycled : Config.cycle g routine w.config with
      | ok result c =>
        rw [cycled] at kept
        refine ih _ ?_
        simp only [running, beq_self_eq_true, if_true]
        exact kept
      | error e c =>
        rw [cycled] at kept
        exact kept
    · rw [run, bind_get, if_neg running]
      exact start

/-- A run that succeeds does so when it is watched, and its notes are what every cycle keeps. -/
theorem exists_notes (observer : Observer σ ω) {keeps : Config σ → ω → Prop}
    (cycles : ∀ c notes, c.state = .running → keeps c notes →
      Meets (fun step c' => keeps c' (observer step c' notes)) (fun _ => True)
        (Config.cycle g routine c))
    {budget : Nat} {c final : Config σ} {notes : ω} (start : keeps c notes)
    (done : Config.run g routine budget c = .ok () final) :
    ∃ noted, Watched.run g routine observer budget ⟨c, notes⟩ = .ok () ⟨final, noted⟩ ∧
      keeps final noted := by
  have same := run_config g routine observer budget ⟨c, notes⟩
  have kept := run_preserves observer cycles budget ⟨c, notes⟩ start
  cases ran : Watched.run g routine observer budget ⟨c, notes⟩ with
  | error e w =>
    rw [ran] at same
    cases done.symm.trans same
  | ok _ w =>
    rw [ran] at same kept
    cases done.symm.trans same
    exact ⟨w.notes, rfl, kept⟩

end Watched

/-- What every cycle keeps holds also at the end of a run that nobody watches. -/
theorem Config.run_preserves {keeps : Config σ → Prop} {failure : ε → Prop}
    (cycles : ∀ c, c.state = .running → keeps c →
      Meets (fun _ => keeps) failure (cycle g routine c))
    (budget : Nat) (c : Config σ) (start : keeps c) :
    Meets (fun _ => keeps) failure (run g routine budget c) := by
  have same := Watched.run_config g routine (fun _ _ notes => notes) budget ⟨c, ()⟩
  have kept := Watched.run_preserves (fun _ _ notes => notes) (fun c _ => cycles c) budget ⟨c, ()⟩ start
  cases ran : Watched.run g routine (fun _ _ notes => notes) budget ⟨c, ()⟩ with
  | ok _ w =>
    rw [ran] at same kept
    rw [same]
    exact kept
  | error e w =>
    rw [ran] at same kept
    rw [same]
    exact kept

/-- Actions that do nothing never fail, so there is always a verdict. -/
theorem verdict_run (g : Grammar) (source : TokenSource) (budget : Nat) :
    ∃ final, Config.run g silent budget (.init g source ()) = .ok () final ∧
      verdict g source budget = final.state := by
  unfold verdict
  cases Config.run g silent budget (.init g source ()) with
  | ok _ final => exact ⟨final, rfl, rfl⟩
  | error e final => cases e

end Automaton

end Pushdown
