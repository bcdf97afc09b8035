import Pushdown.Proofs.Declarations
import Pushdown.Proofs.Runs
import Pushdown.Tree.Phrase

/-! Trees of runs. The steps of an accepting run fold to a forest with one tree for each symbol that
the run started from. Every node of these trees follows the grammar, and their leaves from left to right
are the tokens that the run matched with the actions that it performed between them. This holds of any
grammar that keeps the bottom symbol for the bottom of the stack. -/
namespace Pushdown

open Automaton
open Token (ending)

namespace Automaton

/-- The token that a step took from the input. -/
def Step.token? : Step → Option Token
  | .matched t => some t
  | _ => none

variable {σ ε : Type} {g : Grammar} {routine : Routine σ ε}

/-- The steps of a run, first one first, as many as the budget allows. -/
def Config.steps (g : Grammar) (routine : Routine σ ε) : Nat → Config σ → List Step
  | 0, _ => []
  | budget + 1, c =>
    if c.state = .running then
      match cycle g routine c with
      | .ok step next => step :: steps g routine budget next
      | .error _ _ => []
    else []

/-- The tokens that an automaton matches, its actions doing nothing. -/
def matched (g : Grammar) (source : TokenSource) (budget : Nat) : List Token :=
  (Config.steps g silent budget (Config.init g source ())).filterMap Step.token?

theorem Config.steps_running {c : Config σ} (running : c.state = .running) (budget : Nat) :
    steps g routine (budget + 1) c = match cycle g routine c with
      | .ok step next => step :: steps g routine budget next
      | .error _ _ => [] := by
  rw [steps, if_pos running]

theorem Config.steps_stopped {c : Config σ} (stopped : c.state ≠ .running) (budget : Nat) :
    steps g routine budget c = [] := by
  cases budget with
  | zero => rfl
  | succ budget => rw [steps, if_neg stopped]

/-- An observer that looks at nothing but the steps folds them, the first one first. -/
theorem Watched.run_notes {ω : Type} {f : ω → Step → ω} {budget : Nat} {w w' : Watched σ ω}
    (done : Watched.run g routine (fun step _ notes => f notes step) budget w = .ok () w') :
    w'.notes = (Config.steps g routine budget w.config).foldl f w.notes := by
  induction budget generalizing w with
  | zero =>
    cases done
    rfl
  | succ budget ih =>
    by_cases running : w.config.state = .running
    · have stepped : w.config.step g routine = Config.cycle g routine w.config := by
        simp [Config.step, running]
      rw [run, bind_get, if_pos running] at done
      simp only [bind, EStateM.bind, step, stepped] at done
      rw [Config.steps_running running]
      cases cycled : Config.cycle g routine w.config with
      | error e c =>
        rw [cycled] at done
        cases done
      | ok step c =>
        rw [cycled] at done
        rw [ih done]
        simp [running]
    · rw [run, bind_get, if_neg running] at done
      cases done
      rw [Config.steps_stopped running]
      rfl

/-- A collector notes the steps of the run, the last one first. -/
theorem Watched.run_collector {budget : Nat} {w w' : Watched σ (List Step)}
    (done : Watched.run g routine Tree.collector budget w = .ok () w') :
    w'.notes = (Config.steps g routine budget w.config).reverse ++ w.notes := by
  rw [run_notes (f := fun steps step => step :: steps) done]
  exact List.foldl_flip_cons_eq_append'

end Automaton

namespace Tree

/-- The root as a token. -/
def token (t : Tree) : Token := ⟨t.symbol, t.value⟩

/-- The trees of a grammar: terminals and actions are leaves, and the children of a nonterminal are,
in order, the right side of one of its rules. -/
inductive Follows (g : Grammar) : Tree → Prop
  | terminal {s : Symbol} {value : Option Value} :
      g.kind? s = some .terminal → Follows g (.node s value [])
  | action {a : Symbol} : g.kind? a = some .action → Follows g (leaf a)
  | expanded {s : Symbol} {rule : Rule} {children : List Tree} :
      g.kind? s = some .nonterminal → rule ∈ g.rules → rule.left = s →
      children.map symbol = rule.right → (∀ t ∈ children, Follows g t) →
      Follows g (.node s none children)

mutual

/-- The terminals and actions among the leaves, from left to right. -/
def leaves (g : Grammar) : Tree → List Leaf
  | .node symbol value [] =>
    match g.kind? symbol with
    | some .terminal => [.token ⟨symbol, value⟩]
    | some .action => [.action symbol]
    | _ => []
  | .node _ _ (tree :: forest) => leaves g tree ++ leavesAll g forest

def leavesAll (g : Grammar) : List Tree → List Leaf
  | [] => []
  | tree :: forest => leaves g tree ++ leavesAll g forest

end

variable {g : Grammar}

theorem leaves_nonterminal {s : Symbol} (kind : g.kind? s = some .nonterminal)
    (value : Option Value) (children : List Tree) :
    leaves g (.node s value children) = leavesAll g children := by
  cases children with
  | nil => simp [leaves, leavesAll, kind]
  | cons tree forest => simp [leaves, leavesAll]

theorem leavesAll_append (front back : List Tree) :
    leavesAll g (front ++ back) = leavesAll g front ++ leavesAll g back := by
  induction front with
  | nil => rfl
  | cons tree front ih => simp [leavesAll, ih]

mutual

/-- The frontier is what the leaves have of tokens. -/
theorem tokens_leaves (t : Tree) : Leaf.tokens (t.leaves g) = (t.frontier g).map token := by
  obtain ⟨symbol, value, children⟩ := t
  cases children with
  | nil =>
    unfold leaves frontier Grammar.isTerminal
    cases g.kind? symbol with
    | none => rfl
    | some kind => cases kind <;> rfl
  | cons tree forest =>
    simp only [leaves, frontier, Leaf.tokens_append, List.map_append]
    rw [tokens_leaves tree, tokens_leavesAll forest]

theorem tokens_leavesAll (forest : List Tree) :
    Leaf.tokens (leavesAll g forest) = (frontierAll g forest).map token := by
  cases forest with
  | nil => rfl
  | cons tree forest =>
    simp only [leavesAll, frontierAll, Leaf.tokens_append, List.map_append]
    rw [tokens_leaves tree, tokens_leavesAll forest]

end

theorem derives_leavesAll {forest : List Tree}
    (each : ∀ t ∈ forest, g.Derives [t.symbol] (t.leaves g)) :
    g.Derives (forest.map symbol) (leavesAll g forest) := by
  induction forest with
  | nil => exact .nil
  | cons tree forest ih =>
    have first := each tree List.mem_cons_self
    have later := ih fun t member => each t (List.mem_cons_of_mem _ member)
    exact first.append later

/-- A tree that follows the grammar is a derivation of its leaves. -/
theorem Follows.derives {t : Tree} (follows : t.Follows g) :
    g.Derives [t.symbol] (t.leaves g) := by
  induction follows with
  | terminal kind =>
    simp only [leaves, kind]
    exact .terminal kind rfl .nil
  | action kind =>
    simp only [leaf, leaves, kind]
    exact .action kind .nil
  | @expanded s rule children kind member left symbols _ each =>
    have own := derives_leavesAll each
    rw [symbols] at own
    rw [leaves_nonterminal kind]
    exact .of_rule kind ⟨rule, member, left, rfl⟩ own

/-- A nonterminal alone follows the grammar only if it has an empty rule. -/
theorem follows_leaf_iff {s : Symbol} (kind : g.kind? s = some .nonterminal) :
    (leaf s).Follows g ↔ ∃ rule ∈ g.rules, rule.left = s ∧ rule.right = [] := by
  constructor
  · intro follows
    cases follows with
    | terminal other => exact absurd (kind.symm.trans other) (by decide)
    | action other => exact absurd (kind.symm.trans other) (by decide)
    | expanded _ member left symbols _ => exact ⟨_, member, left, symbols.symm⟩
  · rintro ⟨rule, member, left, empty⟩
    exact .expanded kind member left empty.symm fun t within => absurd within List.not_mem_nil

/-- The forest that the steps of a run fold to. -/
def forest (steps : List Step) : List Tree := steps.foldr (fun step later => graft later step) []

theorem ofSteps_reverse (start : Symbol) (steps : List Step) :
    ofSteps start steps.reverse = (forest steps).head?.getD (leaf start) := by
  rw [ofSteps, List.foldl_reverse]
  rfl

theorem adopt_append {symbols : List Symbol} {own : List Tree} (same : own.map symbol = symbols)
    (later : List Tree) : adopt symbols (own ++ later) = (own, later) := by
  subst same
  induction own with
  | nil => cases later <;> rfl
  | cons tree own ih => simp [adopt, ih]

end Tree

namespace Automaton.Config

variable {σ ε : Type} {g : Grammar} {routine : Routine σ ε}

/-- The next token is the first of those to come, or an end marker behind all of them. -/
theorem reads_cons {t : Token} {upcoming read rest : List Token} {extra : Nat}
    (next : t = upcoming.headD ending)
    (later : read ++ rest = upcoming.tail ++ List.replicate extra ending) :
    ∃ extra, (t :: read) ++ rest = upcoming ++ List.replicate extra ending := by
  subst next
  rw [List.cons_append, later]
  cases upcoming with
  | nil => exact ⟨extra + 1, rfl⟩
  | cons u upcoming => exact ⟨extra, rfl⟩

/-- What the steps to an accepting configuration tell, from where a token was matched last and some
symbols stood above the bottom: their forest belongs to these symbols, its leaves are the tokens matched
with the actions performed between them, and behind the tokens matched there is an end marker. -/
structure Traces (g : Grammar) (routine : Routine σ ε) (last : Option Token) (work : σ)
    (final : Config σ) (symbols : List Symbol) (upcoming : List Token) (steps : List Step) :
    Prop where
  symbols : (Tree.forest steps).map Tree.symbol = symbols
  follows : ∀ t ∈ Tree.forest steps, t.Follows g
  tokens : Leaf.tokens (Tree.leavesAll g (Tree.forest steps)) = steps.filterMap Step.token?
  reads : ∃ next rest extra, next.name = endMarker ∧
    steps.filterMap Step.token? ++ next :: rest = upcoming ++ List.replicate extra ending
  replays : replay routine (Tree.leavesAll g (Tree.forest steps)) last work =
    .ok final.last final.work

namespace Traces

variable {last : Option Token} {work : σ} {final : Config σ} {rest : List Symbol}
  {upcoming : List Token} {steps : List Step}

theorem accepted (c : Config σ) (awaits : c.Awaits upcoming) (ended : c.next.name = endMarker) :
    Traces g routine c.last c.work c.accept [] upcoming [.accepted] := by
  refine ⟨rfl, ?_, rfl, ?_, rfl⟩
  · intro t member
    cases member
  · rw [awaits.next_eq] at ended
    cases upcoming with
    | nil => exact ⟨ending, [], 1, ended, rfl⟩
    | cons t upcoming => exact ⟨t, upcoming, 0, ended, (List.append_nil _).symm⟩

theorem expanded {s : Symbol} {index : Nat} {rule : Rule} (kind : g.kind? s = some .nonterminal)
    (member : rule ∈ g.rules) (left : rule.left = s)
    (traces : Traces g routine last work final (rule.right ++ rest) upcoming steps) :
    Traces g routine last work final (s :: rest) upcoming (.expanded index rule :: steps) := by
  obtain ⟨symbols, follows, tokens, reads, replays⟩ := traces
  obtain ⟨own, later, split, ownSymbols, laterSymbols⟩ := List.map_eq_append_iff.mp symbols
  have grown : Tree.forest (.expanded index rule :: steps) = .node s none own :: later := by
    have grafted : Tree.forest (.expanded index rule :: steps) =
        Tree.graft (Tree.forest steps) (.expanded index rule) := rfl
    rw [grafted, split, Tree.graft, Tree.adopt_append ownSymbols, left]
  have same : Tree.leavesAll g (.node s none own :: later) =
      Tree.leavesAll g (Tree.forest steps) := by
    rw [split, Tree.leavesAll, Tree.leaves_nonterminal kind, Tree.leavesAll_append]
  rw [split] at follows
  refine ⟨?_, ?_, ?_, reads, ?_⟩
  · rw [grown, List.map_cons, laterSymbols]
    rfl
  · rw [grown]
    intro t within
    rcases List.mem_cons.mp within with rfl | below
    · exact .expanded kind member left ownSymbols fun t inOwn =>
        follows t (List.mem_append_left _ inOwn)
    · exact follows t (List.mem_append_right _ below)
  · rw [grown, same]
    exact tokens
  · rw [grown, same]
    exact replays

theorem matched {t : Token} (kind : g.kind? t.name = some .terminal)
    (next : t = upcoming.headD ending)
    (traces : Traces g routine (some t) work final rest upcoming.tail steps) :
    Traces g routine last work final (t.name :: rest) upcoming (.matched t :: steps) := by
  obtain ⟨symbols, follows, tokens, ⟨behind, after, extra, ended, read⟩, replays⟩ := traces
  have grown : Tree.forest (.matched t :: steps) = .node t.name t.value [] :: Tree.forest steps := rfl
  have leaves : Tree.leavesAll g (Tree.forest (.matched t :: steps)) =
      .token t :: Tree.leavesAll g (Tree.forest steps) := by
    rw [grown, Tree.leavesAll, Tree.leaves, kind]
    rfl
  have taken : (Step.matched t :: steps).filterMap Step.token? =
      t :: steps.filterMap Step.token? := rfl
  refine ⟨?_, ?_, ?_, ?_, ?_⟩
  · rw [grown, List.map_cons, symbols]
    rfl
  · rw [grown]
    intro tree within
    rcases List.mem_cons.mp within with rfl | later
    · exact .terminal kind
    · exact follows tree later
  · rw [leaves, taken, Leaf.tokens_token, tokens]
  · obtain ⟨extra, read⟩ := reads_cons next read
    exact ⟨behind, after, extra, ended, taken ▸ read⟩
  · rw [leaves]
    exact replays

theorem performed {a : Symbol} {work' : σ} (kind : g.kind? a = some .action)
    (performed : routine a last work = .ok () work')
    (traces : Traces g routine last work' final rest upcoming steps) :
    Traces g routine last work final (a :: rest) upcoming (.performed a :: steps) := by
  obtain ⟨symbols, follows, tokens, reads, replays⟩ := traces
  have grown : Tree.forest (.performed a :: steps) = Tree.leaf a :: Tree.forest steps := rfl
  have leaves : Tree.leavesAll g (Tree.forest (.performed a :: steps)) =
      .action a :: Tree.leavesAll g (Tree.forest steps) := by
    rw [grown, Tree.leavesAll, Tree.leaf, Tree.leaves, kind]
    rfl
  refine ⟨?_, ?_, ?_, reads, ?_⟩
  · rw [grown, List.map_cons, symbols]
    rfl
  · rw [grown]
    intro t within
    rcases List.mem_cons.mp within with rfl | later
    · exact .action kind
    · exact follows t later
  · rw [leaves, Leaf.tokens_action, tokens]
    rfl
  · rw [leaves]
    simp only [replay, bind, EStateM.bind, performed]
    exact replays

end Traces

/-- An accepting run from some symbols above the topmost bottom is told by its steps. -/
theorem run_traces {budget : Nat} {c final : Config σ} {symbols under : List Symbol}
    {upcoming : List Token} (rules : ∀ rule ∈ g.rules, bottom ∉ rule.right)
    (running : c.state = .running) (stack : c.stack = symbols ++ bottom :: under)
    (absent : bottom ∉ symbols) (awaits : c.Awaits upcoming)
    (done : run g routine budget c = .ok () final) (accepted : final.state = .accepted) :
    Traces g routine c.last c.work final symbols upcoming (steps g routine budget c) := by
  induction budget generalizing c symbols upcoming with
  | zero =>
    cases done
    simp [running] at accepted
  | succ budget ih =>
    rw [run_running running] at done
    rw [steps_running running]
    have effect := cycle_effect g routine c
    generalize cycle g routine c = result at effect done
    cases effect with
    | rejected =>
      replace done : run g routine budget c.reject = .ok () final := done
      rw [run_stopped (by simp [reject])] at done
      cases done
      cases accepted
    | accepted bottomStack ended =>
      replace done : run g routine budget c.accept = .ok () final := done
      rw [run_stopped (by simp [accept])] at done
      cases done
      have empty : symbols = [] := by
        cases symbols with
        | nil => rfl
        | cons s rest =>
          rw [stack] at bottomStack
          exact absurd ((List.cons.inj bottomStack).1 ▸ List.mem_cons_self) absent
      subst empty
      have none : steps g routine budget c.accept = [] := steps_stopped (by simp [accept]) budget
      simp only [none]
      exact .accepted c awaits ended
    | @expanded s below index rule top notBottom kind selected =>
      obtain ⟨rest, rfl, rfl⟩ := symbols_eq_cons top stack notBottom
      obtain ⟨member, left, _⟩ := Grammar.select?_spec selected
      have absentNext : bottom ∉ rule.right ++ rest := by
        simp only [List.mem_append, not_or]
        exact ⟨rules rule member, fun h => absent (List.mem_cons_of_mem _ h)⟩
      exact .expanded kind member left
        (ih (c := { c with stack := rule.right ++ (rest ++ bottom :: under) }) running
          (List.append_assoc ..).symm absentNext awaits done)
    | @matched s below top notBottom kind same =>
      obtain ⟨rest, rfl, rfl⟩ := symbols_eq_cons top stack notBottom
      subst same
      exact .matched kind awaits.next_eq
        (ih (c := c.shift (rest ++ bottom :: under)) running rfl
          (fun h => absent (List.mem_cons_of_mem _ h)) (awaits.shift _) done)
    | @performed a below work top notBottom kind performed =>
      obtain ⟨rest, rfl, rfl⟩ := symbols_eq_cons top stack notBottom
      exact .performed kind performed
        (ih (c := { c with stack := rest ++ bottom :: under, work := work }) running rfl
          (fun h => absent (List.mem_cons_of_mem _ h)) awaits done)
    | failed => cases done

/-- A start symbol with the name of the bottom is taken for it, and is not expanded. -/
theorem run_init_traces {tokens : List Token} {work : σ} {budget : Nat} {final : Config σ}
    (rules : ∀ rule ∈ g.rules, bottom ∉ rule.right)
    (done : run g routine budget (init g (.ofTokens tokens) work) = .ok () final)
    (accepted : final.state = .accepted) :
    Traces g routine none work final (if g.start = bottom then [] else [g.start])
      (tokens ++ [ending]) (steps g routine budget (init g (.ofTokens tokens) work)) := by
  have awaits := init_awaits (g := g) tokens work
  split
  · rename_i isBottom
    have stack : (init g (.ofTokens tokens) work).stack = [] ++ bottom :: [bottom] := by
      simp [init, isBottom]
    exact run_traces rules rfl stack List.not_mem_nil awaits done accepted
  · rename_i other
    have stack : (init g (.ofTokens tokens) work).stack = [g.start] ++ bottom :: [] := rfl
    have absent : bottom ∉ [g.start] := fun same => other (List.mem_singleton.mp same).symm
    exact run_traces rules rfl stack absent awaits done accepted

/-- The first tree that the steps from the start fold to has their leaves. -/
theorem Traces.tree {last : Option Token} {work : σ} {final : Config σ} {upcoming : List Token}
    {steps : List Step} (kind : g.kind? g.start = some .nonterminal)
    (traces : Traces g routine last work final (if g.start = bottom then [] else [g.start])
      upcoming steps) :
    let tree := (Tree.forest steps).head?.getD (.leaf g.start)
    tree.symbol = g.start ∧ (g.start ≠ bottom → tree.Follows g) ∧
      (g.start = bottom → tree = .leaf bottom) ∧
      tree.leaves g = Tree.leavesAll g (Tree.forest steps) := by
  obtain ⟨symbols, follows, _, _, _⟩ := traces
  split at symbols
  · rename_i isBottom
    obtain empty := List.map_eq_nil_iff.mp symbols
    rw [empty]
    refine ⟨rfl, fun other => absurd isBottom other, fun _ => congrArg Tree.leaf isBottom, ?_⟩
    exact Tree.leaves_nonterminal kind none []
  · rename_i other
    obtain ⟨tree, later, grown, symbol, none⟩ := List.map_eq_cons_iff.mp symbols
    obtain rfl := List.map_eq_nil_iff.mp none
    rw [grown] at follows ⊢
    refine ⟨symbol, fun _ => follows tree List.mem_cons_self, fun isBottom => absurd isBottom other, ?_⟩
    simp [Tree.leavesAll]

/-- An accepting run traces a derivation from the symbols above the bottom. Terminals may be matched
with end markers behind the tokens; the token after the last one matched is an end marker. -/
theorem run_accepted {budget : Nat} {c final : Config σ} {symbols : List Symbol}
    {upcoming : List Token} (rules : ∀ rule ∈ g.rules, bottom ∉ rule.right)
    (running : c.state = .running) (stack : c.stack = symbols ++ [bottom])
    (absent : bottom ∉ symbols) (awaits : c.Awaits upcoming)
    (done : run g routine budget c = .ok () final) (accepted : final.state = .accepted) :
    ∃ leaves rest extra, g.Derives symbols leaves ∧
      Leaf.tokens leaves ++ rest = upcoming ++ List.replicate extra ending ∧
      (rest.headD ending).name = endMarker ∧
      replay routine leaves c.last c.work = .ok final.last final.work := by
  obtain ⟨symbols, follows, tokens, ⟨next, rest, extra, ended, read⟩, replays⟩ :=
    run_traces rules running stack absent awaits done accepted
  have derives := Tree.derives_leavesAll fun t member => (follows t member).derives
  rw [symbols] at derives
  exact ⟨_, next :: rest, extra, derives, tokens ▸ read, ended, replays⟩

theorem cycle_bottom {c : Config σ} {under : Stack Symbol} (stack : c.stack = bottom :: under) :
    cycle g routine c =
      if c.next.name = endMarker then .ok .accepted c.accept else .ok .rejected c.reject := by
  simp only [cycle, stack, if_true]

end Automaton.Config

/-- Where the start symbol has the name of the bottom, the first token decides, in the first step. -/
theorem Automaton.verdict_of_bottom_start {g : Grammar} (isBottom : g.start = bottom) (tokens : List Token)
    (budget : Nat) :
    verdict g (.ofTokens tokens) budget = .accepted ↔
      0 < budget ∧ (tokens.headD ending).name = endMarker := by
  obtain ⟨final, done, state⟩ := verdict_run g (.ofTokens tokens) budget
  rw [state]
  cases budget with
  | zero =>
    cases done
    simp [Config.init]
  | succ budget =>
    have stack : (Config.init g (.ofTokens tokens) ()).stack = bottom :: [bottom] := by
      simp [Config.init, isBottom]
    have next : (Config.init g (.ofTokens tokens) ()).next = tokens.headD ending := by
      rw [(Config.init_awaits (g := g) tokens ()).next_eq]
      cases tokens <;> rfl
    rw [Config.run_running rfl, Config.cycle_bottom stack, next] at done
    by_cases ended : (tokens.headD ending).name = endMarker
    · simp only [if_pos ended, Config.run_stopped (c := Config.accept _) (by simp [Config.accept])] at done
      cases done
      exact iff_of_true rfl ⟨Nat.succ_pos _, ended⟩
    · simp only [if_neg ended, Config.run_stopped (c := Config.reject _) (by simp [Config.reject])] at done
      cases done
      exact iff_of_false (by simp [Config.reject]) fun both => ended both.2

namespace Tree

/-- The state of a parse is the verdict, and its tree is the first one that the steps fold to. -/
theorem parse_eq (g : Grammar) (source : TokenSource) (budget : Nat) :
    parse g source budget = (verdict g source budget,
      (forest (Config.steps g silent budget (Config.init g source ()))).head?.getD (leaf g.start)) := by
  have same := Watched.run_config g silent collector budget ⟨Config.init g source (), []⟩
  unfold parse verdict
  cases ran : Watched.run g silent collector budget ⟨Config.init g source (), []⟩ with
  | error e w => cases e
  | ok _ w =>
    rw [ran] at same
    have notes := Watched.run_collector ran
    rw [List.append_nil] at notes
    simp only [same, notes, ofSteps_reverse]

/-- The tree of some tokens, if they are accepted. -/
def build? (g : Grammar) (source : TokenSource) (budget : Nat) : Option Tree :=
  match parse g source budget with
  | (.accepted, tree) => some tree
  | _ => none

theorem build?_eq_some_iff {g : Grammar} {source : TokenSource} {budget : Nat} {t : Tree} :
    build? g source budget = some t ↔ verdict g source budget = .accepted ∧
      (forest (Config.steps g silent budget (Config.init g source ()))).head?.getD (leaf g.start) =
        t := by
  rw [build?, parse_eq]
  cases verdict g source budget <;> simp

theorem isSome_build?_iff {g : Grammar} {source : TokenSource} {budget : Nat} :
    (build? g source budget).isSome = true ↔ verdict g source budget = .accepted := by
  simp [Option.isSome_iff_exists, build?_eq_some_iff]

end Tree

/-- A tree is built exactly if the tokens are accepted. Its root is the start symbol, and its terminals are the
tokens that were matched, which are the given ones up to an end marker, where end markers go on behind the
last of them. It is a derivation tree unless the start symbol has the name of the bottom. A start symbol
of that name is taken for the bottom. The tokens are then accepted exactly if they begin with an end
marker, and the tree is the start symbol alone, which is a derivation tree only by an empty rule. -/
theorem built_tree_is_derivation {g : Grammar} (checked : g.check = .ok ())
    (rules : ∀ rule ∈ g.rules, bottom ∉ rule.right) (tokens : List Token) (budget : Nat) :
    ((Tree.build? g (.ofTokens tokens) budget).isSome = true ↔
      verdict g (.ofTokens tokens) budget = .accepted) ∧
    (∀ t, Tree.build? g (.ofTokens tokens) budget = some t →
      t.symbol = g.start ∧ (g.start ≠ bottom → t.Follows g) ∧
      (g.start = bottom → t = .leaf bottom ∧
        (t.Follows g ↔ ∃ rule ∈ g.rules, rule.left = bottom ∧ rule.right = [])) ∧
      (t.frontier g).map Tree.token = matched g (.ofTokens tokens) budget ∧
      ∃ next rest extra, next.name = endMarker ∧
        matched g (.ofTokens tokens) budget ++ next :: rest =
          tokens ++ List.replicate extra ending) ∧
    (g.start = bottom → (verdict g (.ofTokens tokens) budget = .accepted ↔
      0 < budget ∧ (tokens.headD ending).name = endMarker)) := by
  have kind := Grammar.start_kind checked
  refine ⟨Tree.isSome_build?_iff, fun t built => ?_, fun isBottom =>
    verdict_of_bottom_start isBottom tokens budget⟩
  obtain ⟨accepted, root⟩ := Tree.build?_eq_some_iff.mp built
  obtain ⟨final, done, state⟩ := verdict_run g (.ofTokens tokens) budget
  have traces := Config.run_init_traces rules done (state ▸ accepted)
  obtain ⟨symbol, follows, alone, leaves⟩ := traces.tree kind
  rw [root] at symbol follows alone leaves
  obtain ⟨next, rest, extra, ended, split⟩ := traces.reads
  refine ⟨symbol, follows, fun isBottom => ⟨alone isBottom, ?_⟩, ?_, next, rest, extra + 1, ended, ?_⟩
  · rw [alone isBottom]
    exact Tree.follows_leaf_iff (isBottom ▸ kind)
  · rw [← Tree.tokens_leaves, leaves]
    exact traces.tokens
  · rw [List.append_assoc] at split
    exact split

/-- Words with commas between them, up to an end marker that is itself part of the list. -/
def wordList : Grammar where
  start := "list"
  terminals := ["word", ",", "#"]
  nonterminals := ["list", "more"]
  actions := ["@first"]
  rules :=
    [⟨"list", ["word", "@first", "more", "#"], ["word"]⟩,
     ⟨"more", [",", "word", "more"], [","]⟩,
     ⟨"more", [], ["#"]⟩]

def twoWords : List Token :=
  [⟨"word", some (.text "this")⟩, ⟨",", none⟩, ⟨"word", some (.text "that")⟩]

theorem built_tree_is_derivation_twoWords :
    wordList.check = .ok () ∧ (∀ rule ∈ wordList.rules, bottom ∉ rule.right) ∧
      ∃ t, Tree.build? wordList (.ofTokens twoWords) 9 = some t ∧
        t.symbol = "list" ∧ t.Follows wordList ∧
        (t.frontier wordList).map Tree.token = matched wordList (.ofTokens twoWords) 9 ∧
        ∃ next rest extra, next.name = endMarker ∧
          matched wordList (.ofTokens twoWords) 9 ++ next :: rest =
            twoWords ++ List.replicate extra ending := by
  have checked : wordList.check = .ok () := by decide +kernel
  have rules : ∀ rule ∈ wordList.rules, bottom ∉ rule.right := by decide +kernel
  have accepted : verdict wordList (.ofTokens twoWords) 9 = .accepted := by decide +kernel
  obtain ⟨built, derivation, _⟩ := built_tree_is_derivation checked rules twoWords 9
  obtain ⟨t, found⟩ := Option.isSome_iff_exists.mp (built.mpr accepted)
  obtain ⟨symbol, follows, _, reads⟩ := derivation t found
  exact ⟨checked, rules, t, found, symbol, follows (by decide), reads⟩

/-- A grammar whose start symbol has the name of the bottom. It derives a single word. -/
def bottomStart : Grammar where
  start := "%"
  terminals := ["word", "#"]
  nonterminals := ["%"]
  rules := [⟨"%", ["word"], ["word"]⟩]

/-- The start symbol is taken for the bottom: no tokens at all are accepted, and the tree of this has a
nonterminal for a leaf that no rule makes one. -/
theorem bottomStart_accepted_unexpanded :
    bottomStart.check = .ok () ∧ (∀ rule ∈ bottomStart.rules, bottom ∉ rule.right) ∧
      verdict bottomStart (.ofTokens []) 1 = .accepted ∧
      ∃ t, Tree.build? bottomStart (.ofTokens []) 1 = some t ∧ ¬ t.Follows bottomStart := by
  refine ⟨by decide +kernel, by decide +kernel, by decide +kernel, .leaf "%", rfl, ?_⟩
  rw [Tree.follows_leaf_iff (by decide +kernel)]
  decide

end Pushdown
