import Mathlib.Computability.ContextFreeGrammar
import Pushdown.Grammar.Basic

/-! Derivations of a grammar. A derivation from a list of symbols is recorded by its leaves from left
to right: the tokens that stand for terminals, and the actions between them. Without values and
actions this is derivability in the plain context-free grammar of the rules. -/

/-- Terminals and nonterminals by name, without actions. -/
abbrev PlainSymbol := Symbol String String

namespace Pushdown

inductive Leaf where
  | token (t : Token)
  | action (name : Symbol)

namespace Leaf

def token? : Leaf → Option Token
  | .token t => some t
  | .action _ => none

def tokens (leaves : List Leaf) : List Token := leaves.filterMap token?

@[simp] theorem tokens_nil : tokens [] = [] := rfl

@[simp] theorem tokens_token (t : Token) (leaves : List Leaf) :
    tokens (.token t :: leaves) = t :: tokens leaves := rfl

@[simp] theorem tokens_action (a : Symbol) (leaves : List Leaf) :
    tokens (.action a :: leaves) = tokens leaves := rfl

@[simp] theorem tokens_append (l r : List Leaf) : tokens (l ++ r) = tokens l ++ tokens r :=
  List.filterMap_append

end Leaf

namespace Grammar

/-- The leaves that a list of symbols derives. -/
inductive Derives (g : Grammar) : List Symbol → List Leaf → Prop
  | nil : Derives g [] []
  | terminal {s : Symbol} {t : Token} {rest : List Symbol} {leaves : List Leaf} :
      g.kind? s = some .terminal → t.name = s → Derives g rest leaves →
      Derives g (s :: rest) (.token t :: leaves)
  | action {a : Symbol} {rest : List Symbol} {leaves : List Leaf} :
      g.kind? a = some .action → Derives g rest leaves →
      Derives g (a :: rest) (.action a :: leaves)
  | expand {s : Symbol} {rule : Rule} {rest : List Symbol} {own leaves : List Leaf} :
      g.kind? s = some .nonterminal → rule ∈ g.rules → rule.left = s →
      Derives g rule.right own → Derives g rest leaves →
      Derives g (s :: rest) (own ++ leaves)

/-- Left sides are nonterminals, and right sides have declared symbols only. -/
def Declared (g : Grammar) : Prop :=
  ∀ rule ∈ g.rules, g.kind? rule.left = some .nonterminal ∧ ∀ s ∈ rule.right, g.kind? s ≠ none

instance (g : Grammar) : Decidable g.Declared :=
  inferInstanceAs (Decidable (∀ rule ∈ g.rules,
    g.kind? rule.left = some .nonterminal ∧ ∀ s ∈ rule.right, g.kind? s ≠ none))

variable {g : Grammar} {front back : List Symbol} {leaves : List Leaf}

theorem Derives.append {first second : List Leaf} (left : g.Derives front first)
    (right : g.Derives back second) : g.Derives (front ++ back) (first ++ second) := by
  induction left with
  | nil => exact right
  | terminal kind name _ ih => exact .terminal kind name ih
  | action kind _ ih => exact .action kind ih
  | expand kind member left own _ _ ih =>
    rw [List.append_assoc]
    exact .expand kind member left own ih

theorem Derives.split (derives : g.Derives (front ++ back) leaves) :
    ∃ first second, leaves = first ++ second ∧ g.Derives front first ∧ g.Derives back second := by
  induction front generalizing leaves with
  | nil => exact ⟨[], leaves, rfl, .nil, derives⟩
  | cons s front ih =>
    cases derives with
    | terminal kind name rest =>
      obtain ⟨first, second, rfl, left, right⟩ := ih rest
      exact ⟨_, second, rfl, .terminal kind name left, right⟩
    | action kind rest =>
      obtain ⟨first, second, rfl, left, right⟩ := ih rest
      exact ⟨_, second, rfl, .action kind left, right⟩
    | expand kind member same own rest =>
      obtain ⟨first, second, rfl, left, right⟩ := ih rest
      exact ⟨_ ++ first, second, (List.append_assoc ..).symm,
        .expand kind member same own left, right⟩

/-- A derivation from a single nonterminal by one of its rules. -/
theorem Derives.of_rule {left : Symbol} {right : List Symbol}
    (kind : g.kind? left = some .nonterminal)
    (rule : ∃ rule ∈ g.rules, rule.left = left ∧ rule.right = right)
    (derives : g.Derives right leaves) : g.Derives [left] leaves := by
  obtain ⟨rule, member, rfl, rfl⟩ := rule
  simpa only [List.append_nil] using Derives.expand kind member rfl derives .nil

/-- Every terminal among the leaves is a symbol of a right side, or of the list itself. -/
theorem Derives.token_mem {symbols : List Symbol} (derives : g.Derives symbols leaves) :
    ∀ t ∈ Leaf.tokens leaves, t.name ∈ symbols ∨ ∃ rule ∈ g.rules, t.name ∈ rule.right := by
  induction derives with
  | nil => simp
  | terminal kind name _ ih =>
    intro t member
    rcases List.mem_cons.mp member with rfl | member
    · exact .inl (by simp [name])
    · exact (ih t member).imp_left (List.mem_cons_of_mem _)
  | action kind _ ih =>
    intro t member
    exact (ih t member).imp_left (List.mem_cons_of_mem _)
  | @expand s rule _ _ _ kind member left _ _ own ih =>
    intro t member'
    rcases List.mem_append.mp (Leaf.tokens_append .. ▸ member') with inner | outer
    · rcases own t inner with inRule | inRule
      · exact .inr ⟨rule, member, inRule⟩
      · exact .inr inRule
    · exact (ih t outer).imp_left (List.mem_cons_of_mem _)

theorem mem_terminals {s : Symbol} (kind : g.kind? s = some .terminal) : s ∈ g.terminals := by
  unfold kind? at kind
  grind

theorem mem_actions {a : Symbol} (kind : g.kind? a = some .action) : a ∈ g.actions := by
  unfold kind? at kind
  grind

/-- Tokens that can be cut into what the symbols mean, one after another. -/
def Yields (meaning : Symbol → List Token → Prop) : List Symbol → List Token → Prop
  | [], ts => ts = []
  | s :: rest, ts => ∃ own after, ts = own ++ after ∧ meaning s own ∧ Yields meaning rest after

/-- If every rule carries the meaning of its right side to its left side, the tokens of a derivation
have the meaning of its symbols. -/
theorem Derives.yields {meaning : Symbol → List Token → Prop} {symbols : List Symbol}
    (rules : ∀ rule ∈ g.rules, ∀ ts, Yields meaning rule.right ts → meaning rule.left ts)
    (actions : ∀ a ∈ g.actions, meaning a [])
    (derives : g.Derives symbols leaves)
    (terminals : ∀ t ∈ Leaf.tokens leaves, t.name ∈ g.terminals → meaning t.name [t]) :
    Yields meaning symbols (Leaf.tokens leaves) := by
  induction derives with
  | nil => rfl
  | @terminal _ t _ _ kind name _ ih =>
    subst name
    exact ⟨[t], _, rfl, terminals t (by simp) (mem_terminals kind),
      ih fun t member => terminals t (by simp [member])⟩
  | action kind _ ih => exact ⟨[], _, rfl, actions _ (mem_actions kind), ih terminals⟩
  | expand kind member left _ _ own ih =>
    have inner := own fun t member => terminals t (by simp [member])
    have outer := ih fun t member => terminals t (by simp [member])
    exact ⟨_, _, Leaf.tokens_append .., left ▸ rules _ member _ inner, outer⟩

/-- The place of a symbol in a plain grammar, which actions do not have. -/
def plainSymbol? (g : Grammar) (s : Symbol) : Option PlainSymbol :=
  match g.kind? s with
  | some .terminal => some (.terminal s)
  | some .nonterminal => some (.nonterminal s)
  | _ => none

def plainRule (g : Grammar) (rule : Rule) : ContextFreeRule String String :=
  ⟨rule.left, rule.right.filterMap g.plainSymbol?⟩

/-- The rules as a plain context-free grammar: without actions and lookahead sets. -/
def plain (g : Grammar) : ContextFreeGrammar String where
  NT := String
  initial := g.start
  rules := (g.rules.map g.plainRule).toFinset

/-- What a list of symbols is in the plain grammar. -/
def plainForm (g : Grammar) (symbols : List Symbol) : List PlainSymbol :=
  symbols.filterMap g.plainSymbol?

/-- A word of the plain grammar. -/
def plainWord (tokens : List Token) : List PlainSymbol := tokens.map fun t => .terminal t.name

variable {symbols : List Symbol} {s : Symbol}

theorem plainForm_terminal (kind : g.kind? s = some .terminal) (rest : List Symbol) :
    g.plainForm (s :: rest) = .terminal s :: g.plainForm rest := by
  simp [plainForm, plainSymbol?, kind]

theorem plainForm_nonterminal (kind : g.kind? s = some .nonterminal) (rest : List Symbol) :
    g.plainForm (s :: rest) = .nonterminal s :: g.plainForm rest := by
  simp [plainForm, plainSymbol?, kind]

theorem plainForm_action (kind : g.kind? s = some .action) (rest : List Symbol) :
    g.plainForm (s :: rest) = g.plainForm rest := by
  simp [plainForm, plainSymbol?, kind]

theorem plainForm_append (front back : List Symbol) :
    g.plainForm (front ++ back) = g.plainForm front ++ g.plainForm back :=
  List.filterMap_append

theorem mem_plain_rules {r : ContextFreeRule String String} :
    r ∈ g.plain.rules ↔ ∃ rule ∈ g.rules, g.plainRule rule = r := by
  change r ∈ (g.rules.map g.plainRule).toFinset ↔ _
  rw [List.mem_toFinset, List.mem_map]

theorem plain_produces {rule : Rule} (member : rule ∈ g.rules) :
    g.plain.Produces [.nonterminal rule.left] (g.plainForm rule.right) := by
  exact ⟨g.plainRule rule, mem_plain_rules.mpr ⟨rule, member, rfl⟩,
    ContextFreeRule.Rewrites.input_output⟩

theorem Derives.plain (derives : g.Derives symbols leaves) :
    g.plain.Derives (g.plainForm symbols) (plainWord (Leaf.tokens leaves)) := by
  induction derives with
  | nil => exact .refl _
  | terminal kind name _ ih =>
    rw [plainForm_terminal kind, Leaf.tokens_token, plainWord, List.map_cons, name]
    exact ih.append_left [.terminal _]
  | action kind _ ih =>
    rw [plainForm_action kind]
    exact ih
  | expand kind member left _ _ own ih =>
    rw [plainForm_nonterminal kind, Leaf.tokens_append, plainWord, List.map_append, ← left]
    exact ((plain_produces member).append_right _).trans_derives
      ((own.append_right _).trans (ih.append_left _))

/-- Symbols that are a word of the plain grammar already derive it, with their actions between. -/
theorem derives_of_plainForm {tokens : List Token} (declared : ∀ s ∈ symbols, g.kind? s ≠ none)
    (form : g.plainForm symbols = plainWord tokens) :
    ∃ leaves, g.Derives symbols leaves ∧ Leaf.tokens leaves = tokens := by
  induction symbols generalizing tokens with
  | nil =>
    obtain rfl := List.map_eq_nil_iff.mp form.symm
    exact ⟨[], .nil, rfl⟩
  | cons s rest ih =>
    have declaredRest : ∀ s ∈ rest, g.kind? s ≠ none :=
      fun s member => declared s (List.mem_cons_of_mem _ member)
    cases kind : g.kind? s with
    | none => exact absurd kind (declared s List.mem_cons_self)
    | some k =>
      cases k with
      | terminal =>
        rw [plainForm_terminal kind] at form
        obtain ⟨t, tokens, rfl, name, form⟩ := List.map_eq_cons_iff.mp form.symm
        obtain ⟨leaves, derives, rfl⟩ := ih declaredRest form.symm
        exact ⟨.token t :: leaves, .terminal kind (Symbol.terminal.inj name) derives, rfl⟩
      | nonterminal =>
        rw [plainForm_nonterminal kind] at form
        obtain ⟨t, tokens, rfl, name, form⟩ := List.map_eq_cons_iff.mp form.symm
        cases name
      | action =>
        rw [plainForm_action kind] at form
        obtain ⟨leaves, derives, rfl⟩ := ih declaredRest form
        exact ⟨.action s :: leaves, .action kind derives, rfl⟩

/-- The symbols around a nonterminal of the plain form. -/
theorem plainForm_eq_append {front back : List PlainSymbol}
    (form : g.plainForm symbols = front ++ [.nonterminal s] ++ back) :
    ∃ before after, symbols = before ++ s :: after ∧ g.kind? s = some .nonterminal ∧
      g.plainForm before = front ∧ g.plainForm after = back := by
  obtain ⟨before, later, rfl, frontForm, form⟩ :=
    List.filterMap_eq_append_iff.mp ((List.append_assoc ..).symm ▸ form)
  obtain ⟨skipped, top, after, rfl, vanish, form, backForm⟩ :=
    List.filterMap_eq_cons_iff.mp form
  have top : top = s ∧ g.kind? top = some .nonterminal := by
    unfold plainSymbol? at form
    split at form
    · cases form
    · cases form
      exact ⟨rfl, ‹_›⟩
    · cases form
  obtain ⟨rfl, kind⟩ := top
  refine ⟨before ++ skipped, after, by simp, kind, ?_, backForm⟩
  rw [plainForm_append, ← frontForm]
  have empty : g.plainForm skipped = [] := List.filterMap_eq_nil_iff.mpr vanish
  rw [empty, List.append_nil]
  rfl

/-- Derivability in the plain grammar is derivability of some leaves with the given tokens. -/
theorem plain_derives_iff {tokens : List Token} (checked : g.Declared)
    (declared : ∀ s ∈ symbols, g.kind? s ≠ none) :
    g.plain.Derives (g.plainForm symbols) (plainWord tokens) ↔
      ∃ leaves, g.Derives symbols leaves ∧ Leaf.tokens leaves = tokens := by
  constructor
  · intro derives
    generalize form : g.plainForm symbols = current at derives
    induction derives using Relation.ReflTransGen.head_induction_on generalizing symbols with
    | refl => exact derives_of_plainForm declared form
    | head step _ ih =>
      obtain ⟨r, member, rewrites⟩ := step
      obtain ⟨rule, listed, rfl⟩ := mem_plain_rules.mp member
      obtain ⟨front, back, rfl, rfl⟩ := rewrites.exists_parts
      obtain ⟨before, after, rfl, kind, rfl, rfl⟩ := plainForm_eq_append form
      have declaredNext : ∀ s ∈ before ++ rule.right ++ after, g.kind? s ≠ none := by
        intro s within
        simp only [List.mem_append] at within
        rcases within with (inFront | inRule) | inBack
        · exact declared s (by simp [inFront])
        · exact (checked rule listed).2 s inRule
        · exact declared s (by simp [inBack])
      obtain ⟨leaves, derives, rfl⟩ := ih declaredNext (by simp only [plainForm_append]; rfl)
      obtain ⟨first, last, rfl, derives, backDerives⟩ := derives.split
      obtain ⟨first, own, rfl, frontDerives, ownDerives⟩ := derives.split
      refine ⟨first ++ (own ++ last), ?_, by simp⟩
      exact frontDerives.append (.expand kind listed rfl ownDerives backDerives)
  · rintro ⟨leaves, derives, rfl⟩
    exact derives.plain

end Grammar

end Pushdown
