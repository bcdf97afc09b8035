import Pushdown.Proofs.Trees
import Pushdown.Tree.Table

/-! The tree of a run as it grows, step by step, in an arena: nodes with numbers, where an expansion gives
the next free numbers to the children of the node whose turn it is. When the run is over the nodes are the
rows of the table of its tree. So the numbers of the table are those that a run gives out. -/
namespace Pushdown

open Automaton

namespace Tree

/-- A symbol, the value of the token it was matched with, and the numbers of the children. -/
structure Node where
  symbol : Symbol
  value : Option Value
  children : List Nat

/-- A symbol that nothing has been done with. -/
def Node.fresh (symbol : Symbol) : Node := ⟨symbol, none, []⟩

def Row.node (r : Row) : Node := ⟨r.tree.symbol, r.tree.value, r.children⟩

/-- The nodes that there are, and the numbers of those whose turn is still to come, the next one first. -/
structure Arena where
  nodes : List Node
  pending : Stack Nat

namespace Arena

/-- The start symbol alone. -/
def start (g : Grammar) : Arena := ⟨[.fresh g.start], [0]⟩

/-- What a step does to the node whose turn it is. -/
def observe (arena : Arena) (step : Step) : Arena :=
  match step, arena.pending with
  | .expanded _ rule, parent :: rest =>
    let numbers := List.range' arena.nodes.length rule.right.length
    { nodes := arena.nodes.modify parent ({ · with children := numbers }) ++ rule.right.map .fresh
      pending := Stack.pushAll rest numbers }
  | .matched token, number :: rest =>
    { nodes := arena.nodes.modify number ({ · with value := token.value }), pending := rest }
  | .performed _, _ :: rest => { arena with pending := rest }
  | _, _ => arena

def observer {σ : Type} : Observer σ Arena := fun step _ arena => arena.observe step

/-- The arena of a run of the automaton on some tokens. -/
def grow (g : Grammar) (source : TokenSource) (budget : Nat) : Arena :=
  match Watched.run g silent observer budget ⟨Config.init g source (), start g⟩ with
  | .ok _ w => w.notes
  | .error e _ => nomatch e

theorem grow_eq (g : Grammar) (source : TokenSource) (budget : Nat) :
    grow g source budget =
      (Config.steps g silent budget (Config.init g source ())).foldl observe (start g) := by
  unfold grow
  cases ran : Watched.run g silent observer budget ⟨Config.init g source (), start g⟩ with
  | ok _ w => exact Watched.run_notes ran
  | error e w => cases e

end Arena

/-- Steps that go on from some symbols, each from the first one. -/
inductive Course : List Symbol → List Step → Prop
  | none (symbols : List Symbol) : Course symbols []
  | accepted (symbols : List Symbol) : Course symbols [.accepted]
  | rejected (symbols : List Symbol) : Course symbols [.rejected]
  | expanded {rest : List Symbol} {index : Nat} {rule : Rule} {steps : List Step} :
      Course (rule.right ++ rest) steps → Course (rule.left :: rest) (.expanded index rule :: steps)
  | matched {rest : List Symbol} {token : Token} {steps : List Step} :
      Course rest steps → Course (token.name :: rest) (.matched token :: steps)
  | performed {rest : List Symbol} {action : Symbol} {steps : List Step} :
      Course rest steps → Course (action :: rest) (.performed action :: steps)

/-- The steps of a run go on from the symbols above the bottom. -/
theorem course_steps {σ ε : Type} {g : Grammar} {routine : Routine σ ε} {c : Config σ}
    {symbols : List Symbol} (stack : c.stack = symbols ++ [bottom]) (budget : Nat) :
    Course symbols (Config.steps g routine budget c) := by
  induction budget generalizing c symbols with
  | zero => exact .none _
  | succ budget ih =>
    by_cases running : c.state = .running
    · rw [Config.steps_running running]
      have effect := Config.cycle_effect g routine c
      generalize Config.cycle g routine c = result at effect
      cases effect with
      | rejected =>
        simp only [Config.steps_stopped (c := c.reject) (by simp [Config.reject])]
        exact .rejected _
      | accepted =>
        simp only [Config.steps_stopped (c := c.accept) (by simp [Config.accept])]
        exact .accepted _
      | @expanded s below index rule top other kind selected =>
        obtain ⟨rest, rfl, rfl⟩ := Config.symbols_eq_cons top stack other
        obtain ⟨_, rfl, _⟩ := Grammar.select?_spec selected
        exact .expanded (ih (List.append_assoc ..).symm)
      | @matched s below top other kind same =>
        obtain ⟨rest, rfl, rfl⟩ := Config.symbols_eq_cons top stack other
        subst same
        exact .matched (ih rfl)
      | @performed a below work top other kind performed =>
        obtain ⟨rest, rfl, rfl⟩ := Config.symbols_eq_cons top stack other
        exact .performed (ih rfl)
      | failed => exact .none _
    · rw [Config.steps_stopped running]
      exact .none _

/-- The trees that steps make of the symbols they go on from. Symbols that they do not reach are leaves. -/
def grown (symbols : List Symbol) (steps : List Step) : List Tree := (adopt symbols (forest steps)).1

theorem adopt_split (front back : List Symbol) (trees : List Tree) :
    (adopt (front ++ back) trees).1 =
      (adopt front trees).1 ++ (adopt back (adopt front trees).2).1 := by
  induction front generalizing trees with
  | nil => rfl
  | cons symbol front ih =>
    cases trees with
    | nil =>
      have none : (adopt front []).2 = [] := by
        cases front <;> rfl
      simp [adopt, ih, none]
    | cons tree trees => simp [adopt, ih]

theorem length_adopt (symbols : List Symbol) (trees : List Tree) :
    (adopt symbols trees).1.length = symbols.length := by
  induction symbols generalizing trees with
  | nil => rfl
  | cons symbol symbols ih =>
    cases trees with
    | nil => simp [adopt, ih]
    | cons tree trees => simp [adopt, ih]

theorem adopt_nil (symbols : List Symbol) : (adopt symbols []).1 = symbols.map leaf := by
  induction symbols with
  | nil => rfl
  | cons symbol symbols ih => simp [adopt, ih]

theorem grown_expanded (rest : List Symbol) (index : Nat) (rule : Rule) (steps : List Step) :
    ∃ own later, grown (rule.right ++ rest) steps = own ++ later ∧
      own.length = rule.right.length ∧
      grown (rule.left :: rest) (.expanded index rule :: steps) = .node rule.left none own :: later :=
  ⟨_, _, adopt_split rule.right rest (forest steps), length_adopt .., rfl⟩

/-- The first tree of a run, where there is one. -/
theorem grown_start (start : Symbol) (steps : List Step) :
    grown [start] steps = [(forest steps).head?.getD (leaf start)] := by
  unfold grown
  cases forest steps <;> rfl

variable {next : Nat}

theorem length_le_sizeAll (trees : List Tree) : trees.length ≤ sizeAll trees := by
  induction trees with
  | nil => exact Nat.le_refl _
  | cons tree trees ih =>
    obtain ⟨symbol, value, children⟩ := tree
    simp only [List.length_cons, sizeAll, size]
    omega

theorem siblings_append (next : Nat) (front back : List Tree) :
    siblings next (front ++ back) =
      siblings next front ++ siblings (next + (sizeAll front - front.length)) back := by
  induction front generalizing next with
  | nil => rfl
  | cons tree front ih =>
    obtain ⟨symbol, value, children⟩ := tree
    have bound := length_le_sizeAll front
    have later : next + sizeAll children + (sizeAll front - front.length) =
        next + (sizeAll children + 1 + sizeAll front - (front.length + 1)) := by omega
    simp [siblings, ih, sizeAll, size, later]

theorem rowsBelowAll_append (next : Nat) (front back : List Tree) :
    rowsBelowAll next (front ++ back) =
      rowsBelowAll next front ++ rowsBelowAll (next + (sizeAll front - front.length)) back := by
  induction front generalizing next with
  | nil => rfl
  | cons tree front ih =>
    obtain ⟨symbol, value, children⟩ := tree
    have bound := length_le_sizeAll front
    have later : next + sizeAll children + (sizeAll front - front.length) =
        next + (sizeAll children + 1 + sizeAll front - (front.length + 1)) := by omega
    simp [rowsBelowAll, ih, sizeAll, size, later]

theorem length_siblings (next : Nat) (trees : List Tree) :
    (siblings next trees).length = trees.length := by
  induction trees generalizing next with
  | nil => rfl
  | cons tree trees ih => simp [siblings, ih]

theorem siblings_leaves (next : Nat) (symbols : List Symbol) :
    (siblings next (symbols.map leaf)).map Row.node = symbols.map Node.fresh := by
  induction symbols generalizing next with
  | nil => rfl
  | cons symbol symbols ih =>
    simp only [List.map_cons, siblings]
    exact congrArg₂ List.cons rfl (ih _)

theorem rowsBelowAll_leaves (next : Nat) (symbols : List Symbol) :
    rowsBelowAll next (symbols.map leaf) = [] := by
  induction symbols generalizing next with
  | nil => rfl
  | cons symbol symbols ih =>
    simp only [List.map_cons, rowsBelowAll, ih]
    rfl

/-- Puts nodes in the place of those with some numbers, one after another. -/
def put : List Node → List Nat → List Node → List Node
  | nodes, number :: numbers, new :: news => put (nodes.set number new) numbers news
  | nodes, _, _ => nodes

theorem set_of_getElem? {nodes : List Node} {i : Nat} {new : Node} (present : nodes[i]? = some new) :
    nodes.set i new = nodes := by
  apply List.ext_getElem?
  intro j
  grind

theorem modify_of_getElem? {nodes : List Node} {i : Nat} {old : Node} (f : Node → Node)
    (present : nodes[i]? = some old) : nodes.modify i f = nodes.set i (f old) := by
  apply List.ext_getElem?
  intro j
  grind

/-- Nodes that are there already change nothing. -/
theorem put_present {nodes : List Node} {numbers : List Nat} {news : List Node}
    (present : List.Forall₂ (fun i new => nodes[i]? = some new) numbers news) :
    put nodes numbers news = nodes := by
  induction present with
  | nil => rfl
  | cons here _ ih => rw [put, set_of_getElem? here, ih]

theorem put_append {nodes : List Node} {numbers : List Nat} (news back : List Node)
    (within : ∀ i ∈ numbers, i < nodes.length) :
    put (nodes ++ back) numbers news = put nodes numbers news ++ back := by
  induction numbers generalizing nodes news with
  | nil => simp [put]
  | cons number numbers ih =>
    cases news with
    | nil => rfl
    | cons new news =>
      have first : number < nodes.length := within number List.mem_cons_self
      rw [put, put, List.set_append_left _ _ first]
      apply ih
      intro i member
      rw [List.length_set]
      exact within i (List.mem_cons_of_mem _ member)

theorem put_split (nodes : List Node) {numbers : List Nat} {news : List Node}
    (same : news.length = numbers.length) (numbers' : List Nat) (news' : List Node) :
    put nodes (numbers ++ numbers') (news ++ news') =
      put (put nodes numbers news) numbers' news' := by
  induction numbers generalizing nodes news with
  | nil =>
    obtain rfl := List.eq_nil_of_length_eq_zero same
    rfl
  | cons number numbers ih =>
    cases news with
    | nil => cases same
    | cons new news => exact ih _ (Nat.succ.inj same)

/-- Nodes in the place of all that stand behind some others. -/
theorem put_range' (nodes old news : List Node) (same : news.length = old.length) :
    put (nodes ++ old) (List.range' nodes.length old.length) news = nodes ++ news := by
  induction old generalizing nodes news with
  | nil =>
    obtain rfl := List.eq_nil_of_length_eq_zero same
    rfl
  | cons first old ih =>
    cases news with
    | nil => cases same
    | cons new news =>
      have onward := ih (nodes ++ [new]) news (Nat.succ.inj same)
      rw [List.append_assoc, List.append_assoc, List.length_append] at onward
      rw [List.length_cons, List.range'_succ, put, List.set_append_right _ _ (Nat.le_refl _),
        Nat.sub_self, List.set_cons_zero]
      exact onward

namespace Arena

/-- The nodes whose turn is to come are different ones, and are those of some symbols that nothing has
been done with. -/
structure Awaits (arena : Arena) (symbols : List Symbol) : Prop where
  fresh : List.Forall₂ (fun i s => arena.nodes[i]? = some (.fresh s)) arena.pending symbols
  distinct : arena.pending.Nodup

variable {arena : Arena} {symbols : List Symbol}

theorem Awaits.put_fresh (awaits : arena.Awaits symbols) :
    put arena.nodes arena.pending (symbols.map .fresh) = arena.nodes :=
  put_present (List.forall₂_map_right_iff.mpr awaits.fresh)

theorem lt_of_fresh {nodes : List Node} {numbers : List Nat}
    (fresh : List.Forall₂ (fun i s => nodes[i]? = some (.fresh s)) numbers symbols) :
    ∀ i ∈ numbers, i < nodes.length := by
  induction fresh with
  | nil =>
    intro i member
    cases member
  | cons here _ ih =>
    intro i member
    rcases List.mem_cons.mp member with rfl | later
    · exact (List.getElem?_eq_some_iff.mp here).1
    · exact ih i later

/-- Nodes of other numbers stay as they are, and further nodes come behind. -/
theorem fresh_set {nodes back : List Node} {number : Nat} {new : Node} {numbers : List Nat}
    (other : number ∉ numbers)
    (fresh : List.Forall₂ (fun i s => nodes[i]? = some (.fresh s)) numbers symbols) :
    List.Forall₂ (fun i s => (nodes.set number new ++ back)[i]? = some (.fresh s)) numbers symbols := by
  induction fresh with
  | nil => exact .nil
  | @cons i s numbers symbols here _ ih =>
    obtain ⟨different, others⟩ := not_or.mp (fun found => other (List.mem_cons.mpr found))
    have within := (List.getElem?_eq_some_iff.mp here).1
    refine .cons ?_ (ih others)
    rw [List.getElem?_append_left (by simpa using within), List.getElem?_set_ne different]
    exact here

/-- The nodes of some symbols stand fresh behind all others. -/
theorem fresh_range' (nodes : List Node) (symbols : List Symbol) :
    List.Forall₂ (fun i s => (nodes ++ symbols.map .fresh)[i]? = some (.fresh s))
      (List.range' nodes.length symbols.length) symbols := by
  refine List.forall₂_iff_get.mpr ⟨by simp, fun i _ within => ?_⟩
  simp only [List.get_eq_getElem, List.getElem_range', Nat.one_mul]
  rw [List.getElem?_append_right (by omega)]
  simp [within]

theorem Awaits.expanded {nodes : List Node} {parent : Nat} {numbers : List Nat} {left : Symbol}
    (awaits : Awaits ⟨nodes, parent :: numbers⟩ (left :: symbols)) (new : Node)
    (right : List Symbol) :
    Awaits ⟨nodes.set parent new ++ right.map .fresh,
      List.range' nodes.length right.length ++ numbers⟩ (right ++ symbols) := by
  obtain ⟨fresh, distinct⟩ := awaits
  obtain ⟨here, others⟩ := List.forall₂_cons.mp fresh
  obtain ⟨apart, distinct⟩ := List.nodup_cons.mp distinct
  have behind := fresh_range' (nodes.set parent new) right
  rw [List.length_set] at behind
  constructor
  · exact List.rel_append behind (fresh_set apart others)
  · refine List.nodup_append.mpr ⟨List.nodup_range', distinct, ?_⟩
    rintro i new j old rfl
    have within : i < nodes.length := lt_of_fresh others i old
    have beyond := (List.mem_range'_1.mp new).1
    omega

theorem Awaits.replaced {nodes : List Node} {number : Nat} {numbers : List Nat} {s : Symbol}
    (awaits : Awaits ⟨nodes, number :: numbers⟩ (s :: symbols)) (new : Node) :
    Awaits ⟨nodes.set number new, numbers⟩ symbols := by
  have onward := awaits.expanded new []
  simpa using onward

/-- The rows of the trees below a node and of those behind it, with the children put behind all nodes, are
the rows of its tree and of those behind. -/
theorem put_expanded {nodes : List Node} (parent : Nat) {numbers : List Nat} (left : Symbol)
    {right : List Symbol} {own : List Tree} (later : List Tree) (count : own.length = right.length)
    (within : ∀ i ∈ numbers, i < nodes.length) :
    put (nodes.set parent ⟨left, none, List.range' nodes.length right.length⟩ ++ right.map .fresh)
        (List.range' nodes.length right.length ++ numbers)
        ((siblings (nodes.length + right.length) (own ++ later)).map Row.node) ++
      (rowsBelowAll (nodes.length + right.length) (own ++ later)).map Row.node =
    put nodes (parent :: numbers)
        ((siblings nodes.length (.node left none own :: later)).map Row.node) ++
      (rowsBelowAll nodes.length (.node left none own :: later)).map Row.node := by
  rw [← count]
  generalize expanded : nodes.set parent ⟨left, none, List.range' nodes.length own.length⟩ = grown
  have length : grown.length = nodes.length := by rw [← expanded, List.length_set]
  have next : nodes.length + own.length + (sizeAll own - own.length) = nodes.length + sizeAll own := by
    have bound := length_le_sizeAll own
    omega
  have ahead : put (grown ++ right.map .fresh) (List.range' nodes.length own.length)
      ((siblings (nodes.length + own.length) own).map Row.node) =
        grown ++ (siblings (nodes.length + own.length) own).map Row.node := by
    have placed := put_range' grown (right.map .fresh)
      ((siblings (nodes.length + own.length) own).map Row.node) (by simp [length_siblings, count])
    rwa [List.length_map, length, ← count] at placed
  have first : put nodes (parent :: numbers)
      ((siblings nodes.length (.node left none own :: later)).map Row.node) =
        put grown numbers ((siblings (nodes.length + sizeAll own) later).map Row.node) := by
    rw [← expanded]
    rfl
  have below : rowsBelowAll nodes.length (.node left none own :: later) =
      siblings (nodes.length + own.length) own ++ rowsBelowAll (nodes.length + own.length) own ++
        rowsBelowAll (nodes.length + sizeAll own) later := rfl
  rw [first, below, siblings_append, rowsBelowAll_append, next, List.map_append,
    put_split _ (by simp [length_siblings]), ahead, put_append _ _ (length ▸ within)]
  simp only [List.map_append, List.append_assoc]

/-- The nodes that a run has made of some symbols are the rows of their trees: those of the symbols
themselves in their places, and behind all nodes those below them. -/
theorem nodes_foldl {steps : List Step} (course : Course symbols steps)
    (awaits : arena.Awaits symbols) :
    (steps.foldl observe arena).nodes =
      put arena.nodes arena.pending
        ((siblings arena.nodes.length (grown symbols steps)).map Row.node) ++
      (rowsBelowAll arena.nodes.length (grown symbols steps)).map Row.node := by
  induction course generalizing arena with
  | none symbols | accepted symbols | rejected symbols =>
    have unreached : put arena.nodes arena.pending
        ((siblings arena.nodes.length (symbols.map leaf)).map Row.node) ++
        (rowsBelowAll arena.nodes.length (symbols.map leaf)).map Row.node = arena.nodes := by
      rw [siblings_leaves, rowsBelowAll_leaves, awaits.put_fresh, List.map_nil, List.append_nil]
    rw [← adopt_nil] at unreached
    exact unreached.symm
  | @expanded rest index rule steps _ ih =>
    obtain ⟨nodes, pending⟩ := arena
    obtain ⟨parent, numbers, here, others, rfl⟩ := List.forall₂_cons_right_iff.mp awaits.fresh
    obtain ⟨own, later, split, count, whole⟩ := grown_expanded rest index rule steps
    let first : Node := ⟨rule.left, none, List.range' nodes.length rule.right.length⟩
    have stepped : observe ⟨nodes, parent :: numbers⟩ (.expanded index rule) =
        ⟨nodes.set parent first ++ rule.right.map .fresh,
          List.range' nodes.length rule.right.length ++ numbers⟩ := by
      simp only [observe, modify_of_getElem? _ here]
      rfl
    have onward := ih (awaits.expanded first rule.right)
    rw [split, List.length_append, List.length_set, List.length_map] at onward
    rw [List.foldl_cons, stepped, onward, whole]
    exact put_expanded parent rule.left later count (lt_of_fresh others)
  | @matched rest token steps _ ih =>
    obtain ⟨nodes, pending⟩ := arena
    obtain ⟨number, numbers, here, _, rfl⟩ := List.forall₂_cons_right_iff.mp awaits.fresh
    have stepped : observe ⟨nodes, number :: numbers⟩ (.matched token) =
        ⟨nodes.set number ⟨token.name, token.value, []⟩, numbers⟩ := by
      simp only [observe, modify_of_getElem? _ here]
      rfl
    have onward := ih (awaits.replaced ⟨token.name, token.value, []⟩)
    rw [List.length_set] at onward
    rw [List.foldl_cons, stepped, onward]
    rfl
  | @performed rest action steps _ ih =>
    obtain ⟨nodes, pending⟩ := arena
    obtain ⟨number, numbers, here, _, rfl⟩ := List.forall₂_cons_right_iff.mp awaits.fresh
    have stepped : observe ⟨nodes, number :: numbers⟩ (.performed action) =
        ⟨nodes.set number (.fresh action), numbers⟩ := by
      rw [set_of_getElem? here]
      rfl
    have onward := ih (awaits.replaced (.fresh action))
    rw [List.length_set] at onward
    rw [List.foldl_cons, stepped, onward]
    rfl

/-- The arena of a run holds the rows of the table of its tree. -/
theorem nodes_grow (g : Grammar) (source : TokenSource) (budget : Nat) :
    (grow g source budget).nodes = (parse g source budget).2.table.map Row.node := by
  have awaits : (start g).Awaits [g.start] := ⟨.cons rfl .nil, List.nodup_singleton 0⟩
  have stack : (Config.init g source ()).stack = [g.start] ++ [bottom] := rfl
  rw [grow_eq, nodes_foldl (course_steps stack budget) awaits, grown_start, parse_eq]
  simp only [rowsBelowAll, List.append_nil]
  rfl

end Arena

end Tree

end Pushdown
