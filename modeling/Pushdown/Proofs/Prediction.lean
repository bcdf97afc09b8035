import Pushdown.Proofs.Termination

/-! Predictive grammars. An outlook bounds what the derivations of a grammar begin with and are
followed by. Where the lookahead sets select the right rule throughout such bounds, the automaton
follows every derivation without ever trying a wrong rule; and where the symbols that can come to
the top before the next token have falling ranks, it always stops. Both conditions are finite checks
of the rules. -/
namespace Pushdown.Grammar

structure Outlook where
  /-- The nonterminals that may derive no token. -/
  vanishing : List Symbol
  /-- The tokens that a nonterminal may begin with. -/
  first : Symbol → List Symbol
  /-- The tokens that may come behind a nonterminal. -/
  follow : Symbol → List Symbol
  /-- How many expansions may bring a nonterminal to a terminal. -/
  rank : Symbol → Nat

namespace Outlook

variable (g : Grammar) (o : Outlook)

/-- Whether a symbol may derive no token. Actions never derive one. -/
def vanishes (s : Symbol) : Bool :=
  match g.kind? s with
  | some .terminal => false
  | some .nonterminal => decide (s ∈ o.vanishing)
  | _ => true

/-- The symbols that may come to the top before a token is consumed. -/
def exposed : List Symbol → List Symbol
  | [] => []
  | s :: rest => if o.vanishes g s then s :: exposed rest else [s]

/-- The tokens that a symbol itself may begin with. -/
def opening (s : Symbol) : List Symbol :=
  match g.kind? s with
  | some .terminal => [s]
  | some .nonterminal => o.first s
  | _ => []

/-- The tokens that a list of symbols may begin with. -/
def starts (symbols : List Symbol) : List Symbol := (o.exposed g symbols).flatMap (o.opening g)

/-- Every nonterminal of a list admits what comes behind it: the beginnings of the later symbols and,
if these may vanish, the tokens behind the list. -/
def Fits (behind : List Symbol) : List Symbol → Prop
  | [] => True
  | s :: rest =>
    (g.kind? s = some .nonterminal → (∀ a ∈ o.starts g rest, a ∈ o.follow s) ∧
      (rest.all (o.vanishes g) = true → ∀ a ∈ behind, a ∈ o.follow s)) ∧ Fits behind rest

instance decidableFits (behind : List Symbol) :
    (symbols : List Symbol) → Decidable (o.Fits g behind symbols)
  | [] => .isTrue trivial
  | s :: rest =>
    have := decidableFits behind rest
    inferInstanceAs (Decidable ((g.kind? s = some .nonterminal →
      (∀ a ∈ o.starts g rest, a ∈ o.follow s) ∧
      (rest.all (o.vanishes g) = true → ∀ a ∈ behind, a ∈ o.follow s)) ∧ Fits g o behind rest))

/-- The tokens before which a rule has to be selected. -/
def predicted (rule : Rule) : List Symbol :=
  o.starts g rule.right ++ if rule.right.all (o.vanishes g) then o.follow rule.left else []

/-- The rank of a nonterminal, above all symbols of other kinds. -/
def height (s : Symbol) : Nat :=
  match g.kind? s with
  | some .nonterminal => o.rank s + 1
  | _ => 0

end Outlook

/-- The lookahead sets of a grammar select the right rule throughout an outlook. -/
structure Predicts (g : Grammar) (o : Outlook) : Prop where
  declared : g.Declared
  start : g.kind? g.start = some .nonterminal ∧ g.start ≠ endMarker ∧ g.start ≠ bottom
  ending : endMarker ∈ o.follow g.start
  markers : ∀ rule ∈ g.rules, endMarker ∉ rule.right ∧ bottom ∉ rule.right
  vanishing : ∀ rule ∈ g.rules, rule.right.all (o.vanishes g) = true → rule.left ∈ o.vanishing
  first : ∀ rule ∈ g.rules, ∀ a ∈ o.starts g rule.right, a ∈ o.first rule.left
  follow : ∀ rule ∈ g.rules, o.Fits g (o.follow rule.left) rule.right
  choice : ∀ rule ∈ g.rules, ∀ a ∈ o.predicted g rule,
    (g.select? rule.left a).map Prod.snd = some rule
  rank : ∀ rule ∈ g.rules, ∀ s ∈ o.exposed g rule.right, o.height g s < o.height g rule.left

variable {g : Grammar} {o : Outlook} {symbols : List Symbol} {leaves : List Leaf}

namespace Outlook

theorem Fits.mono {behind narrower : List Symbol} (fits : o.Fits g behind symbols)
    (sub : ∀ a ∈ narrower, a ∈ behind) : o.Fits g narrower symbols := by
  induction symbols with
  | nil => trivial
  | cons s rest ih =>
    obtain ⟨here, later⟩ := fits
    refine ⟨fun kind => ⟨(here kind).1, fun vanish a member => ?_⟩, ih later⟩
    exact (here kind).2 vanish a (sub a member)

theorem fits_singleton {s a : Symbol} (follows : a ∈ o.follow s) : o.Fits g [a] [s] := by
  refine ⟨fun _ => ⟨fun b member => absurd member List.not_mem_nil, fun _ b member => ?_⟩, trivial⟩
  rw [List.mem_singleton.mp member]
  exact follows

theorem mem_starts_of_vanishes {s a : Symbol} {rest : List Symbol} (vanish : o.vanishes g s = true)
    (member : a ∈ o.starts g rest) : a ∈ o.starts g (s :: rest) := by
  simp only [starts, exposed, vanish, if_true, List.flatMap_cons, List.mem_append]
  exact .inr member

theorem mem_starts_of_opening {s a : Symbol} (rest : List Symbol) (member : a ∈ o.opening g s) :
    a ∈ o.starts g (s :: rest) := by
  unfold starts exposed
  split
  · simp [member]
  · simpa using member

theorem mem_exposed {front : List Symbol} (vanish : ∀ s ∈ front, o.vanishes g s = true) (b : Symbol)
    (back : List Symbol) : b ∈ o.exposed g (front ++ b :: back) := by
  induction front with
  | nil =>
    rw [List.nil_append, exposed]
    split <;> exact List.mem_cons_self
  | cons s front ih =>
    rw [List.cons_append, exposed, if_pos (vanish s List.mem_cons_self)]
    exact List.mem_cons_of_mem _ (ih fun a member => vanish a (List.mem_cons_of_mem _ member))

end Outlook

/-- Symbols that derive no token may all vanish. -/
theorem Predicts.vanish (predicts : g.Predicts o) (derives : g.Derives symbols leaves)
    (empty : Leaf.tokens leaves = []) : symbols.all (o.vanishes g) = true := by
  induction derives with
  | nil => rfl
  | terminal => simp at empty
  | action kind _ ih => simp [Outlook.vanishes, kind, ih empty]
  | @expand s rule _ _ _ kind member left _ _ own ih =>
    simp only [Leaf.tokens_append, List.append_eq_nil_iff] at empty
    have vanish : o.vanishes g s = true := by
      simp only [Outlook.vanishes, kind, decide_eq_true_eq]
      exact left ▸ predicts.vanishing rule member (own empty.1)
    rw [List.all_cons, vanish, ih empty.2]
    rfl

/-- There are no end markers within rules, so only what vanishes is idle there. -/
theorem Predicts.vanishes_of_idle (predicts : g.Predicts o) {rule : Rule} (member : rule ∈ g.rules)
    {s : Symbol} (within : s ∈ rule.right) (idle : g.Idle [endMarker] [s]) :
    o.vanishes g s = true := by
  obtain ⟨leaves, derives, marks⟩ := idle
  have empty : Leaf.tokens leaves = [] := by
    refine List.eq_nil_iff_forall_not_mem.mpr fun t read => ?_
    have mark := List.mem_singleton.mp (marks t read)
    rcases derives.token_mem t read with own | ⟨inner, innerMember, inRule⟩
    · rw [← List.mem_singleton.mp own, mark] at within
      exact (predicts.markers rule member).1 within
    · rw [mark] at inRule
      exact (predicts.markers inner innerMember).1 inRule
  have all := predicts.vanish derives empty
  rwa [List.all_cons, List.all_nil, Bool.and_true] at all

/-- The ranks fall to every corner. -/
theorem Predicts.not_leftRecursive (predicts : g.Predicts o) : ¬ g.LeftRecursive [endMarker] := by
  refine Grammar.not_leftRecursive (o.height g) ?_
  rintro _ b ⟨rule, member, front, back, rfl, split, idle⟩
  refine predicts.rank rule member b ?_
  rw [split]
  refine Outlook.mem_exposed (fun s inFront => ?_) b back
  exact predicts.vanishes_of_idle member (split ▸ List.mem_append_left _ inFront) (idle s inFront)

/-- The first token that symbols derive is one that they may begin with. -/
theorem Predicts.begins (predicts : g.Predicts o) (derives : g.Derives symbols leaves)
    {t : Token} {later : List Token} (read : Leaf.tokens leaves = t :: later) :
    t.name ∈ o.starts g symbols := by
  induction derives generalizing later with
  | nil => cases read
  | terminal kind name _ _ =>
    cases read
    exact Outlook.mem_starts_of_opening _ (by simp [Outlook.opening, kind, name])
  | action kind _ ih =>
    exact Outlook.mem_starts_of_vanishes (by simp [Outlook.vanishes, kind]) (ih read)
  | @expand s rule rest own leaves kind member left ownDerives _ inner ih =>
    rw [Leaf.tokens_append] at read
    cases ownRead : Leaf.tokens own with
    | nil =>
      rw [ownRead, List.nil_append] at read
      have vanish : o.vanishes g s = true := by
        simp only [Outlook.vanishes, kind, decide_eq_true_eq]
        exact left ▸ predicts.vanishing rule member (predicts.vanish ownDerives ownRead)
      exact Outlook.mem_starts_of_vanishes vanish (ih read)
    | cons u us =>
      rw [ownRead, List.cons_append] at read
      cases read
      refine Outlook.mem_starts_of_opening _ ?_
      simp only [Outlook.opening, kind]
      exact left ▸ predicts.first rule member _ (inner ownRead)

/-- The token behind a nonterminal, within a list or behind it, may follow that nonterminal. -/
theorem Predicts.followed (predicts : g.Predicts o) {s : Symbol} {rest : List Symbol}
    {after : List Token} (kind : g.kind? s = some .nonterminal) (derives : g.Derives rest leaves)
    (fits : o.Fits g [(after.headD Token.ending).name] (s :: rest)) :
    ((Leaf.tokens leaves ++ after).headD Token.ending).name ∈ o.follow s := by
  obtain ⟨inner, outer⟩ := fits.1 kind
  cases read : Leaf.tokens leaves with
  | nil => exact outer (predicts.vanish derives read) _ List.mem_cons_self
  | cons t later => exact inner _ (predicts.begins derives read)

end Pushdown.Grammar

namespace Pushdown.Automaton.Config

open Grammar
open Token (ending upToEnd)

variable {σ ε : Type} {g : Grammar} {o : Outlook} {routine : Routine σ ε}

/-- A configuration comes to another one after a number of cycles, whatever budget remains. -/
def Leads (g : Grammar) (routine : Routine σ ε) (n : Nat) (c target : Config σ) : Prop :=
  ∀ budget, run g routine (n + budget) c = run g routine budget target

/-- A configuration comes to the failure of an action after a number of cycles. -/
def Fails (g : Grammar) (routine : Routine σ ε) (n : Nat) (c : Config σ) (e : ε)
    (target : Config σ) : Prop :=
  ∀ budget, run g routine (n + budget) c = .error e target

theorem Leads.refl (c : Config σ) : Leads g routine 0 c c := by
  intro budget
  rw [Nat.zero_add]

theorem Leads.trans {n m : Nat} {c middle target : Config σ} (first : Leads g routine n c middle)
    (second : Leads g routine m middle target) : Leads g routine (n + m) c target := by
  intro budget
  rw [Nat.add_assoc, first, second]

theorem Leads.fails {n m : Nat} {c middle target : Config σ} {e : ε}
    (first : Leads g routine n c middle) (second : Fails g routine m middle e target) :
    Fails g routine (n + m) c e target := by
  intro budget
  rw [Nat.add_assoc, first, second]

theorem Leads.of_cycle {c target : Config σ} {step : Step} (running : c.state = .running)
    (cycled : cycle g routine c = .ok step target) : Leads g routine 1 c target := by
  intro budget
  rw [Nat.add_comm, run_running running, cycled]

theorem Fails.of_cycle {c target : Config σ} {e : ε} (running : c.state = .running)
    (cycled : cycle g routine c = .error e target) : Fails g routine 1 c e target := by
  intro budget
  rw [Nat.add_comm, run_running running, cycled]

/-- How an automaton comes through some leaves: it replays them and leaves the symbols below and the
tokens after them, or it stops at the action that fails. -/
def Passes (g : Grammar) (routine : Routine σ ε) (c : Config σ) (leaves : List Leaf)
    (below : Stack Symbol) (after : List Token) : Prop :=
  match replay routine leaves c.last c.work with
  | .ok last work => ∃ n target, Leads g routine n c target ∧ target.stack = below ∧
      target.Awaits after ∧ target.last = last ∧ target.work = work ∧ target.state = .running
  | .error e work => ∃ n target, Fails g routine n c e target ∧ target.work = work

theorem Passes.step {c next : Config σ} {n : Nat} {leaves rest : List Leaf}
    {below : Stack Symbol} {after : List Token} (leads : Leads g routine n c next)
    (same : replay routine leaves c.last c.work = replay routine rest next.last next.work)
    (passes : Passes g routine next rest below after) :
    Passes g routine c leaves below after := by
  unfold Passes at passes ⊢
  rw [same]
  split at passes
  · obtain ⟨m, target, onward, result⟩ := passes
    exact ⟨n + m, target, leads.trans onward, result⟩
  · obtain ⟨m, target, onward, result⟩ := passes
    exact ⟨n + m, target, leads.fails onward, result⟩

theorem Passes.append {c : Config σ} {first second : List Leaf} {middle below : Stack Symbol}
    {between after : List Token} (passes : Passes g routine c first middle between)
    (onward : ∀ next : Config σ, next.stack = middle → next.Awaits between →
      next.state = .running → Passes g routine next second below after) :
    Passes g routine c (first ++ second) below after := by
  unfold Passes at passes
  split at passes
  · rename_i last work replayed
    obtain ⟨n, target, leads, stack, awaits, rfl, rfl, running⟩ := passes
    refine Passes.step leads ?_ (onward target stack awaits running)
    simp only [replay_append, bind, EStateM.bind, replayed]
  · rename_i e work replayed
    unfold Passes
    simp only [replay_append, bind, EStateM.bind, replayed]
    exact passes

/-- The automaton of a predictive grammar follows every derivation from its topmost symbols. -/
theorem passes_of_derives (routine : Routine σ ε) (predicts : g.Predicts o)
    {symbols : List Symbol} {leaves : List Leaf}
    (derives : g.Derives symbols leaves) {c : Config σ} {below : Stack Symbol}
    {after : List Token} (running : c.state = .running) (stack : c.stack = symbols ++ below)
    (absent : bottom ∉ symbols) (awaits : c.Awaits (Leaf.tokens leaves ++ after))
    (fits : o.Fits g [(after.headD ending).name] symbols) :
    Passes g routine c leaves below after := by
  induction derives generalizing c below after with
  | nil => exact ⟨0, c, .refl c, stack, awaits, rfl, rfl, running⟩
  | @terminal s t rest leaves kind name _ ih =>
    have notBottom : s ≠ bottom := fun same => absent (same ▸ List.mem_cons_self)
    have next : c.next = t := awaits.next_eq
    have cycled : cycle g routine c = .ok (.matched c.next) (c.shift (rest ++ below)) := by
      simp [cycle, stack, notBottom, kind, next, name]
    refine Passes.step (Leads.of_cycle running cycled) ?_
      (ih running rfl (fun h => absent (List.mem_cons_of_mem _ h)) (awaits.shift _) fits.2)
    simp only [replay, shift, next]
  | @action a rest leaves kind _ ih =>
    have notBottom : a ≠ bottom := fun same => absent (same ▸ List.mem_cons_self)
    obtain ⟨_, source, current, last, state, work⟩ := c
    cases stack
    cases performed : routine a last work with
    | ok _ result =>
      have cycled : cycle g routine ⟨a :: rest ++ below, source, current, last, state, work⟩ =
          .ok (.performed a) ⟨rest ++ below, source, current, last, state, result⟩ := by
        simp [cycle, notBottom, kind, performed]
      refine Passes.step (Leads.of_cycle running cycled) ?_
        (ih running rfl (fun h => absent (List.mem_cons_of_mem _ h)) awaits fits.2)
      simp only [replay, bind, EStateM.bind, performed]
    | error e result =>
      have cycled : cycle g routine ⟨a :: rest ++ below, source, current, last, state, work⟩ =
          .error e ⟨a :: rest ++ below, source, current, last, state, result⟩ := by
        simp [cycle, notBottom, kind, performed]
      simp only [Passes, replay, bind, EStateM.bind, performed]
      exact ⟨1, _, Fails.of_cycle running cycled, rfl⟩
  | @expand s rule rest own leaves kind member left ownDerives restDerives inner ih =>
    have notBottom : s ≠ bottom := fun same => absent (same ▸ List.mem_cons_self)
    have behind := predicts.followed kind restDerives fits
    rw [Leaf.tokens_append, List.append_assoc] at awaits
    -- The next token is one that the rule begins with or, if the rule vanishes, one behind it.
    have predicted : c.next.name ∈ o.predicted g rule := by
      rw [awaits.next_eq]
      unfold Outlook.predicted
      cases read : Leaf.tokens own with
      | nil =>
        rw [predicts.vanish ownDerives read, if_pos rfl, left]
        exact List.mem_append_right _ behind
      | cons t later => exact List.mem_append_left _ (predicts.begins ownDerives read)
    obtain ⟨⟨index, chosen⟩, selected, same⟩ :=
      Option.map_eq_some_iff.mp (predicts.choice rule member _ predicted)
    obtain rfl : chosen = rule := same
    rw [left] at selected
    have cycled : cycle g routine c =
        .ok (.expanded index chosen) { c with stack := chosen.right ++ (rest ++ below) } := by
      simp [cycle, stack, notBottom, kind, selected]
    refine Passes.step (Leads.of_cycle running cycled) rfl (Passes.append
      (inner running rfl (predicts.markers chosen member).2 awaits ?_) ?_)
    · refine (predicts.follow chosen member).mono fun a same => ?_
      rw [List.mem_singleton.mp same, left]
      exact behind
    · intro next nextStack nextAwaits nextRunning
      exact ih nextRunning nextStack (fun h => absent (List.mem_cons_of_mem _ h)) nextAwaits fits.2

/-- Behind the tokens before it there is an end marker, given or supplied. -/
theorem headD_after_upToEnd (tokens : List Token) :
    ((tokens.dropWhile (·.name ≠ endMarker) ++ [ending]).headD ending).name = endMarker := by
  cases rest : tokens.dropWhile (·.name ≠ endMarker) with
  | nil => rfl
  | cons t later =>
    have found := List.head?_dropWhile_not (fun t : Token => decide (t.name ≠ endMarker)) tokens
    rw [rest] at found
    simpa using found

/-- Tokens that are no end markers but stand before one are all those before the first. -/
theorem eq_upToEnd {read rest tokens : List Token} {extra : Nat}
    (split : read ++ rest = tokens ++ List.replicate extra ending)
    (proper : ∀ t ∈ read, t.name ≠ endMarker) (ended : (rest.headD ending).name = endMarker) :
    read = upToEnd tokens := by
  induction read generalizing tokens with
  | nil =>
    cases tokens with
    | nil => rfl
    | cons t later =>
      rw [List.nil_append, List.cons_append] at split
      subst split
      have here : t.name = endMarker := ended
      simp [upToEnd, here]
  | cons t read ih =>
    cases tokens with
    | nil =>
      rw [List.nil_append, List.cons_append] at split
      have member : t ∈ List.replicate extra ending := split ▸ List.mem_cons_self
      rw [(List.mem_replicate.mp member).2] at proper
      exact absurd rfl (proper ending List.mem_cons_self)
    | cons u later =>
      obtain ⟨rfl, splitTail⟩ := List.cons.inj split
      have here := proper t List.mem_cons_self
      have tail := ih splitTail fun u member => proper u (List.mem_cons_of_mem _ member)
      simp only [upToEnd, List.takeWhile_cons, ne_eq, here, not_false_eq_true, decide_true,
        if_true, List.cons.injEq, true_and]
      exact tail

/-- No derivation from the start symbol has an end marker among its leaves. -/
theorem proper_of_derives (predicts : g.Predicts o) {leaves : List Leaf}
    (derives : g.Derives [g.start] leaves) : ∀ t ∈ Leaf.tokens leaves, t.name ≠ endMarker := by
  intro t member same
  rcases derives.token_mem t member with isStart | ⟨rule, ruleMember, within⟩
  · exact predicts.start.2.1 ((List.mem_singleton.mp isStart).symm.trans same)
  · exact (predicts.markers rule ruleMember).1 (same ▸ within)

/-- An accepting run replays the leaves of a derivation of all tokens before the first end marker. -/
theorem derives_of_accepted (predicts : g.Predicts o) {tokens : List Token} {work : σ}
    {budget : Nat} {final : Config σ}
    (done : run g routine budget (init g (.ofTokens tokens) work) = .ok () final)
    (accepted : final.state = .accepted) :
    ∃ leaves, g.Derives [g.start] leaves ∧ Leaf.tokens leaves = upToEnd tokens ∧
      replay routine leaves none work = .ok final.last final.work := by
  have absent : bottom ∉ [g.start] := fun same =>
    predicts.start.2.2 (List.mem_singleton.mp same).symm
  have stack : (init g (.ofTokens tokens) work).stack = [g.start] ++ [bottom] := rfl
  obtain ⟨leaves, rest, extra, derives, read, ended, replayed⟩ :=
    run_accepted (fun rule member => (predicts.markers rule member).2) rfl stack absent
      (init_awaits tokens work) done accepted
  replace read : Leaf.tokens leaves ++ rest = tokens ++ List.replicate (extra + 1) ending := by
    rw [read, List.append_assoc]
    rfl
  exact ⟨leaves, derives, eq_upToEnd read (proper_of_derives predicts derives) ended, replayed⟩

/-- Conversely, a derivation of the tokens before the first end marker is replayed and accepted,
unless one of its actions fails. -/
theorem run_of_derives (routine : Routine σ ε) (predicts : g.Predicts o) {tokens : List Token}
    {leaves : List Leaf} (work : σ) (derives : g.Derives [g.start] leaves)
    (read : Leaf.tokens leaves = upToEnd tokens) :
    match replay routine leaves none work with
    | .ok last work' => ∃ n final, final.state = .accepted ∧ final.last = last ∧
        final.work = work' ∧
        ∀ budget, run g routine (n + budget) (init g (.ofTokens tokens) work) = .ok () final
    | .error e work' => ∃ n final, final.work = work' ∧
        Fails g routine n (init g (.ofTokens tokens) work) e final := by
  have absent : bottom ∉ [g.start] := fun same =>
    predicts.start.2.2 (List.mem_singleton.mp same).symm
  have awaits : (init g (.ofTokens tokens) work).Awaits (Leaf.tokens leaves ++
      (tokens.dropWhile (·.name ≠ endMarker) ++ [ending])) := by
    rw [read, upToEnd, ← List.append_assoc, List.takeWhile_append_dropWhile]
    exact init_awaits tokens work
  have fits : o.Fits g [((tokens.dropWhile (·.name ≠ endMarker) ++ [ending]).headD ending).name]
      [g.start] := by
    rw [headD_after_upToEnd]
    exact Outlook.fits_singleton predicts.ending
  have passes := passes_of_derives routine predicts derives rfl rfl absent awaits fits
  unfold Passes at passes
  change (match replay routine leaves none work with | .ok last work => _ | .error e work => _)
    at passes
  split at passes
  · obtain ⟨n, target, leads, stack, targetAwaits, rfl, rfl, running⟩ := passes
    have ended : target.next.name = endMarker := by
      rw [targetAwaits.next_eq]
      exact headD_after_upToEnd tokens
    have cycled : cycle g routine target = .ok .accepted target.accept := by
      simp [cycle, stack, ended]
    refine ⟨n + 1, target.accept, rfl, rfl, rfl, fun budget => ?_⟩
    rw [leads.trans (Leads.of_cycle running cycled), run_stopped (by simp [accept])]
  · obtain ⟨n, target, fails, rfl⟩ := passes
    exact ⟨n, target, rfl, fails⟩

/-- What becomes of all long runs is what became of one that stopped. -/
theorem run_eventually {budget m : Nat} {c final : Config σ}
    {result : EStateM.Result ε (Config σ) Unit} (done : run g routine budget c = .ok () final)
    (stopped : final.state ≠ .running) (always : ∀ extra, run g routine (m + extra) c = result) :
    result = .ok () final := by
  have later := run_add g routine budget m c
  rw [Nat.add_comm, always, done] at later
  exact later.trans (run_stopped stopped m)

/-- The automaton of a predictive grammar stops on every input, whatever its actions do. -/
theorem exists_stopped (routine : Routine σ ε) (predicts : g.Predicts o) (tokens : List Token)
    (work : σ) :
    ∃ n, ∀ budget, n ≤ budget →
      Stopped (run g routine budget (init g (.ofTokens tokens) work)) := by
  have corners := Grammar.corner_wellFounded predicts.not_leftRecursive
  obtain ⟨n, stopped⟩ := stops_of_wellFounded routine corners rfl (init_awaits tokens work)
  refine ⟨n, fun budget enough => ?_⟩
  obtain ⟨more, rfl⟩ := Nat.exists_eq_add_of_le enough
  exact stopped.add more

end Pushdown.Automaton.Config
