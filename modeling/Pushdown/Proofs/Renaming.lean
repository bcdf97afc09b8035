import Pushdown.Proofs.Budget
import Pushdown.Proofs.Duties
import Pushdown.Proofs.Readiness

/-! Renaming. The automaton sees the names of tokens only, and actions compare the texts of identifiers but
do nothing else with them. So if different texts are replaced by different ones, a run goes through the
same steps: code and memory come out the same, and the table is the old one with its names replaced. -/
namespace Pushdown

open Automaton Emitter Grammar

/-- A result with another answer and another state. -/
def transport {ε σ α : Type} (h : α → α) (w : σ → σ) : EStateM.Result ε σ α → EStateM.Result ε σ α
  | .ok a s => .ok (h a) (w s)
  | .error e s => .error e (w s)

theorem transport_bind {ε σ α β : Type} {h : α → α} {k : β → β} {w : σ → σ} {x y : EStateM ε σ α}
    {f g : α → EStateM ε σ β} {s : σ} (first : y (w s) = transport h w (x s))
    (onward : ∀ a t, g (h a) (w t) = transport k w (f a t)) :
    (y >>= g) (w s) = transport k w ((x >>= f) s) := by
  simp only [bind, EStateM.bind, first]
  cases x s with
  | ok a t => exact onward a t
  | error e t => rfl

def TokenSource.map (f : Token → Token) (source : TokenSource) : TokenSource :=
  ⟨source.pending.map f, source.ended⟩

namespace Automaton

variable {σ ε : Type} {g : Grammar} {routine : Routine σ ε} {f : Token → Token} {w : σ → σ}
  {c : Config σ}

def Step.map (f : Token → Token) : Step → Step
  | .matched token => .matched (f token)
  | step => step

/-- The configuration with other tokens and other work. -/
def Config.map (f : Token → Token) (w : σ → σ) (c : Config σ) : Config σ :=
  ⟨c.stack, c.source.map f, c.current.map f, c.last.map f, c.state, w c.work⟩

/-- A change of tokens that an automaton does not see. -/
structure Unseen (f : Token → Token) : Prop where
  name : ∀ t, (f t).name = t.name
  ending : f Token.ending = Token.ending

theorem Unseen.next_source (unseen : Unseen f) (source : TokenSource) :
    (source.map f).next = (source.next.1.map f, source.next.2.map f) := by
  obtain ⟨pending, ended⟩ := source
  cases pending with
  | cons t rest => rfl
  | nil =>
    cases ended with
    | true => rfl
    | false => exact congrArg (fun t => (some t, (⟨[], true⟩ : TokenSource))) unseen.ending.symm

namespace Config

theorem next_map (unseen : Unseen f) : (c.map f w).next = f c.next := by
  unfold next
  cases current : c.current with
  | none =>
    simp only [map, current, Option.map_none, Option.getD_none]
    exact unseen.ending.symm
  | some t => simp [map, current]

theorem shift_map (unseen : Unseen f) (rest : Stack Symbol) :
    (c.map f w).shift rest = (c.shift rest).map f w := by
  simp only [shift, next_map unseen]
  simp only [map, unseen.next_source, Option.map_some]

theorem init_map (unseen : Unseen f) (tokens : List Token) (work : σ) :
    init g (.ofTokens (tokens.map f)) (w work) = (init g (.ofTokens tokens) work).map f w := by
  have same := unseen.next_source (.ofTokens tokens)
  simp only [init, map, Option.map_none]
  rw [show TokenSource.ofTokens (tokens.map f) = (TokenSource.ofTokens tokens).map f from rfl, same]

/-- If the action on top does the same to the other work, the cycle does the same. -/
theorem cycle_map (unseen : Unseen f)
    (performs : ∀ a rest, c.stack = a :: rest → g.kind? a = some .action →
      routine a (c.last.map f) (w c.work) = transport id w (routine a c.last c.work)) :
    cycle g routine (c.map f w) = transport (Step.map f) (map f w) (cycle g routine c) := by
  have name : (c.map f w).next.name = c.next.name := by rw [next_map unseen, unseen.name]
  cases stack : c.stack with
  | nil =>
    have stack' : (c.map f w).stack = [] := stack
    simp only [cycle, stack, stack']
    rfl
  | cons top rest =>
    have stack' : (c.map f w).stack = top :: rest := stack
    simp only [cycle, stack, stack', name]
    by_cases isBottom : top = bottom
    · simp only [isBottom, if_true]
      split <;> rfl
    · simp only [isBottom, if_false]
      generalize found : g.kind? top = kind
      cases kind with
      | none => rfl
      | some kind =>
        cases kind with
        | nonterminal =>
          dsimp only
          cases g.select? top c.next.name with
          | none => rfl
          | some choice => rfl
        | terminal =>
          dsimp only
          split
          · rw [shift_map unseen, next_map unseen]
            rfl
          · rfl
        | action =>
          have performed := performs top rest stack found
          obtain ⟨stack, source, current, last, state, work⟩ := c
          simp only [map] at performed ⊢
          rw [performed]
          cases routine top last work with
          | ok _ after => rfl
          | error e after => rfl

/-- So does the run, if this is true as long as it goes on. -/
theorem run_map (unseen : Unseen f) {keeps : Config σ → Prop} {failure : ε → Prop}
    (cycles : ∀ c, c.state = .running → keeps c → Meets (fun _ => keeps) failure (cycle g routine c))
    (performs : ∀ c a rest, keeps c → c.stack = a :: rest → g.kind? a = some .action →
      routine a (c.last.map f) (w c.work) = transport id w (routine a c.last c.work))
    (budget : Nat) (start : keeps c) :
    run g routine budget (c.map f w) = transport id (map f w) (run g routine budget c) := by
  induction budget generalizing c with
  | zero => rfl
  | succ budget ih =>
    by_cases running : c.state = .running
    · have running' : (c.map f w).state = .running := running
      have kept := cycles c running start
      rw [run_running running, run_running running', cycle_map unseen fun a rest => performs c a rest start]
      cases cycled : cycle g routine c with
      | ok step next =>
        rw [cycled] at kept
        exact ih kept
      | error e next => rfl
    · have stopped' : (c.map f w).state ≠ .running := running
      rw [run_stopped running, run_stopped stopped']
      rfl

end Config

end Automaton

section Rename

variable (r : String → String)

def Value.rename : Value → Value
  | .text x => .text (r x)
  | v => v

/-- The token with another text, if it is an identifier. -/
def Token.rename (t : Token) : Token :=
  if t.name = "$id" then { t with value := t.value.map (Value.rename r) } else t

def Frame.rename : Frame → Frame
  | .value v => .value (v.rename r)
  | .branch place => .branch place

/-- Kind, address and size belong to the new name. -/
def Entry.rename (entry : Entry) : Entry := { entry with name := r entry.name }

def SymbolTable.rename (t : SymbolTable) : SymbolTable := ⟨t.entries.map (Entry.rename r)⟩

def Emitter.rename (e : Emitter) : Emitter :=
  { e with symbols := e.symbols.rename r, frames := e.frames.map (Frame.rename r) }

/-- State, code and memory stay. -/
def Emission.rename (m : Emission) : Emission := { m with symbols := m.symbols.rename r }

theorem Token.rename_identifier (x : String) : (identifier x).rename r = identifier (r x) := by
  simp [rename, identifier, Value.rename]

theorem Token.rename_integer (n : Int64) : (integer n).rename r = integer n := by
  simp [rename, integer]

theorem Token.rename_unseen : Unseen (Token.rename r) where
  name t := by
    unfold Token.rename
    split <;> rfl
  ending := by simp [Token.rename, ending, endMarker]

end Rename

/-- The text of a token, if it has one, is among some names. -/
def Token.Within (names : Set String) (t : Token) : Prop := ∀ x, t.value = some (.text x) → x ∈ names

namespace Emitter

/-- All names that an emitter knows are among some. -/
structure Within (names : Set String) (e : Emitter) : Prop where
  entries : ∀ entry ∈ e.symbols.entries, entry.name ∈ names
  frames : ∀ x, Frame.value (.text x) ∈ e.frames → x ∈ names

variable {names : Set String} {r : String → String} {e e' : Emitter} {last : Option Token}

theorem Within.entered {x : String} {kind : StorageKind} {size : Nat} {entry : Entry}
    (within : e.Within names) (member : x ∈ names) (entered : Entered e x kind size (.ok entry e')) :
    e'.Within names := by
  cases entered with
  | known => exact within
  | reserved =>
    refine ⟨?_, within.frames⟩
    intro entry found
    rcases List.mem_append.mp found with old | new
    · exact within.entries entry old
    · rw [List.mem_singleton.mp new]
      exact member

theorem Within.popped {frame : Frame} {rest : Stack Frame} (within : e.Within names)
    (frames : e.frames = frame :: rest) : Within names { e with frames := rest } :=
  ⟨within.entries, fun x found => within.frames x (frames ▸ List.mem_cons_of_mem _ found)⟩

theorem Within.pushed {frame : Frame} (within : e.Within names)
    (text : ∀ x, frame = .value (.text x) → x ∈ names) :
    Within names { e with frames := frame :: e.frames } := by
  refine ⟨within.entries, ?_⟩
  intro x found
  rcases List.mem_cons.mp found with same | old
  · exact text x same.symm
  · exact within.frames x old

/-- An action learns names only from the last token. -/
theorem Within.performed {duty : Duty} (within : e.Within names)
    (texts : ∀ x, last.bind Token.value = some (.text x) → x ∈ names)
    (performed : Performed e last duty e') : e'.Within names := by
  cases performed with
  | emit | lastValue => exact ⟨within.entries, within.frames⟩
  | beginIf =>
    refine ⟨within.entries, (within.pushed ?_).frames⟩
    rintro x ⟨⟩
  | address value entered | goto value entered | label value entered =>
    have known := within.entered (texts _ value) entered
    exact ⟨known.entries, known.frames⟩
  | push value =>
    apply within.pushed
    rintro x ⟨⟩
    exact texts x value
  | declare _ frames entered =>
    exact (within.popped frames).entered (within.frames _ (frames ▸ List.mem_cons_self)) entered
  | endIf frames =>
    have below := within.popped frames
    exact ⟨below.entries, below.frames⟩

/-- A name has an entry exactly if its replacement has one in the renamed table. -/
theorem Within.find?_rename (within : e.Within names) (injective : Set.InjOn r names) {x : String}
    (member : x ∈ names) :
    (e.symbols.rename r).find? (r x) = (e.symbols.find? x).map (Entry.rename r) := by
  have same : ∀ entry ∈ e.symbols.entries, decide (r entry.name = r x) = decide (entry.name = x) := by
    intro entry found
    simp only [decide_eq_decide]
    exact injective.eq_iff (within.entries entry found) member
  simp only [SymbolTable.find?, SymbolTable.rename, List.find?_map]
  exact congrArg (Option.map (Entry.rename r)) (List.find?_congr same)

theorem Within.entry_rename (within : e.Within names) (injective : Set.InjOn r names) {x : String}
    (member : x ∈ names) (kind : StorageKind) (size : Nat) :
    entry (r x) kind size (e.rename r) =
      transport (Entry.rename r) (rename r) (entry x kind size e) := by
  have found : (e.rename r).symbols.find? (r x) = _ := within.find?_rename injective member
  have data : (e.rename r).program.data = e.program.data := rfl
  rw [entry_eq, entry_eq, found, data]
  cases e.symbols.find? x with
  | some entry => rfl
  | none =>
    dsimp only [Option.map_none]
    cases Memory.allocate size e.program.data with
    | ok address memory => simp [transport, rename, SymbolTable.rename, Entry.rename, withData]
    | error error memory => rfl

theorem nameOf_identifier (action : Symbol) (x : String) :
    nameOf action (some (.identifier x)) = pure x := rfl

theorem bind_here {α : Type} (f : Nat → Action α) (e : Emitter) :
    (here >>= f) e = f e.program.nextIndex e := rfl

theorem bind_popFrame {α : Type} {action : Symbol} {f : Frame → Action α} {frame : Frame}
    {rest : Stack Frame} (frames : e.frames = frame :: rest) :
    (popFrame action >>= f) e = f frame { e with frames := rest } := by
  obtain ⟨actions, symbols, program, _⟩ := e
  subst frames
  rfl

/-- The place of a label is put at the same address. -/
theorem Within.label_rename (within : e.Within names) (injective : Set.InjOn r names) {x : String}
    (member : x ∈ names) : label (r x) (e.rename r) = transport id (rename r) (label x e) := by
  unfold label
  rw [bind_here, bind_here]
  refine transport_bind (within.entry_rename injective member .label 1) fun entry e' => ?_
  -- Whether the store is refused depends on the address alone.
  rw [onData_store, onData_store]
  simp only [rename, Entry.rename]
  cases e'.program.data.refusal? entry.address with
  | some error => rfl
  | none => rfl

/-- A foreseen action does the same under other names. -/
theorem Within.perform_rename {p p' : Prospect} {duty : Duty} (within : e.Within names)
    (injective : Set.InjOn r names) (holds : p.Holds last e) (done : p.perform duty = some p')
    (texts : ∀ x, last.bind Token.value = some (.text x) → x ∈ names) (action : Symbol) :
    perform action (last.map (Token.rename r)) duty (e.rename r) =
      transport id (rename r) (perform action last duty e) := by
  obtain ⟨found, after, _⟩ := Prospect.perform_eq_some_iff.mp done
  cases duty with
  | emit op => rfl
  | lastValue =>
    obtain ⟨n, rfl, _⟩ := holds.integer (found.resolve_left (by simp [Duty.source?]))
    rw [Option.map_some, Token.rename_integer]
    rfl
  | address =>
    obtain ⟨x, rfl⟩ := holds.identifier (found.resolve_left (by simp [Duty.source?]))
    simp only [Option.map_some, Token.rename_identifier, perform, nameOf_identifier, pure_bind]
    exact transport_bind (within.entry_rename injective (texts x rfl) .scalar 1) fun entry e' => rfl
  | goto =>
    obtain ⟨x, rfl⟩ := holds.identifier (found.resolve_left (by simp [Duty.source?]))
    simp only [Option.map_some, Token.rename_identifier, perform, nameOf_identifier, pure_bind]
    exact transport_bind (within.entry_rename injective (texts x rfl) .label 1) fun entry e' => rfl
  | label =>
    obtain ⟨x, rfl⟩ := holds.identifier (found.resolve_left (by simp [Duty.source?]))
    rw [Option.map_some, Token.rename_identifier]
    exact within.label_rename injective (texts x rfl)
  | push =>
    obtain ⟨x, rfl⟩ := holds.identifier (found.resolve_left (by simp [Duty.source?]))
    rw [Option.map_some, Token.rename_identifier]
    rfl
  | declare =>
    obtain ⟨n, rfl, positive⟩ := holds.integer (found.resolve_left (by simp [Duty.source?]))
    obtain ⟨x, below, top, _⟩ := holds.name_on_top after
    have member : x ∈ names := within.frames x (top ▸ List.mem_cons_self)
    have top' : (e.rename r).frames = .value (.text (r x)) :: below.map (Frame.rename r) := by
      simp only [rename, top, List.map_cons, Frame.rename, Value.rename]
    simp only [Option.map_some, Token.rename_integer, perform, subscriptOf_integer action positive,
      pure_bind]
    rw [bind_popFrame top, bind_popFrame top']
    exact transport_bind ((within.popped top).entry_rename injective member .array _) fun entry e' => rfl
  | beginIf => rfl
  | endIf =>
    obtain ⟨place, below, top, _⟩ := holds.branch_on_top after
    obtain ⟨actions, symbols, program, frames⟩ := e
    subst top
    rfl

end Emitter

namespace Automaton.Config

variable {names : Set String} {r : String → String} {c : Config Emitter}

/-- All texts of a run are among some names. -/
structure Within (names : Set String) (c : Config Emitter) : Prop where
  tokens : ∀ t ∈ c.current.toList ++ c.source.toList, t.Within names
  last : ∀ t, c.last = some t → t.Within names
  work : c.work.Within names

theorem Within.texts (within : c.Within names) (x : String)
    (value : c.last.bind Token.value = some (.text x)) : x ∈ names := by
  obtain ⟨t, last, value⟩ := Option.bind_eq_some_iff.mp value
  exact within.last t last x value

theorem Within.shift (within : c.Within names) (rest : Stack Symbol) : (c.shift rest).Within names := by
  refine ⟨?_, ?_, within.work⟩
  · intro t member
    refine within.tokens t (List.mem_append_right _ ?_)
    exact (next_toList c.source).1 ▸ member
  · rintro t ⟨⟩
    unfold next
    cases current : c.current with
    | none => rintro x ⟨⟩
    | some t => exact within.tokens t (by simp [current])

/-- A cycle brings in no name from elsewhere. -/
theorem Within.cycle (g : Grammar) (within : c.Within names) :
    Meets (fun _ => Within names) (fun _ => True) (cycle g Emitter.routine c) := by
  have effect := cycle_effect g Emitter.routine c
  generalize Config.cycle g Emitter.routine c = result at effect
  cases effect with
  | rejected | accepted | expanded => exact ⟨within.tokens, within.last, within.work⟩
  | matched => exact within.shift _
  | performed _ _ _ performed =>
    obtain ⟨_, _, performed⟩ := performed_of_routine performed
    exact ⟨within.tokens, within.last, within.work.performed within.texts performed⟩
  | failed => trivial

theorem init_within {tokens : List Token} (texts : ∀ t ∈ tokens, t.Within names) :
    (init programScheme (.ofTokens tokens) { actions := programScheme.actions }).Within names := by
  refine ⟨?_, ?_, ⟨?_, ?_⟩⟩
  · intro t member
    rw [(init_awaits tokens _).1] at member
    rcases List.mem_append.mp member with given | last
    · exact texts t given
    · rw [List.mem_singleton.mp last]
      rintro x ⟨⟩
  · rintro t ⟨⟩
  · intro entry member
    exact absurd member List.not_mem_nil
  · intro x member
    exact absurd member List.not_mem_nil

/-- A run on shaped tokens goes on in the same way under other names. -/
theorem run_rename (injective : Set.InjOn r names) (ready : c.Ready) (within : c.Within names)
    (budget : Nat) :
    run programScheme Emitter.routine budget (c.map (Token.rename r) (Emitter.rename r)) =
      transport id (map (Token.rename r) (Emitter.rename r))
        (run programScheme Emitter.routine budget c) := by
  have cycles : ∀ c : Config Emitter, c.state = .running → c.Ready ∧ c.Within names →
      Meets (fun _ next => next.Ready ∧ next.Within names) (fun _ => True)
        (Config.cycle programScheme Emitter.routine c) := by
    rintro c _ ⟨ready, within⟩
    have kept := ready.cycle
    have known := within.cycle programScheme
    cases result : Config.cycle programScheme Emitter.routine c with
    | error e next => trivial
    | ok step next =>
      rw [result] at kept known
      exact ⟨kept, known⟩
  refine run_map (Token.rename_unseen r) cycles ?_ budget ⟨ready, within⟩
  -- The symbols on the stack foresee that the action finds an identifier where it asks for a name.
  rintro c a rest ⟨ready, within⟩ top kind
  obtain ⟨p, q, holds, through⟩ := ready.foreseen
  rw [top] at through
  obtain ⟨duty, p', named, done, _⟩ := Prospect.exists_duty kind through
  have permitted : a ∈ c.work.actions := holds.sound.permits ▸ mem_actions kind
  have permitted' : a ∈ (c.work.rename r).actions := permitted
  rw [routine_eq permitted named, routine_eq permitted' named]
  exact within.work.perform_rename injective holds done within.texts a

end Automaton.Config

namespace Emission

variable {names : Set String} {r : String → String}

/-- Two runs left the same but for the names, or the memory was full in both. -/
def SameUpTo (r : String → String) :
    EStateM.Result EmitError Run Unit → EStateM.Result EmitError Run Unit → Prop
  | .ok _ final, .ok _ final' => ofRun final' = (ofRun final).rename r
  | .error e final, .error e' final' =>
    e = .memory .outOfMemory ∧ e' = .memory .outOfMemory ∧ ofRun final' = (ofRun final).rename r
  | _, _ => False

theorem advance_rename (injective : Set.InjOn r names) {run run' : Run} (ready : run.config.Ready)
    (within : run.config.Within names)
    (renamed : run'.config = run.config.map (Token.rename r) (Emitter.rename r)) (budget : Nat) :
    SameUpTo r (advance programScheme budget run) (advance programScheme budget run') := by
  have left := Watched.run_config programScheme Emitter.routine tracer budget run
  have right := Watched.run_config programScheme Emitter.routine tracer budget run'
  have fails := Watched.run_preserves tracer (fun c _ _ ready => Config.Ready.cycle ready) budget run ready
  rw [renamed, Config.run_rename injective ready within] at right
  unfold advance
  cases ran : Watched.run programScheme Emitter.routine tracer budget run with
  | ok _ final =>
    rw [ran] at left
    rw [left] at right
    cases ran' : Watched.run programScheme Emitter.routine tracer budget run' with
    | ok _ final' =>
      rw [ran'] at right
      obtain ⟨_, same⟩ := EStateM.Result.ok.inj right
      simp only [SameUpTo, ofRun, ← same]
      rfl
    | error e' final' =>
      rw [ran'] at right
      cases right
  | error e final =>
    rw [ran] at left fails
    rw [left] at right
    cases ran' : Watched.run programScheme Emitter.routine tracer budget run' with
    | ok _ final' =>
      rw [ran'] at right
      cases right
    | error e' final' =>
      rw [ran'] at right
      obtain ⟨same_error, same⟩ := EStateM.Result.error.inj right
      refine ⟨fails, same_error ▸ fails, ?_⟩
      simp only [ofRun, ← same]
      rfl

end Emission

/-- If the identifiers of some tokens get other texts, and different ones get different ones, the same is
emitted for the tokens: the runs are in the same state with the same code and memory, and the table has the
same entries under the other names. Both runs stop, unless the memory is full in both. -/
theorem renamed_tokens_emit_alike (r : String → String) (tokens : List Token)
    (shaped : ∀ t ∈ tokens, t.Shaped) (injective : Set.InjOn r {x | Token.identifier x ∈ tokens})
    (trace trace' : Option (Array String)) :
    ∃ run run', Emission.start programScheme tokens trace = .ok run ∧
      Emission.start programScheme (tokens.map (Token.rename r)) trace' = .ok run' ∧
      ∀ budget,
        Emission.SameUpTo r (Emission.advance programScheme budget run)
          (Emission.advance programScheme budget run') ∧
        (8 * tokens.length + 8 ≤ budget → ∀ final,
          Emission.advance programScheme budget run = .ok () final →
          (Emission.ofRun final).state ≠ .running) := by
  refine ⟨_, _, emission_start tokens trace, emission_start _ trace', fun budget => ⟨?_, ?_⟩⟩
  · refine Emission.advance_rename injective (Config.init_ready shaped) (Config.init_within ?_)
      (Config.init_map (w := Emitter.rename r) (Token.rename_unseen r) tokens
        { actions := programScheme.actions }) budget
    intro t member x value
    have shape := shaped t member
    cases shape with
    | identifier y =>
      cases value
      exact member
    | integer n => cases value
    | symbol name => cases value
  · intro enough final advanced
    have stopped := Config.stopped_of_fair programTariff_fair Emitter.routine tokens
      { actions := programScheme.actions } 8 (by decide +kernel) enough
    rw [Watched.config_of_run advanced] at stopped
    exact stopped

/-- A loop that fills an array, and a jump to a label that stands nowhere. -/
def filling : String := "declare row(3); :again: row(i) = i; if i < 3 then goto again; goto out;"

def fillingTokens : List Token :=
  [.symbol "$declare", .identifier "row", .symbol "(", .integer 3, .symbol ")", .symbol ";",
   .symbol ":", .identifier "again", .symbol ":", .identifier "row", .symbol "(", .identifier "i",
   .symbol ")", .symbol "=", .identifier "i", .symbol ";", .symbol "$if", .identifier "i",
   .symbol "<", .integer 3, .symbol "$then", .symbol "$goto", .identifier "again", .symbol ";",
   .symbol "$goto", .identifier "out", .symbol ";"]

/-- The array and the label exchange their names. -/
theorem renamed_tokens_emit_alike_swap :
    (∀ t ∈ fillingTokens, t.Shaped) ∧
      Set.InjOn (Equiv.swap "row" "again") {x | Token.identifier x ∈ fillingTokens} ∧
      ∃ run run', Emission.start programScheme fillingTokens none = .ok run ∧
        Emission.start programScheme
          (fillingTokens.map (Token.rename (Equiv.swap "row" "again"))) none = .ok run' ∧
        ∀ budget,
          Emission.SameUpTo (Equiv.swap "row" "again") (Emission.advance programScheme budget run)
            (Emission.advance programScheme budget run') ∧
          (8 * fillingTokens.length + 8 ≤ budget → ∀ final,
            Emission.advance programScheme budget run = .ok () final →
            (Emission.ofRun final).state ≠ .running) := by
  have scanned : Token.scan filling = .ok fillingTokens := by cbv
  have shaped := Token.scan_shaped scanned
  have injective : Set.InjOn (Equiv.swap "row" "again") {x | Token.identifier x ∈ fillingTokens} :=
    (Equiv.injective _).injOn
  exact ⟨shaped, injective, renamed_tokens_emit_alike _ fillingTokens shaped injective none none⟩

end Pushdown
