import Mathlib
import Pushdown.Proofs.Compilation

/-! Every action finds what it needs. An action takes a name or an integer from the token matched last,
or a frame that an earlier action left; both are foreseen by the symbols on the stack of the
automaton. The right side of each rule gives back the frames as it found them, so the foresight holds
along every run, also along one that is rejected midway, and nothing but a full memory can stop an
action. -/
namespace Pushdown

open Automaton Emitter Grammar Token

/-- What an action leaves for another: a name, or the place of a branch. -/
inductive FrameKind where
  | name
  | branch
deriving DecidableEq

namespace Duty

/-- The name of the token that an action takes its value from. -/
def source? : Duty → Option Symbol
  | .address | .goto | .label | .push => some "$id"
  | .lastValue | .declare => some "$int"
  | .emit _ | .beginIf | .endIf => none

/-- The frames after an action, unless the one that it needs is not on top. -/
def framesAfter : Duty → List FrameKind → Option (List FrameKind)
  | .push, frames => some (.name :: frames)
  | .declare, .name :: frames => some frames
  | .declare, _ => none
  | .beginIf, frames => some (.branch :: frames)
  | .endIf, .branch :: frames => some frames
  | .endIf, _ => none
  | _, frames => some frames

theorem framesAfter_append {duty : Duty} {frames after : List FrameKind}
    (done : duty.framesAfter frames = some after) (below : List FrameKind) :
    duty.framesAfter (frames ++ below) = some (after ++ below) := by
  unfold framesAfter at done
  split at done
  all_goals cases done
  all_goals simp_all [framesAfter]

end Duty

/-- What is foreseen of the moment when a symbol comes to the top: the name of the token matched last,
if it is known, and the frames. -/
structure Prospect where
  last : Option Symbol := none
  frames : List FrameKind := []

namespace Prospect

/-- The prospect behind an action, unless the action would not find what it needs. -/
def perform (p : Prospect) (duty : Duty) : Option Prospect :=
  if duty.source? = none ∨ duty.source? = p.last then
    (duty.framesAfter p.frames).map fun frames => { p with frames }
  else none

/-- The prospect behind the symbols of a stack. Behind a nonterminal the last token is not known, and
the frames are those before it. -/
def through (g : Grammar) (p : Prospect) : List Symbol → Option Prospect
  | [] => some p
  | s :: rest =>
    match g.kind? s with
    | some .terminal => through g { p with last := some s } rest
    | some .nonterminal => through g { p with last := none } rest
    | some .action => ((Duty.ofName? s).bind p.perform).bind fun p => through g p rest
    | none => none

/-- A prospect that knows at least as much, with further frames below. -/
structure Covers (p q : Prospect) (below : List FrameKind) : Prop where
  last : q.last = none ∨ p.last = q.last
  frames : p.frames = q.frames ++ below

variable {g : Grammar} {p q q' : Prospect} {below : List FrameKind}

theorem perform_eq_some_iff {duty : Duty} : p.perform duty = some q ↔
    (duty.source? = none ∨ duty.source? = p.last) ∧
      duty.framesAfter p.frames = some q.frames ∧ q.last = p.last := by
  obtain ⟨last, frames⟩ := q
  simp only [perform, Option.ite_none_right_eq_some, Option.map_eq_some_iff, mk.injEq]
  grind

theorem Covers.perform {duty : Duty} (covers : p.Covers q below) (done : q.perform duty = some q') :
    ∃ p', p.perform duty = some p' ∧ p'.Covers q' below := by
  obtain ⟨found, frames, last⟩ := perform_eq_some_iff.mp done
  refine ⟨⟨p.last, q'.frames ++ below⟩, perform_eq_some_iff.mpr ⟨?_, ?_, rfl⟩, ⟨?_, rfl⟩⟩
  · rcases covers.last with unknown | same
    · rw [unknown] at found
      exact .inl (found.elim id id)
    · rw [same]
      exact found
  · rw [covers.frames]
    exact Duty.framesAfter_append frames below
  · rw [last]
    exact covers.last

theorem Covers.through {symbols : List Symbol} (covers : p.Covers q below)
    (done : q.through g symbols = some q') :
    ∃ p', p.through g symbols = some p' ∧ p'.Covers q' below := by
  induction symbols generalizing p q with
  | nil =>
    cases done
    exact ⟨p, rfl, covers⟩
  | cons s rest ih =>
    obtain ⟨last, frames⟩ := covers
    unfold Prospect.through at done ⊢
    split at done
    · exact ih (q := { q with last := some s }) ⟨.inr rfl, frames⟩ done
    · exact ih (q := { q with last := none }) ⟨.inl rfl, frames⟩ done
    · obtain ⟨next, performed, done⟩ := Option.bind_eq_some_iff.mp done
      obtain ⟨duty, named, performed⟩ := Option.bind_eq_some_iff.mp performed
      obtain ⟨p', performed, covers⟩ := Covers.perform ⟨last, frames⟩ performed
      obtain ⟨p'', done, covers⟩ := ih covers done
      exact ⟨p'', by simp [named, performed, done], covers⟩
    · cases done

theorem through_append (front back : List Symbol) :
    p.through g (front ++ back) = (p.through g front).bind fun p => p.through g back := by
  induction front generalizing p with
  | nil => rfl
  | cons s front ih =>
    simp only [List.cons_append, through]
    split
    · exact ih
    · exact ih
    · simp only [Option.bind_assoc, ih]
    · rfl

/-- A rule may take the place of its left side if it leaves the frames alone. -/
theorem through_expand {rule : Rule} {rest : List Symbol}
    (kind : g.kind? rule.left = some .nonterminal)
    (balanced : ∃ q, through g {} rule.right = some q ∧ q.frames = [])
    (done : p.through g (rule.left :: rest) = some q') :
    ∃ q, p.through g (rule.right ++ rest) = some q := by
  obtain ⟨q, inner, empty⟩ := balanced
  have start : p.Covers {} p.frames := ⟨.inl rfl, rfl⟩
  obtain ⟨p', entered, covers⟩ := start.through inner
  have behind : p'.Covers { p with last := none } [] :=
    ⟨.inl rfl, by simpa [empty] using covers.frames⟩
  simp only [through, kind] at done
  obtain ⟨final, left, _⟩ := behind.through done
  exact ⟨final, by simp [through_append, entered, left]⟩

end Prospect

/-- Each rule of programs finds what its actions need, and leaves the frames as they were. -/
theorem programScheme_balanced : ∀ rule ∈ programScheme.rules,
    ∃ q, Prospect.through programScheme {} rule.right = some q ∧ q.frames = [] := by
  have checked : ∀ rule ∈ programScheme.rules,
      ((Prospect.through programScheme {} rule.right).map Prospect.frames) = some [] := by
    decide +kernel
  intro rule member
  exact Option.map_eq_some_iff.mp (checked rule member)

/-- The addresses that memory is reserved at. -/
def Memory.Reservable (a : Nat) : Prop := 0 < a ∧ a ≤ defaultCapacity

/-- A cell of emitted code. An address is that of a name, or a place up to the bound. -/
def Cell.Emitted (bound : Nat) : Cell → Prop
  | .opcode _ | .int _ | .unset => True
  | .address a => 0 < a ∧ a ≤ bound
  | .real _ | .text _ => False

/-- A cell of memory before the program runs: the place of a label, or nothing. -/
def Cell.Marked (bound : Nat) : Cell → Prop
  | .address a => 0 < a ∧ a ≤ bound
  | .unset => True
  | .opcode _ | .int _ | .real _ | .text _ => False

theorem Cell.Emitted.mono {c : Cell} {bound wider : Nat} (emitted : c.Emitted bound)
    (le : bound ≤ wider) : c.Emitted wider := by
  cases c with
  | address a => exact ⟨emitted.1, emitted.2.trans le⟩
  | opcode | int | unset => trivial
  | real | text => exact emitted

theorem Cell.Marked.mono {c : Cell} {bound wider : Nat} (marked : c.Marked bound)
    (le : bound ≤ wider) : c.Marked wider := by
  cases c with
  | address a => exact ⟨marked.1, marked.2.trans le⟩
  | unset => trivial
  | opcode | int | real | text => exact marked

inductive Frame.Fits : FrameKind → Frame → Prop
  | name (x : String) : Fits .name (.value (.text x))
  | branch (place : Nat) : Fits .branch (.branch place)

namespace Emitter

/-- The greatest address or place that can occur. -/
def reach (e : Emitter) : Nat := max Memory.defaultCapacity e.program.nextIndex

/-- What holds of an emitter throughout: names have addresses, and code and memory are made of the
cells they should be made of. -/
structure Sound (e : Emitter) : Prop where
  permits : e.actions = programScheme.actions
  capacity : e.program.data.capacity = Memory.defaultCapacity
  entries : ∀ entry ∈ e.symbols.entries, Memory.Reservable entry.address
  code : ∀ c ∈ e.program.code, c.Emitted e.reach
  data : ∀ c ∈ e.program.data.cells, c.Marked e.reach

namespace Sound

variable {e : Emitter}

theorem initial : Sound { actions := programScheme.actions } := by
  refine ⟨rfl, rfl, ?_, ?_, ?_⟩
  · intro entry member
    exact absurd member List.not_mem_nil
  · intro c member
    exact absurd member (Array.not_mem_empty c)
  · intro c member
    exact absurd member (Array.not_mem_empty c)

theorem withFrames (sound : e.Sound) (frames : Stack Frame) : Sound { e with frames } :=
  ⟨sound.permits, sound.capacity, sound.entries, sound.code, sound.data⟩

theorem emit (sound : e.Sound) {c : Cell} (emitted : c.Emitted e.reach) :
    Sound { e with program := e.program.emit c } := by
  have further : e.reach ≤ reach { e with program := e.program.emit c } := by
    simp only [reach, Program.nextIndex, Program.emit, Array.size_push]
    omega
  refine ⟨sound.permits, sound.capacity, sound.entries, ?_, ?_⟩
  · intro d member
    rcases Array.mem_push.mp member with old | rfl
    · exact (sound.code d old).mono further
    · exact emitted.mono further
  · intro d member
    exact (sound.data d member).mono further

theorem reserved (sound : e.Sound) (x : String) (kind : StorageKind) {size : Nat}
    (positive : 0 < size)
    (room : e.program.data.cells.size + size ≤ e.program.data.capacity) :
    (e.reserved x kind size).Sound := by
  refine ⟨sound.permits, sound.capacity, ?_, sound.code, ?_⟩
  · intro entry member
    rcases List.mem_append.mp member with old | new
    · exact sound.entries entry old
    · obtain rfl := List.mem_singleton.mp new
      rw [sound.capacity] at room
      exact ⟨Nat.succ_pos _, by simp only [Memory.nextAddress]; omega⟩
  · intro c member
    rcases Array.mem_append.mp member with old | new
    · exact sound.data c old
    · rw [(Array.mem_replicate.mp new).2]
      trivial

/-- A label puts the next place of the code into the memory. -/
theorem mark (sound : e.Sound) (a : Nat) :
    Sound { e with program := { e.program with
      data := e.program.data.put a (.address e.program.nextIndex) } } := by
  refine ⟨sound.permits, sound.capacity, sound.entries, sound.code, ?_⟩
  intro c member
  rcases Array.mem_or_eq_of_mem_setIfInBounds member with old | rfl
  · rcases Array.mem_append.mp old with old | new
    · exact sound.data c old
    · rw [(Array.mem_replicate.mp new).2]
      trivial
  · exact ⟨Nat.succ_pos _, Nat.le_max_right _ _⟩

/-- The target of a branch is the next place of the code. -/
theorem patch (sound : e.Sound) (place : Nat) :
    Sound { e with program := (e.program.patch place (.address e.program.nextIndex)).2 } := by
  unfold Program.patch
  split
  · exact sound
  · let code := e.program.code.setIfInBounds (place - 1) (.address e.program.nextIndex)
    have same : reach { e with program := { e.program with code := code } } = e.reach := by
      simp [code, reach, Program.nextIndex]
    refine ⟨sound.permits, sound.capacity, sound.entries, ?_, ?_⟩
    · intro c member
      rw [same]
      rcases Array.mem_or_eq_of_mem_setIfInBounds member with old | rfl
      · exact sound.code c old
      · exact ⟨Nat.succ_pos _, Nat.le_max_right _ _⟩
    · intro c member
      rw [same]
      exact sound.data c member

theorem emitted_address (sound : e.Sound) {entry : Entry} (member : entry ∈ e.symbols.entries) :
    (Cell.address entry.address).Emitted e.reach := by
  obtain ⟨positive, small⟩ := sound.entries entry member
  exact ⟨positive, small.trans (Nat.le_max_left _ _)⟩

end Sound

/-- An action does what is said of it, unless the memory is full. -/
abbrev Completes {α : Type} (post : Emitter → Prop) (result : EStateM.Result EmitError Emitter α) :
    Prop :=
  Meets (fun _ => post) (· = .memory .outOfMemory) result

/-- A name is entered, and the action goes on with its entry. -/
theorem Sound.entry {e : Emitter} {rest : Entry → Action Unit} {post : Emitter → Prop}
    (sound : e.Sound) (x : String) (kind : StorageKind) {size : Nat} (positive : 0 < size)
    (onward : ∀ entry e', e'.Sound → entry ∈ e'.symbols.entries → e'.frames = e.frames →
      e'.program.code = e.program.code → Completes post (rest entry e')) :
    Completes post ((do let entry ← Emitter.entry x kind size; rest entry) e) := by
  have entered := entry_entered e x kind size
  simp only [bind, EStateM.bind]
  generalize Emitter.entry x kind size e = result at entered
  cases entered with
  | known found => exact onward _ _ sound (SymbolTable.name_of_find? found).1 rfl rfl
  | reserved fresh room =>
    exact onward _ _ (sound.reserved x kind positive room)
      (List.mem_append_right _ (List.mem_singleton_self _)) rfl rfl
  | full => rfl

theorem subscriptOf_integer (action : Symbol) {n : Int64} (positive : 0 ≤ n) :
    subscriptOf action (some (.integer n)) = pure n.toInt.toNat := by
  simp [subscriptOf, valueOf, Token.integer, positive]

end Emitter

/-- The emitter and the last token are as foreseen. -/
structure Prospect.Holds (p : Prospect) (last : Option Token) (e : Emitter) : Prop where
  sound : e.Sound
  known : ∀ name, p.last = some name → ∃ t, last = some t ∧ t.name = name ∧ t.Shaped
  frames : List.Forall₂ Frame.Fits p.frames e.frames

namespace Prospect.Holds

variable {p p' : Prospect} {last : Option Token} {e : Emitter}

theorem identifier (holds : p.Holds last e) (same : some "$id" = p.last) :
    ∃ x, last = some (Token.identifier x) := by
  obtain ⟨t, rfl, name, shaped⟩ := holds.known "$id" same.symm
  cases shaped with
  | identifier x => exact ⟨x, rfl⟩
  | integer n => simp [Token.integer] at name
  | symbol _ other => exact absurd name other

theorem integer (holds : p.Holds last e) (same : some "$int" = p.last) :
    ∃ n, last = some (Token.integer n) ∧ 0 ≤ n := by
  obtain ⟨t, rfl, name, shaped⟩ := holds.known "$int" same.symm
  cases shaped with
  | identifier x => simp [Token.identifier] at name
  | integer n positive => exact ⟨n, rfl, positive⟩
  | symbol _ _ other => exact absurd name other

theorem emit (holds : p.Holds last e) {c : Cell} (emitted : c.Emitted e.reach) :
    p.Holds last { e with program := e.program.emit c } :=
  ⟨holds.sound.emit emitted, holds.known, holds.frames⟩

theorem label (holds : p.Holds last e) (x : String) :
    Completes (p.Holds last) (Emitter.label x e) := by
  refine holds.sound.entry x .label Nat.one_pos fun entry e' sound member frames code => ?_
  obtain ⟨positive, small⟩ := sound.entries entry member
  have place : e.program.nextIndex = e'.program.nextIndex := by simp [Program.nextIndex, code]
  have accepted : e'.program.data.refusal? entry.address = none := by
    rw [Memory.refusal?_eq_none_iff, sound.capacity]
    exact ⟨positive, small⟩
  rw [onData_store, place, accepted]
  exact ⟨sound.mark entry.address, holds.known, frames ▸ holds.frames⟩

theorem name_on_top {after : List FrameKind} (holds : p.Holds last e)
    (done : Duty.declare.framesAfter p.frames = some after) :
    ∃ x below, e.frames = .value (.text x) :: below ∧ List.Forall₂ Frame.Fits after below := by
  have frames := holds.frames
  generalize p.frames = foreseen at done frames
  generalize e.frames = found at frames
  cases frames with
  | nil => cases done
  | cons top below =>
    cases top with
    | branch => cases done
    | name x =>
      cases done
      exact ⟨x, _, rfl, below⟩

theorem branch_on_top {after : List FrameKind} (holds : p.Holds last e)
    (done : Duty.endIf.framesAfter p.frames = some after) :
    ∃ place below, e.frames = .branch place :: below ∧ List.Forall₂ Frame.Fits after below := by
  have frames := holds.frames
  generalize p.frames = foreseen at done frames
  generalize e.frames = found at frames
  cases frames with
  | nil => cases done
  | cons top below =>
    cases top with
    | name => cases done
    | branch place =>
      cases done
      exact ⟨place, _, rfl, below⟩

/-- A foreseen action succeeds and leaves what is foreseen behind it, unless the memory is full. -/
theorem perform {duty : Duty} (holds : p.Holds last e) (done : p.perform duty = some p')
    (action : Symbol) :
    Completes (p'.Holds last) (Emitter.perform action last duty e) := by
  obtain ⟨found, after, same⟩ := Prospect.perform_eq_some_iff.mp done
  obtain ⟨last', frames'⟩ := p'
  subst same
  cases duty with
  | emit op =>
    cases after
    exact holds.emit trivial
  | lastValue =>
    obtain ⟨n, rfl, _⟩ := holds.integer (found.resolve_left (by simp [Duty.source?]))
    cases after
    exact holds.emit trivial
  | address =>
    obtain ⟨x, rfl⟩ := holds.identifier (found.resolve_left (by simp [Duty.source?]))
    cases after
    refine holds.sound.entry x .scalar Nat.one_pos fun entry e' sound member frames _ => ?_
    have entered : p.Holds _ e' := ⟨sound, holds.known, frames ▸ holds.frames⟩
    exact entered.emit (sound.emitted_address member)
  | goto =>
    obtain ⟨x, rfl⟩ := holds.identifier (found.resolve_left (by simp [Duty.source?]))
    cases after
    refine holds.sound.entry x .label Nat.one_pos fun entry e' sound member frames _ => ?_
    have entered : p.Holds _ e' := ⟨sound, holds.known, frames ▸ holds.frames⟩
    have literal := entered.emit (c := .opcode .literal) trivial
    have address := literal.emit (literal.sound.emitted_address member)
    have fetched := address.emit (c := .opcode .loadAt) trivial
    exact fetched.emit (c := .opcode .jump) trivial
  | label =>
    obtain ⟨x, rfl⟩ := holds.identifier (found.resolve_left (by simp [Duty.source?]))
    cases after
    exact holds.label x
  | push =>
    obtain ⟨x, rfl⟩ := holds.identifier (found.resolve_left (by simp [Duty.source?]))
    cases after
    exact ⟨holds.sound.withFrames _, holds.known, .cons (.name x) holds.frames⟩
  | declare =>
    obtain ⟨n, rfl, positive⟩ := holds.integer (found.resolve_left (by simp [Duty.source?]))
    obtain ⟨x, below, top, fits⟩ := holds.name_on_top after
    obtain ⟨actions, symbols, program, frames⟩ := e
    subst top
    simp only [Emitter.perform, Emitter.subscriptOf_integer action positive, pure_bind]
    refine (holds.sound.withFrames below).entry x .array (Nat.succ_pos _)
      fun entry e' sound _ frames _ => ⟨sound, holds.known, ?_⟩
    exact frames ▸ fits
  | beginIf =>
    cases after
    have literal := holds.emit (c := .opcode .literal) trivial
    have target := literal.emit (c := .unset) trivial
    have branch := target.emit (c := .opcode .jumpUnless) trivial
    exact ⟨branch.sound.withFrames _, holds.known, .cons (.branch _) holds.frames⟩
  | endIf =>
    obtain ⟨place, below, top, fits⟩ := holds.branch_on_top after
    obtain ⟨actions, symbols, program, frames⟩ := e
    subst top
    exact ⟨(holds.sound.withFrames below).patch place, holds.known, fits⟩

end Prospect.Holds

/-- A permitted action performs its duty. -/
theorem Emitter.routine_eq {e : Emitter} {a : Symbol} {duty : Duty} (permitted : a ∈ e.actions)
    (named : Duty.ofName? a = some duty) (last : Option Token) :
    Emitter.routine a last e = Emitter.perform a last duty e := by
  rw [Emitter.routine, bind_get, if_pos permitted, named]

/-- An action on top of a stack has a duty, and this finds what it needs. -/
theorem Prospect.exists_duty {p q : Prospect} {a : Symbol} {rest : List Symbol}
    (kind : programScheme.kind? a = some .action)
    (through : p.through programScheme (a :: rest) = some q) :
    ∃ duty p', Duty.ofName? a = some duty ∧ p.perform duty = some p' ∧
      p'.through programScheme rest = some q := by
  simp only [Prospect.through, kind] at through
  obtain ⟨p', performed, through⟩ := Option.bind_eq_some_iff.mp through
  obtain ⟨duty, named, performed⟩ := Option.bind_eq_some_iff.mp performed
  exact ⟨duty, p', named, performed, through⟩

/-- The routine of an action that comes to the top, and what is foreseen behind it. -/
theorem Prospect.Holds.routine {p q : Prospect} {last : Option Token} {e : Emitter} {a : Symbol}
    {rest : List Symbol} (holds : p.Holds last e) (kind : programScheme.kind? a = some .action)
    (through : p.through programScheme (a :: rest) = some q) :
    ∃ p' : Prospect, Completes (p'.Holds last) (Emitter.routine a last e) ∧
      p'.through programScheme rest = some q := by
  obtain ⟨duty, p', named, performed, through⟩ := Prospect.exists_duty kind through
  have permitted : a ∈ e.actions := holds.sound.permits ▸ mem_actions kind
  rw [Emitter.routine_eq permitted named]
  exact ⟨p', holds.perform performed a, through⟩

/-- What holds along every run on shaped tokens: they are still shaped, and the stack foresees what its
actions will find. -/
structure Automaton.Config.Ready (c : Config Emitter) : Prop where
  shaped : ∀ t ∈ c.current.toList ++ c.source.toList, t.Shaped
  foreseen : ∃ p q, Prospect.Holds p c.last c.work ∧ p.through programScheme c.stack = some q

namespace Automaton.Config

variable {c : Config Emitter}

theorem shaped_ending : ending.Shaped := .symbol endMarker (by decide) (by decide)

theorem Ready.next_shaped (ready : c.Ready) : c.next.Shaped := by
  have shaped := ready.shaped
  unfold next
  cases current : c.current with
  | none => exact shaped_ending
  | some t => exact shaped t (by simp [current])

theorem Ready.shift (ready : c.Ready) {s : Symbol} {rest : Stack Symbol}
    (top : c.stack = s :: rest) (kind : programScheme.kind? s = some .terminal)
    (same : c.next.name = s) : (c.shift rest).Ready := by
  obtain ⟨p, q, holds, through⟩ := ready.foreseen
  rw [top] at through
  simp only [Prospect.through, kind] at through
  refine ⟨?_, { p with last := some s }, q, ⟨holds.sound, ?_, holds.frames⟩, through⟩
  · intro t member
    refine ready.shaped t (List.mem_append_right _ ?_)
    exact (next_toList c.source).1 ▸ member
  · rintro name known
    cases known
    exact ⟨c.next, rfl, same, ready.next_shaped⟩

/-- A cycle keeps a run ready, and fails only if the memory is full. -/
theorem Ready.cycle (ready : c.Ready) :
    Meets (fun _ => Ready) (· = .memory .outOfMemory) (cycle programScheme Emitter.routine c) := by
  have effect := cycle_effect programScheme Emitter.routine c
  generalize Config.cycle programScheme Emitter.routine c = result at effect
  obtain ⟨shaped, p, q, holds, through⟩ := ready
  cases effect with
  | rejected => exact ⟨shaped, p, q, holds, through⟩
  | accepted => exact ⟨shaped, p, p, holds, rfl⟩
  | expanded top _ kind selected =>
    obtain ⟨member, rfl, _⟩ := Grammar.select?_spec selected
    rw [top] at through
    obtain ⟨final, onward⟩ :=
      Prospect.through_expand kind (programScheme_balanced _ member) through
    exact ⟨shaped, p, final, holds, onward⟩
  | matched top _ kind same => exact Ready.shift ⟨shaped, p, q, holds, through⟩ top kind same
  | performed top _ kind performed =>
    rw [top] at through
    obtain ⟨p', completes, through⟩ := holds.routine kind through
    rw [performed] at completes
    exact ⟨shaped, p', q, completes, through⟩
  | failed top _ kind failed =>
    rw [top] at through
    obtain ⟨_, completes, _⟩ := holds.routine kind through
    rw [failed] at completes
    exact completes

theorem init_ready {tokens : List Token} (shaped : ∀ t ∈ tokens, t.Shaped) :
    (init programScheme (.ofTokens tokens) { actions := programScheme.actions }).Ready := by
  refine ⟨?_, {}, ⟨some bottom, []⟩, ⟨.initial, ?_, .nil⟩, rfl⟩
  · intro t member
    rw [(init_awaits tokens _).1] at member
    rcases List.mem_append.mp member with given | last
    · exact shaped t given
    · rw [List.mem_singleton.mp last]
      exact shaped_ending
  · rintro name ⟨⟩

end Automaton.Config

/-- Emission for a scanned text comes to a verdict, whatever the text, or the memory is full. -/
theorem emission_fails_only_for_memory {text : String} {tokens : List Token}
    (scanned : Token.scan text = .ok tokens) (trace : Option (Array String)) :
    ∃ run n, Emission.start programScheme tokens trace = .ok run ∧ ∀ budget, n ≤ budget →
      match Emission.advance programScheme budget run with
      | .ok _ run' => (Emission.ofRun run').state = .accepted ∨ (Emission.ofRun run').state = .rejected
      | .error error _ => error = .memory .outOfMemory := by
  obtain ⟨n, stopped⟩ := Config.exists_stopped Emitter.routine programScheme_predicts tokens
    { actions := programScheme.actions }
  refine ⟨_, n, emission_start tokens trace, fun budget enough => ?_⟩
  have stopped := stopped budget enough
  let start : Emission.Run :=
    ⟨.init programScheme (.ofTokens tokens) { actions := programScheme.actions }, trace⟩
  have same := Watched.run_config programScheme Emitter.routine tracer budget start
  have ready := Watched.run_preserves tracer (fun c _ _ ready => Config.Ready.cycle ready) budget start
    (Config.init_ready (scan_shaped scanned))
  unfold Emission.advance
  cases ran : Watched.run programScheme Emitter.routine tracer budget start with
  | error error final =>
    rw [ran] at ready
    exact ready
  | ok _ final =>
    rw [ran] at same
    rw [same] at stopped
    change final.config.state = .accepted ∨ final.config.state = .rejected
    cases ended : final.config.state with
    | running => exact absurd ended stopped
    | accepted => exact .inl rfl
    | rejected => exact .inr rfl

/-- Two branches, one in the other, that end before the inner statement does. -/
def cutOff : String := "if x > 1 then if y = 2 then put x"

def cutOffTokens : List Token :=
  [symbol "$if", identifier "x", symbol ">", integer 1, symbol "$then",
   symbol "$if", identifier "y", symbol "=", integer 2, symbol "$then",
   symbol "$put", identifier "x"]

theorem emission_fails_only_for_memory_cutOff :
    Token.scan cutOff = .ok cutOffTokens ∧
      ∃ run n, Emission.start programScheme cutOffTokens none = .ok run ∧ ∀ budget, n ≤ budget →
        match Emission.advance programScheme budget run with
        | .ok _ run' =>
          (Emission.ofRun run').state = .accepted ∨ (Emission.ofRun run').state = .rejected
        | .error error _ => error = .memory .outOfMemory := by
  have scanned : Token.scan cutOff = .ok cutOffTokens := by cbv
  exact ⟨scanned, emission_fails_only_for_memory scanned none⟩

end Pushdown
