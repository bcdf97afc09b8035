import Mathlib
import Pushdown.Proofs.Allocation
import Pushdown.Proofs.Guarded

/-! Emission under guard, and the ranges of all that is computed. A subscript is at most the greatest integer,
and the memory of an emitter never exceeds its capacity, so sizes and addresses stay far below the greatest
word. The machine counts on from places of its code only, wherever a jump may have led before. -/
namespace Pushdown

open Automaton Guarded

namespace Emitter

/-- Steps of emission under guard. -/
abbrev GuardedAction := EStateM (Halt EmitError) Emitter

def guardedOnData {α : Type} (step : Memory.GuardedAction α) : GuardedAction α :=
  Memory.inside (·.program.data) withData (.map .memory) step

def guardedEntry (name : String) (kind : StorageKind) (size : Nat) : GuardedAction Entry := do
  match (← get).symbols.find? name with
  | some entry => return entry
  | none =>
    let entry := ⟨name, kind, ← guardedOnData (Memory.guardedAllocate size), size⟩
    modify fun e => { e with symbols := ⟨e.symbols.entries ++ [entry]⟩ }
    return entry

def guardedPerform (action : Symbol) (last : Option Token) : Duty → GuardedAction Unit
  | .address => do
    let entry ← guardedEntry (← plain (nameOf action last)) .scalar 1
    plain (emit (.address entry.address))
  | .goto => do
    let entry ← guardedEntry (← plain (nameOf action last)) .label 1
    plain do
      emit (.opcode .literal)
      emit (.address entry.address)
      emit (.opcode .loadAt)
      emit (.opcode .jump)
  | .label => do
    let target ← plain here
    let entry ← guardedEntry (← plain (nameOf action last)) .label 1
    guardedOnData (Memory.guardedStore entry.address (.address target))
  | .declare => do
    let greatest ← plain (subscriptOf action last)
    match ← plain (popFrame action) with
    | .value (.text name) =>
      let size ← outcome (sum greatest 1)
      let _ ← guardedEntry name .array size
    | .value value => throw (.error (.wrongType action value))
    | frame => throw (.error (.unexpectedFrame action frame))
  | duty => plain (perform action last duty)

def guardedRoutine : Routine Emitter (Halt EmitError) := fun action last => do
  if action ∈ (← get).actions then
    match Duty.ofName? action with
    | some duty => guardedPerform action last duty
    | none => throw (.error (.unknownAction action))
  else throw (.error (.unknownAction action))

variable {e : Emitter}

theorem guardedOnData_eq {α : Type} {step : Memory.Action α} {guarded : Memory.GuardedAction α}
    (same : guarded e.program.data = plain step e.program.data) :
    guardedOnData guarded e = plain (onData step) e := by
  simp only [guardedOnData, onData, Memory.inside, same, plain, EStateM.adaptExcept]
  cases step e.program.data <;> rfl

theorem guardedEntry_eq (small : e.program.data.cells.size ≤ Memory.defaultCapacity) (name : String)
    (kind : StorageKind) {size : Nat} (most : size ≤ 2 ^ 63) :
    guardedEntry name kind size e = plain (entry name kind size) e := by
  rw [Memory.defaultCapacity] at small
  have allocated : guardedOnData (Memory.guardedAllocate size) e =
      plain (onData (Memory.allocate size)) e :=
    guardedOnData_eq (Memory.guardedAllocate_eq _ (by omega) (by omega))
  rw [plain, EStateM.adaptExcept, entry_eq, guardedEntry, bind_get]
  cases e.symbols.find? name with
  | some found => rfl
  | none =>
    simp only [bind, EStateM.bind, allocated, plain, EStateM.adaptExcept, onData, Memory.inside]
    cases Memory.allocate size e.program.data <;> rfl

theorem guardedPerform_eq (small : e.program.data.cells.size ≤ Memory.defaultCapacity)
    (action : Symbol) (last : Option Token) (duty : Duty) :
    guardedPerform action last duty e = plain (perform action last duty) e := by
  cases duty with
  | emit | lastValue | push | beginIf | endIf => rfl
  | address | goto =>
    refine eq_plain_bind rfl fun x _ named => ?_
    obtain ⟨_, rfl⟩ := nameOf_ok named
    exact eq_plain_bind (guardedEntry_eq small x _ Nat.one_le_two_pow) fun _ _ _ => rfl
  | label =>
    refine eq_plain_bind rfl fun target before placed => ?_
    have same : e = before := (EStateM.Result.ok.inj placed).2
    refine eq_plain_bind rfl fun x _ named => ?_
    obtain ⟨_, rfl⟩ := nameOf_ok named
    refine eq_plain_bind (guardedEntry_eq (same ▸ small) x _ Nat.one_le_two_pow) fun entry e' _ => ?_
    exact guardedOnData_eq (Memory.guardedStore_eq _ _ _)
  | declare =>
    refine eq_plain_bind rfl fun greatest _ numbered => ?_
    obtain ⟨n, _, rfl, rfl⟩ := subscriptOf_ok numbered
    refine eq_plain_bind rfl fun frame _ popped => ?_
    obtain ⟨rest, _, rfl⟩ := popFrame_ok popped
    cases frame with
    | branch place => rfl
    | value v =>
      cases v with
      | int | real => rfl
      | text name =>
        -- The subscript is an integer of 64 bits with its sign, so one more is still a word.
        have bound := n.toInt_lt
        have most : n.toInt.toNat + 1 ≤ 2 ^ 63 := by omega
        dsimp only
        rw [sum_of_lt (by omega)]
        change (guardedEntry name .array (n.toInt.toNat + 1) >>= fun _ => pure ()) _ = _
        exact eq_plain_bind (guardedEntry_eq (by exact small) name .array most) fun _ _ _ => rfl

theorem Packed.guardedRoutine_eq (packed : e.Packed) (action : Symbol) (last : Option Token) :
    guardedRoutine action last e = plain (routine action last) e := by
  obtain ⟨labels, settled⟩ := packed.settled
  have small : e.program.data.cells.size ≤ Memory.defaultCapacity := packed.capacity ▸ settled.fits
  refine eq_plain_bind rfl fun _ _ got => ?_
  cases got
  split
  · cases Duty.ofName? action with
    | none => rfl
    | some duty => exact guardedPerform_eq small action last duty
  · rfl

end Emitter

namespace Automaton

variable {ε σ ω : Type} {g : Grammar} {routine : Routine σ ε} {guarded : Routine σ (Halt ε)}

theorem Config.cycle_guarded {c : Config σ}
    (same : ∀ a last, guarded a last c.work = plain (routine a last) c.work) :
    cycle g guarded c = plain (cycle g routine) c := by
  obtain ⟨stack, source, current, last, state, work⟩ := c
  simp only [plain, EStateM.adaptExcept] at same
  simp only [cycle, plain, EStateM.adaptExcept, same]
  cases stack with
  | nil => rfl
  | cons top rest =>
    dsimp only
    split
    · split <;> rfl
    · cases g.kind? top with
      | none => rfl
      | some kind =>
        cases kind with
        | nonterminal =>
          dsimp only
          split <;> rfl
        | terminal =>
          dsimp only
          split <;> rfl
        | action =>
          dsimp only
          cases routine top last work <;> rfl

theorem Config.cycle_keeps {keeps : σ → Prop}
    (kept : ∀ a last work work', keeps work → routine a last work = .ok () work' → keeps work')
    {c next : Config σ} {result : Step} (start : keeps c.work)
    (cycled : cycle g routine c = .ok result next) : keeps next.work := by
  have effect := cycle_effect g routine c
  rw [cycled] at effect
  cases effect with
  | rejected | accepted | expanded | matched => exact start
  | performed _ _ _ done => exact kept _ _ _ _ start done

/-- A run of guarded actions is one of the plain actions, as long as every action keeps what makes both do
the same. -/
theorem Watched.run_guarded (observer : Observer σ ω) (keeps : σ → Prop)
    (same : ∀ a last work, keeps work → guarded a last work = plain (routine a last) work)
    (kept : ∀ a last work work', keeps work → routine a last work = .ok () work' → keeps work')
    (budget : Nat) (w : Watched σ ω) (start : keeps w.config.work) :
    Watched.run g guarded observer budget w = plain (Watched.run g routine observer budget) w := by
  induction budget generalizing w with
  | zero => rfl
  | succ budget ih =>
    refine eq_plain_bind rfl fun _ _ got => ?_
    cases got
    by_cases running : w.config.state = .running
    · rw [if_pos running, if_pos running]
      have cycled := Config.cycle_guarded (g := g) fun a last => same a last w.config.work start
      refine eq_plain_bind ?_ fun result next stepped => ?_
      · simp only [Watched.step, Config.step, running, cycled, plain, EStateM.adaptExcept]
        cases Config.cycle g routine w.config <;> rfl
      · refine ih next ?_
        simp only [Watched.step, Config.step, running] at stepped
        cases cycled : Config.cycle g routine w.config with
        | error e c =>
          rw [cycled] at stepped
          cases stepped
        | ok _ c =>
          rw [cycled] at stepped
          cases stepped
          exact Config.cycle_keeps kept start cycled
    · rw [if_neg running, if_neg running]
      rfl

end Automaton

theorem Emission.start_packed {g : Grammar} {tokens : List Token} {trace : Option (Array String)}
    {run : Emission.Run} (started : Emission.start g tokens trace = .ok run) :
    run.config.work.Packed := by
  unfold Emission.start at started
  cases made : Emitter.forScheme g with
  | error e =>
    rw [made] at started
    cases started
  | ok emitter =>
    rw [made] at started
    cases started
    exact (Emitter.packed_of_forScheme made).1

theorem Compiler.start_packed {g : Grammar} {source : String} {trace : Option (Array String)}
    {run : Emission.Run} (started : Compiler.start g source trace = .ok run) :
    run.config.work.Packed := by
  unfold Compiler.start at started
  cases scanned : Token.scan source with
  | error e =>
    rw [scanned] at started
    cases started
  | ok tokens =>
    rw [scanned] at started
    cases begun : Emission.start g tokens trace with
    | error e =>
      simp only [begun, Except.mapError, bind, Except.bind] at started
      cases started
    | ok first =>
      simp only [begun, Except.mapError, bind, Except.bind] at started
      cases started
      exact Emission.start_packed begun

open Emitter Machine
open Grammar (programScheme)

/-- Nothing that is computed goes out of range. Whatever the source text is and however far its translation is
followed, it goes under guard as it goes without. So does a step of a machine in every state that it can come
to, and the look at the next instruction for the trace. -/
theorem computations_stay_in_range :
    (∀ (g : Grammar) (source : String) (trace : Option (Array String)) (run : Emission.Run),
      Compiler.start g source trace = .ok run → ∀ budget,
        Watched.run g guardedRoutine tracer budget run = plain (Emission.advance g budget) run) ∧
    ∀ program : Program, program.InWords → ∀ (input : Input) (output : Output) (m : Machine),
      Reachable (load program input output) m →
        guardedStep m = plain step m ∧ m.guardedUpcoming = .ok m.upcoming := by
  constructor
  · intro g source trace run started budget
    apply Watched.run_guarded tracer Emitter.Packed
    · intro action last e packed
      exact packed.guardedRoutine_eq action last
    · intro action last e e' packed done
      obtain ⟨duty, _, performed⟩ := performed_of_routine done
      exact (packed.performed performed).1
    · exact Compiler.start_packed started
  · intro program words input output m reachable
    have inWords := reachable.inWords (load_inWords words input output)
    exact ⟨inWords.guardedStep_eq, guardedUpcoming_eq inWords.code_size inWords.counter⟩

/-- A declaration with the greatest subscript that can be written. -/
def vastArray : String := "declare x(9223372036854775807);"

def vastArrayTokens : List Token :=
  [.symbol "$declare", .identifier "x", .symbol "(", .integer 9223372036854775807, .symbol ")",
   .symbol ";"]

/-- A jump to a given address. -/
def leap (target : Nat) : Program where
  code := #[.opcode .jumpTo, .address target]

theorem leap_inWords {target : Nat} (word : target < 2 ^ 64) : (leap target).InWords := by
  constructor
  · norm_num [leap]
  · intro c member
    have either : c = .opcode .jumpTo ∨ c = .address target := by simpa [leap] using member
    rcases either with rfl | rfl
    · trivial
    · exact word
  · intro c member
    exact absurd member (Array.not_mem_empty c)

theorem computations_stay_in_range_extremes :
    (∃ run w, Compiler.start programScheme vastArray none = .ok run ∧
      Watched.run programScheme guardedRoutine tracer 10 run =
        .error (.error (.memory .outOfMemory)) w) ∧
    ∀ target ∈ [0, 18446744073709551615], (leap target).InWords ∧
      ∃ m, Reachable (load (leap target) .none .ignored) m ∧ m.counter = target ∧
        guardedStep m = .error (.error ⟨target, .outsideCode⟩) { m with running := false } ∧
        m.guardedUpcoming = .ok "?" := by
  obtain ⟨translates, executes⟩ := computations_stay_in_range
  constructor
  · have scanned : Token.scan vastArray = .ok vastArrayTokens := by cbv
    have started := compiler_start scanned none
    have full : ∃ w, Emission.advance programScheme 10 ⟨.init programScheme
        (.ofTokens vastArrayTokens) { actions := programScheme.actions }, none⟩ =
          .error (.memory .outOfMemory) w := ⟨_, rfl⟩
    obtain ⟨w, full⟩ := full
    refine ⟨_, w, started, ?_⟩
    rw [translates _ _ _ _ started 10, plain, EStateM.adaptExcept, full]
  · intro target extreme
    have word : target < 2 ^ 64 := by
      rcases List.mem_pair.mp extreme with rfl | rfl <;> norm_num
    have words := leap_inWords word
    have reachable : Reachable (load (leap target) .none .ignored)
        { load (leap target) .none .ignored with counter := target } := .step .start
    obtain ⟨stepped, shown⟩ := executes _ words .none .ignored _ reachable
    refine ⟨words, _, reachable, rfl, ?_, ?_⟩
    · rcases List.mem_pair.mp extreme with rfl | rfl <;> exact stepped.trans rfl
    · rcases List.mem_pair.mp extreme with rfl | rfl <;> exact shown.trans rfl

end Pushdown
