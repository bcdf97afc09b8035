import Pushdown.Proofs.Compilation

/-! What actions do to an emitter, one duty after another, and what they keep along a run: the names of
the table have cells of their own, and these are unset but for the names that were made labels, whose
cells hold the place that was next in the code when this was done last. -/
namespace Pushdown

open Automaton Emitter Grammar Token

namespace Emitter

/-- The emitter with further code. -/
def writing (e : Emitter) (cells : List Cell) : Emitter :=
  { e with program := cells.foldl Program.emit e.program }

/-- All that a duty does if it does not fail. -/
inductive Performed (e : Emitter) (last : Option Token) : Duty → Emitter → Prop
  | emit {op : Opcode} : Performed e last (.emit op) (e.writing [.opcode op])
  | lastValue {v : Value} : last.bind Token.value = some v →
      Performed e last .lastValue (e.writing [.ofValue v])
  | address {x : String} {entry : Entry} {e' : Emitter} : last.bind Token.value = some (.text x) →
      Entered e x .scalar 1 (.ok entry e') →
      Performed e last .address (e'.writing [.address entry.address])
  | goto {x : String} {entry : Entry} {e' : Emitter} : last.bind Token.value = some (.text x) →
      Entered e x .label 1 (.ok entry e') →
      Performed e last .goto (e'.writing
        [.opcode .literal, .address entry.address, .opcode .loadAt, .opcode .jump])
  | label {x : String} {entry : Entry} {e' : Emitter} : last.bind Token.value = some (.text x) →
      Entered e x .label 1 (.ok entry e') →
      Performed e last .label { e' with program := { e'.program with
        data := e'.program.data.put entry.address (.address e.program.nextIndex) } }
  | push {v : Value} : last.bind Token.value = some v →
      Performed e last .push { e with frames := .value v :: e.frames }
  | declare {n : Int64} {x : String} {rest : Stack Frame} {entry : Entry} {e' : Emitter} :
      last.bind Token.value = some (.int n) → e.frames = .value (.text x) :: rest →
      Entered { e with frames := rest } x .array (n.toInt.toNat + 1) (.ok entry e') →
      Performed e last .declare e'
  | beginIf : Performed e last .beginIf e.branching
  | endIf {place : Nat} {rest : Stack Frame} : e.frames = .branch place :: rest →
      Performed e last .endIf { e with
        frames := rest, program := (e.program.patch place (.address e.program.nextIndex)).2 }

theorem valueOf_ok {action : Symbol} {last : Option Token} {e e' : Emitter} {v : Value}
    (done : valueOf action last e = .ok v e') : last.bind Token.value = some v ∧ e' = e := by
  unfold valueOf at done
  cases value : last.bind Token.value with
  | none =>
    rw [value] at done
    cases done
  | some _ =>
    rw [value] at done
    cases done
    exact ⟨rfl, rfl⟩

theorem nameOf_ok {action : Symbol} {last : Option Token} {e e' : Emitter} {x : String}
    (done : nameOf action last e = .ok x e') :
    last.bind Token.value = some (.text x) ∧ e' = e := by
  obtain ⟨v, _, valued, done⟩ := bind_eq_ok done
  obtain ⟨value, rfl⟩ := valueOf_ok valued
  cases v with
  | text y =>
    cases done
    exact ⟨value, rfl⟩
  | int n => cases done
  | real r => cases done

theorem subscriptOf_ok {action : Symbol} {last : Option Token} {e e' : Emitter} {greatest : Nat}
    (done : subscriptOf action last e = .ok greatest e') :
    ∃ n, last.bind Token.value = some (.int n) ∧ greatest = n.toInt.toNat ∧ e' = e := by
  obtain ⟨v, _, valued, done⟩ := bind_eq_ok done
  obtain ⟨value, rfl⟩ := valueOf_ok valued
  cases v with
  | int n =>
    dsimp only at done
    split at done
    · cases done
      exact ⟨n, value, rfl, rfl⟩
    · cases done
  | text y => cases done
  | real r => cases done

theorem popFrame_ok {action : Symbol} {e e' : Emitter} {frame : Frame}
    (done : popFrame action e = .ok frame e') :
    ∃ rest, e.frames = frame :: rest ∧ e' = { e with frames := rest } := by
  obtain ⟨actions, symbols, program, frames⟩ := e
  cases frames with
  | nil => cases done
  | cons top rest =>
    cases done
    exact ⟨rest, rfl, rfl⟩

theorem entered_of_ok {x : String} {kind : StorageKind} {size : Nat} {e e' : Emitter} {entry : Entry}
    (done : Emitter.entry x kind size e = .ok entry e') : Entered e x kind size (.ok entry e') :=
  done ▸ entry_entered e x kind size

theorem performed_of_ok {action : Symbol} {last : Option Token} {duty : Duty} {e e' : Emitter}
    (done : perform action last duty e = .ok () e') : Performed e last duty e' := by
  cases duty with
  | emit op =>
    cases done
    exact .emit
  | lastValue =>
    obtain ⟨v, _, valued, written⟩ := bind_eq_ok done
    obtain ⟨value, rfl⟩ := valueOf_ok valued
    cases written
    exact .lastValue value
  | address =>
    obtain ⟨x, _, named, entering⟩ := bind_eq_ok done
    obtain ⟨value, rfl⟩ := nameOf_ok named
    obtain ⟨entry, _, entered, written⟩ := bind_eq_ok entering
    cases written
    exact .address value (entered_of_ok entered)
  | goto =>
    obtain ⟨x, _, named, entering⟩ := bind_eq_ok done
    obtain ⟨value, rfl⟩ := nameOf_ok named
    obtain ⟨entry, _, entered, written⟩ := bind_eq_ok entering
    cases written
    exact .goto value (entered_of_ok entered)
  | label =>
    obtain ⟨_, _, ⟨⟩, naming⟩ := bind_eq_ok done
    obtain ⟨x, _, named, entering⟩ := bind_eq_ok naming
    obtain ⟨value, rfl⟩ := nameOf_ok named
    obtain ⟨entry, e₁, entered, stored⟩ := bind_eq_ok entering
    rw [onData_store] at stored
    split at stored
    · cases stored
    · cases stored
      exact .label value (entered_of_ok entered)
  | push =>
    obtain ⟨v, _, valued, pushed⟩ := bind_eq_ok done
    obtain ⟨value, rfl⟩ := valueOf_ok valued
    cases pushed
    exact .push value
  | declare =>
    obtain ⟨greatest, _, numbered, popping⟩ := bind_eq_ok done
    obtain ⟨n, value, rfl, rfl⟩ := subscriptOf_ok numbered
    obtain ⟨frame, _, popped, entering⟩ := bind_eq_ok popping
    obtain ⟨rest, frames, rfl⟩ := popFrame_ok popped
    split at entering
    · obtain ⟨entry, _, entered, ⟨⟩⟩ := bind_eq_ok entering
      exact .declare value frames (entered_of_ok entered)
    · cases entering
    · cases entering
  | beginIf =>
    cases done
    exact .beginIf
  | endIf =>
    obtain ⟨frame, _, popped, patched⟩ := bind_eq_ok done
    obtain ⟨rest, frames, rfl⟩ := popFrame_ok popped
    split at patched
    · cases patched
      exact .endIf frames
    · cases patched

theorem performed_of_routine {action : Symbol} {last : Option Token} {e e' : Emitter}
    (done : Emitter.routine action last e = .ok () e') :
    ∃ duty, Duty.ofName? action = some duty ∧ Performed e last duty e' := by
  rw [Emitter.routine, bind_get] at done
  split at done
  · cases known : Duty.ofName? action with
    | none =>
      rw [known] at done
      cases done
    | some duty =>
      rw [known] at done
      exact ⟨duty, rfl, performed_of_ok done⟩
  · cases done

end Emitter

/-- The label that a duty defines, at the next place of the code. -/
def Duty.labels (last : Option Token) (place : Nat) : Duty → List (String × Nat)
  | .label =>
    match last.bind Token.value with
    | some (.text x) => [(x, place)]
    | _ => []
  | _ => []

theorem Duty.labels_of_ne {duty : Duty} (other : duty ≠ .label) (last : Option Token) (place : Nat) :
    duty.labels last place = [] := by
  cases duty with
  | label => exact absurd rfl other
  | emit | lastValue | address | goto | push | declare | beginIf | endIf => rfl

namespace Emitter

variable {e e' : Emitter} {labels : List (String × Nat)}

theorem Entered.settled {x : String} {kind : StorageKind} {size : Nat} {entry : Entry}
    (entered : Entered e x kind size (.ok entry e')) (positive : 0 < size)
    (settled : e.Settled labels) :
    e'.Settled labels ∧ e'.symbols.find? x = some entry ∧ e'.program.code = e.program.code := by
  cases entered with
  | known found => exact ⟨settled, found, rfl⟩
  | reserved fresh room => exact ⟨settled.reserved fresh positive room, find?_reserved fresh, rfl⟩

theorem writing_data (e : Emitter) (cells : List Cell) :
    (e.writing cells).program.data = e.program.data := by
  induction cells generalizing e with
  | nil => rfl
  | cons cell cells ih => exact ih { e with program := e.program.emit cell }

theorem Settled.writing (settled : e.Settled labels) (cells : List Cell) :
    (e.writing cells).Settled labels :=
  settled.of_code rfl (writing_data e cells)

/-- What a duty keeps of the table and the memory. -/
theorem Settled.performed {last : Option Token} {duty : Duty} (settled : e.Settled labels)
    (performed : Performed e last duty e') :
    e'.Settled (labels ++ duty.labels last e'.program.nextIndex) := by
  by_cases isLabel : duty = .label
  · subst isLabel
    cases performed with
    | @label _ _ e₁ value entered =>
      obtain ⟨settled, found, code⟩ := entered.settled Nat.one_pos settled
      have next : e₁.program.nextIndex = e.program.nextIndex := by simp only [Program.nextIndex, code]
      simp only [Duty.labels, value, ← next]
      exact settled.label found _
  · rw [Duty.labels_of_ne isLabel, List.append_nil]
    cases performed with
    | emit | lastValue => exact settled.writing _
    | address _ entered => exact (entered.settled Nat.one_pos settled).1.writing _
    | goto _ entered => exact (entered.settled Nat.one_pos settled).1.writing _
    | label => exact absurd rfl isLabel
    | push | beginIf => exact settled.of_code rfl rfl
    | @declare _ _ rest _ _ _ _ entered =>
      have popped : Settled { e with frames := rest } labels := settled.of_code rfl rfl
      exact (entered.settled (Nat.succ_pos _) popped).1
    | endIf =>
      refine settled.of_code rfl ?_
      unfold Program.patch
      split <;> rfl

end Emitter

/-- Notes the labels that a run defines, in order. -/
def labeller : Observer Emitter (List (String × Nat)) := fun step c labels =>
  match step with
  | .performed a =>
    labels ++ ((Duty.ofName? a).map (Duty.labels c.last c.work.program.nextIndex)).getD []
  | _ => labels

theorem settled_cycle {g : Grammar} (c : Config Emitter) (labels : List (String × Nat))
    (_ : c.state = .running) (settled : c.work.Settled labels) :
    Meets (fun step c' => c'.work.Settled (labeller step c' labels)) (fun _ => True)
      (Config.cycle g Emitter.routine c) := by
  have effect := Config.cycle_effect g Emitter.routine c
  generalize Config.cycle g Emitter.routine c = result at effect
  cases effect with
  | rejected | accepted | expanded | matched => exact settled
  | performed _ _ _ done =>
    obtain ⟨duty, known, performed⟩ := performed_of_routine done
    simp only [Meets, labeller, known]
    exact settled.performed performed
  | failed => trivial

/-- The labels that are defined while a text is compiled, within a budget of steps. -/
def Compiler.labelled (g : Grammar) (text : String) (budget : Nat) : List (String × Nat) :=
  match start g text none with
  | .error _ => []
  | .ok run =>
    match Watched.run g Emitter.routine labeller budget ⟨run.config, []⟩ with
    | .ok _ w | .error _ w => w.notes

theorem compile_labelled {text : String} {budget : Nat} {emission : Emission}
    (compiled : Compiler.compile programScheme text budget = some (.ok emission)) :
    ∃ tokens final, scan text = .ok tokens ∧
      Config.run programScheme Emitter.routine budget
        (.init programScheme (.ofTokens tokens) { actions := programScheme.actions }) = .ok () final ∧
      final.state = .accepted ∧ emission.symbols = final.work.symbols ∧
      emission.program = final.work.program ∧
      final.work.Settled (Compiler.labelled programScheme text budget) := by
  obtain ⟨tokens, final, scanned, done, accepted, symbols, program⟩ := compile_run compiled
  obtain ⟨labels, ran, settled⟩ := Watched.exists_notes labeller settled_cycle
    (settled_empty programScheme.actions) done
  refine ⟨tokens, final, scanned, done, accepted, symbols, program, ?_⟩
  simp only [Compiler.labelled, compiler_start scanned, ran]
  exact settled

end Pushdown
