import Pushdown.Emitter.Basic
import Pushdown.Proofs.Runs
import Pushdown.Proofs.Syntax

/-! What the parts of a program make an emitter do. Every tree has an action of its own; leaves perform
it if replaying them, after whatever token, comes to the same. -/
namespace Pushdown

open Automaton Token

theorem bind_eq_ok {ε σ α β : Type} {x : EStateM ε σ α} {f : α → EStateM ε σ β} {s t : σ} {b : β}
    (done : (x >>= f) s = .ok b t) : ∃ a r, x s = .ok a r ∧ f a r = .ok b t := by
  simp only [bind, EStateM.bind] at done
  split at done
  · exact ⟨_, _, ‹_›, done⟩
  · cases done

theorem bind_eq_error {ε σ α β : Type} {x : EStateM ε σ α} {f : α → EStateM ε σ β} {s t : σ} {e : ε}
    (failed : (x >>= f) s = .error e t) :
    x s = .error e t ∨ ∃ a r, x s = .ok a r ∧ f a r = .error e t := by
  simp only [bind, EStateM.bind] at failed
  split at failed
  · exact .inr ⟨_, _, ‹_›, failed⟩
  · cases failed
    exact .inl ‹_›

def Arithmetic.opcode : Arithmetic → Opcode
  | .add => .add
  | .sub => .sub
  | .mul => .mul
  | .div => .div

def Logic.opcode : Logic → Opcode
  | .eq => .eq
  | .ne => .ne
  | .lt => .lt
  | .le => .le
  | .gt => .gt
  | .ge => .ge
  | .and => .and
  | .or => .or

namespace Emitter

/-- The routine of an action symbol that is permitted. -/
def permitted : Routine Emitter EmitError := fun action last =>
  match Duty.ofName? action with
  | some duty => perform action last duty
  | none => throw (.unknownAction action)

theorem pushFrame_popFrame {α : Type} (frame : Frame) (action : Symbol) (rest : Frame → Action α) :
    (do pushFrame frame; let top ← popFrame action; rest top) = rest frame := by
  funext e
  rfl

/-- A jump through the cell of a name. -/
def goto (x : String) : Action Unit := do
  let entry ← entry x .label 1
  emit (.opcode .literal)
  emit (.address entry.address)
  emit (.opcode .loadAt)
  emit (.opcode .jump)

/-- The next place of the code, put into the cell of a name. -/
def label (x : String) : Action Unit := do
  let target ← here
  let entry ← entry x .label 1
  onData (Memory.store entry.address (.address target))

def beginIf : Action Unit := perform "@begin_if" none .beginIf

def endIf : Action Unit := perform "@end_if" none .endIf

end Emitter

open Emitter

def Expr.emit : Expr → Emitter.Action Unit
  | .literal n => do
    Emitter.emit (.opcode .literal)
    Emitter.emit (.int n)
  | .address x => do
    Emitter.emit (.opcode .literal)
    let entry ← entry x .scalar 1
    Emitter.emit (.address entry.address)
  | .fetch place => do
    place.emit
    Emitter.emit (.opcode .loadAt)
  | .negate e => do
    e.emit
    Emitter.emit (.opcode .neg)
  | .combine op l r => do
    l.emit
    r.emit
    Emitter.emit (.opcode op.opcode)

def Condition.emit (c : Condition) : Emitter.Action Unit := do
  c.left.emit
  c.right.emit
  Emitter.emit (.opcode c.relation.opcode)

/-- An item of an output statement. -/
def Expr.emitItem (e : Expr) : Emitter.Action Unit := do
  e.emit
  Emitter.emit (.opcode .output)

/-- A target of an input statement. -/
def Expr.emitTarget (p : Expr) : Emitter.Action Unit := do
  p.emit
  Emitter.emit (.opcode .input)
  Emitter.emit (.opcode .storeAt)

mutual

def Statement.emit : Statement → Emitter.Action Unit
  | .assign target value => do
    target.emit
    value.emit
    Emitter.emit (.opcode .storeAt)
  | .put items => items.forM Expr.emitItem
  | .get targets => targets.forM Expr.emitTarget
  | .stop => Emitter.emit (.opcode .quit)
  | .goto x => Emitter.goto x
  | .branch c body => do
    c.emit
    beginIf
    body.emit
    endIf
  | .group body => Statement.emitAll body
  | .labelled x body => do
    Emitter.label x
    body.emit

def Statement.emitAll : List Statement → Emitter.Action Unit
  | [] => pure ()
  | s :: rest => do
    s.emit
    Statement.emitAll rest

end

def Declaration.emit (d : Declaration) : Emitter.Action Unit := do
  let _ ← entry d.name .array (d.greatest.toInt.toNat + 1)

def Source.emit (s : Source) : Emitter.Action Unit := do
  s.declarations.forM Declaration.emit
  Statement.emitAll s.statements
  Emitter.emit (.opcode .quit)

/-- Replaying the leaves is an action of the emitter, and leaves some token as the last one. -/
def Performs (leaves : List Leaf) (act : Emitter.Action Unit) : Prop :=
  ∀ last, ∃ last', replay permitted leaves last = (do act; pure last')

namespace Performs

variable {l r : List Leaf} {act next : Emitter.Action Unit}

theorem nil : Performs [] (pure ()) := fun last => ⟨last, by simp [replay]⟩

theorem append (first : Performs l act) (second : Performs r next) :
    Performs (l ++ r) (do act; next) := by
  intro last
  obtain ⟨middle, first⟩ := first last
  obtain ⟨final, second⟩ := second middle
  refine ⟨final, ?_⟩
  simp [replay_append, first, second]

theorem token (t : Token) (performs : Performs l act) : Performs (.token t :: l) act := by
  intro last
  exact performs (some t)

theorem emit {a : Symbol} {op : Opcode} (duty : Duty.ofName? a = some (.emit op)) :
    Performs [.action a] (Emitter.emit (.opcode op)) := by
  intro last
  exact ⟨last, by simp [replay, permitted, duty, perform]⟩

theorem literal (n : Int64) :
    Performs [.token (integer n), .action "@lit", .action "@last_token_val"]
      (Expr.literal n).emit := by
  intro last
  refine ⟨some (integer n), ?_⟩
  simp [replay, permitted, Duty.ofName?, perform, Expr.emit, valueOf, integer, Cell.ofValue]

theorem address (x : String) :
    Performs [.token (identifier x), .action "@lit", .action "@address_last_token_val"]
      (Expr.address x).emit := by
  intro last
  refine ⟨some (identifier x), ?_⟩
  simp [replay, permitted, Duty.ofName?, perform, Expr.emit, nameOf, valueOf, identifier]

theorem goto (x : String) :
    Performs [.token (identifier x), .action "@goto"] (Emitter.goto x) := by
  intro last
  refine ⟨some (identifier x), ?_⟩
  simp [replay, permitted, Duty.ofName?, perform, nameOf, valueOf, identifier, Emitter.goto]

theorem label (x : String) :
    Performs [.token (identifier x), .action "@label"] (Emitter.label x) := by
  intro last
  have performed : perform "@label" (some (identifier x)) .label = Emitter.label x := rfl
  refine ⟨some (identifier x), ?_⟩
  simp [replay, permitted, Duty.ofName?, performed]

theorem beginIf : Performs [.action "@begin_if"] Emitter.beginIf := by
  intro last
  exact ⟨last, by simp [replay, permitted, Duty.ofName?, Emitter.beginIf, perform]⟩

theorem endIf : Performs [.action "@end_if"] Emitter.endIf := by
  intro last
  exact ⟨last, by simp [replay, permitted, Duty.ofName?, Emitter.endIf, perform]⟩

theorem declare (x : String) (n : Int64) (positive : 0 ≤ n) :
    Performs [.token (identifier x), .action "@push", .token (symbol "("), .token (integer n),
      .action "@declare", .token (symbol ")")] (Declaration.emit ⟨x, n⟩) := by
  intro last
  refine ⟨some (symbol ")"), ?_⟩
  simp [replay, permitted, Duty.ofName?, perform, Declaration.emit, subscriptOf, valueOf, integer,
    identifier, positive, pushFrame_popFrame]

end Performs

end Pushdown
