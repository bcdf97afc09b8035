import Pushdown.Proofs.Execution
import Pushdown.Proofs.Memory
import Pushdown.Proofs.Numerals

/-! Machines on like cells. No instruction tells an address from the integer of the same number. So two
machines whose cells differ in that way only go through the same steps, print the same lines, and end
or fault together. The cells may be related more narrowly, as long as the relation holds for what the
instructions compute; relating each cell to itself gives what a run keeps of one machine. -/
namespace Pushdown

/-- Both give results that are related, or both fail with the same message. -/
inductive Agree {α ε : Type} (r : α → α → Prop) (message : ε → String) :
    Except ε α → Except ε α → Prop
  | ok {a b : α} (related : r a b) : Agree r message (.ok a) (.ok b)
  | error {e f : ε} (same : message e = message f) : Agree r message (.error e) (.error f)

namespace Agree

variable {α β ε ζ : Type} {r : α → α → Prop} {s : β → β → Prop} {message : ε → String}
  {wording : ζ → String} {x y : Except ε α}

theorem map {f : α → β} (agree : Agree r message x y) (related : ∀ a b, r a b → s (f a) (f b)) :
    Agree s message (x.map f) (y.map f) := by
  cases agree with
  | ok found => exact .ok (related _ _ found)
  | error same => exact .error same

theorem mapError {wrap : ε → ζ} (agree : Agree r message x y)
    (worded : ∀ e, wording (wrap e) = message e) :
    Agree r wording (x.mapError wrap) (y.mapError wrap) := by
  cases agree with
  | ok related => exact .ok related
  | error same => exact .error (by rw [worded, worded, same])

theorem refl (x : Except ε α) : Agree Eq message x x := by
  cases x with
  | ok a => exact .ok rfl
  | error e => exact .error rfl

theorem refl_map {f : α → β} (x : Except ε α) (related : ∀ a, s (f a) (f a)) :
    Agree s message (x.map f) (x.map f) :=
  (refl x).map fun a _ same => same ▸ related a

end Agree

/-- Arithmetic on anything but two texts is arithmetic on numbers. -/
theorem Arithmetic.apply_eq (op : Arithmetic) {lhs rhs : Cell}
    (apart : ∀ l r, lhs = .text l → rhs ≠ .text r) :
    op.apply lhs rhs = match Number.ofCell? lhs, Number.ofCell? rhs with
      | some l, some r => op.onNumbers l r
      | _, _ => .error (.mismatch op.deed lhs rhs) := by
  unfold apply
  split
  · exact absurd rfl (apart _ _ rfl)
  · rfl

namespace Cell

/-- Cells that no instruction tells apart: a place is given as an address, or as the integer of the
same number. -/
inductive Kin : Cell → Cell → Prop
  | refl (c : Cell) : Kin c c
  | place {a : Nat} (positive : 0 < a) (fits : a < 2 ^ 63) : Kin (.address a) (.int (Int64.ofNat a))

namespace Kin

variable {c d c' d' : Cell}

theorem render_eq (kin : Kin c d) : c.render = d.render := by
  cases kin with
  | refl => rfl
  | place positive fits => simp only [render, Numeral.writeInt64_ofNat fits]

theorem ofCell?_eq (kin : Kin c d) : Number.ofCell? c = Number.ofCell? d := by
  cases kin <;> rfl

theorem toInt_place {a : Nat} (fits : a < 2 ^ 63) : (Int64.ofNat a).toInt = a :=
  Int64.toInt_ofNat_of_lt fits

theorem holds_eq (kin : Kin c d) : c.holds = d.holds := by
  cases kin with
  | refl => rfl
  | place positive fits =>
    have number := toInt_place fits
    refine (bne_iff_ne.mpr fun isZero => ?_).symm
    rw [isZero] at number
    simp at number
    omega

theorem location_eq (kin : Kin c d) : Machine.location c = Machine.location d := by
  cases kin with
  | refl => rfl
  | @place a positive fits =>
    have number := toInt_place fits
    have isPositive : 0 < Int64.ofNat a := by
      rw [Int64.lt_iff_toInt_lt, number]
      simpa using positive
    simp only [Machine.location, isPositive, if_true, number, Int.toNat_natCast]

theorem eq_of_text {s : String} (kin : Kin c d) (isText : c = .text s ∨ d = .text s) : c = d := by
  cases kin with
  | refl => rfl
  | place => rcases isText with isText | isText <;> cases isText

theorem mismatch_message (left : Kin c d) (right : Kin c' d') (deed : Deed) :
    (OperandError.mismatch deed c c').message = (OperandError.mismatch deed d d').message := by
  simp only [OperandError.message, left.render_eq, right.render_eq]

theorem equal_eq (left : Kin c d) (right : Kin c' d') : c.equal c' = d.equal d' := by
  cases left with
  | refl =>
    cases right with
    | refl => rfl
    | place => cases c <;> rfl
  | place =>
    cases right with
    | refl => cases c' <;> rfl
    | place => rfl

theorem compare_agree (left : Kin c d) (right : Kin c' d') :
    Agree Eq OperandError.message (c.compare c') (d.compare d') := by
  have mismatch := mismatch_message left right .compare
  cases left with
  | refl =>
    cases right with
    | refl => exact .refl _
    | place =>
      cases c with
      | int | real | address => exact .ok rfl
      | opcode | text | unset => exact .error mismatch
  | place =>
    cases right with
    | refl =>
      cases c' with
      | int | real | address => exact .ok rfl
      | opcode | text | unset => exact .error mismatch
    | place => exact .ok rfl

theorem logic_agree (op : Logic) (left : Kin c d) (right : Kin c' d') :
    Agree Eq OperandError.message (op.apply c c') (op.apply d d') := by
  cases op with
  | eq | ne => exact .ok (by rw [left.equal_eq right])
  | and | or => exact .ok (by rw [left.holds_eq, right.holds_eq])
  | lt | le | gt | ge =>
    exact (left.compare_agree right).map fun order order' same => same ▸ rfl

end Kin

/-- A relation of kin cells that holds between what the instructions compute from related cells. Only
texts need not be related to themselves. -/
structure Congruence (R : Cell → Cell → Prop) : Prop where
  kin : ∀ {c d}, R c d → Kin c d
  plain : ∀ {c}, (∀ s, c ≠ .text s) → R c c
  join : ∀ {l r}, R (.text l) (.text l) → R (.text r) (.text r) → R (.text (l ++ r)) (.text (l ++ r))

namespace Congruence

variable {R : Cell → Cell → Prop} {c d c' d' : Cell}

theorem int (congruence : Congruence R) (n : Int64) : R (.int n) (.int n) :=
  congruence.plain fun _ => Cell.noConfusion

theorem real (congruence : Congruence R) (x : Float) : R (.real x) (.real x) :=
  congruence.plain fun _ => Cell.noConfusion

theorem onNumbers (congruence : Congruence R) (op : Arithmetic) (l r : Number) :
    Agree R OperandError.message (op.onNumbers l r) (op.onNumbers l r) := by
  cases l with
  | int l =>
    cases r with
    | int r => exact .refl_map _ congruence.int
    | real r => exact .refl_map _ congruence.real
  | real l => exact .refl_map _ congruence.real

theorem arithmetic (congruence : Congruence R) (op : Arithmetic) (left : R c d) (right : R c' d') :
    Agree R OperandError.message (op.apply c c') (op.apply d d') := by
  have leftKin := congruence.kin left
  have rightKin := congruence.kin right
  -- Only two texts are not taken as numbers, and texts are kin to themselves alone.
  by_cases texts : ∃ l r, c = .text l ∧ c' = .text r
  · obtain ⟨l, r, rfl, rfl⟩ := texts
    cases leftKin
    cases rightKin
    cases op with
    | add => exact .ok (congruence.join left right)
    | sub | mul | div => exact .error rfl
  · have apart : ∀ l r, c = .text l → c' ≠ .text r := fun l r isText isText' =>
      texts ⟨l, r, isText, isText'⟩
    have apart' : ∀ l r, d = .text l → d' ≠ .text r := fun l r isText isText' =>
      apart l r ((leftKin.eq_of_text (.inr isText)).trans isText)
        ((rightKin.eq_of_text (.inr isText')).trans isText')
    rw [op.apply_eq apart, op.apply_eq apart', leftKin.ofCell?_eq, rightKin.ofCell?_eq]
    split
    · exact congruence.onNumbers op _ _
    · exact .error (leftKin.mismatch_message rightKin _)

theorem negate (congruence : Congruence R) (related : R c d) :
    Agree R OperandError.message c.negate d.negate := by
  have kin := congruence.kin related
  unfold Cell.negate
  rw [kin.ofCell?_eq]
  cases Number.ofCell? d with
  | none => exact .error (kin.mismatch_message (.refl _) _)
  | some number =>
    cases number with
    | int n => exact .ok (congruence.int _)
    | real x => exact .ok (congruence.real _)

theorem logic (congruence : Congruence R) (op : Logic) (left : R c d) (right : R c' d') :
    Agree R OperandError.message ((op.apply c c').map .ofBool) ((op.apply d d').map .ofBool) :=
  (Kin.logic_agree op (congruence.kin left) (congruence.kin right)).map fun _ _ same =>
    same ▸ congruence.int _

end Congruence

end Cell

/-- The same places hold cells, and cells at the same place are related. -/
def Cell.Aligned (R : Cell → Cell → Prop) (xs ys : Array Cell) : Prop :=
  ∀ i : Nat, Option.Rel R xs[i]? ys[i]?

namespace Cell.Aligned

variable {R : Cell → Cell → Prop} {xs ys : Array Cell}

theorem size_eq (aligned : Aligned R xs ys) : xs.size = ys.size := by
  have bounds (i : Nat) : xs.size ≤ i ↔ ys.size ≤ i := by
    have related := aligned i
    rw [← Array.getElem?_eq_none_iff, ← Array.getElem?_eq_none_iff]
    generalize xs[i]? = x at related ⊢
    generalize ys[i]? = y at related ⊢
    cases related <;> simp
  exact Nat.le_antisymm ((bounds _).mpr (Nat.le_refl _)) ((bounds _).mp (Nat.le_refl _))

theorem map_render_eq (congruence : Congruence R) (aligned : Aligned R xs ys) :
    xs.map render = ys.map render := by
  refine Array.ext_getElem? fun i => ?_
  have related := aligned i
  rw [Array.getElem?_map, Array.getElem?_map]
  generalize xs[i]? = x at related ⊢
  generalize ys[i]? = y at related ⊢
  cases related with
  | none => rfl
  | some related => exact congrArg some (congruence.kin related).render_eq

theorem map {f : Cell → Cell} (related : ∀ c ∈ xs, R c (f c)) : Aligned R xs (xs.map f) := by
  intro i
  rw [Array.getElem?_map]
  cases found : xs[i]? with
  | none => exact .none
  | some c => exact .some (related c (Array.mem_of_getElem? found))

theorem self (related : ∀ c ∈ xs, R c c) : Aligned R xs xs := by
  have aligned : Aligned R xs (xs.map id) := .map related
  rwa [Array.map_id] at aligned

theorem fetch? (aligned : Aligned R xs ys) (index : Nat) :
    Option.Rel R (Program.fetch? xs index) (Program.fetch? ys index) := by
  unfold Program.fetch?
  split
  · exact .none
  · exact aligned _

end Cell.Aligned

/-- Memories of the same capacity with related cells at the same addresses. -/
structure Memory.Like (R : Cell → Cell → Prop) (m n : Memory) : Prop where
  cells : Cell.Aligned R m.cells n.cells
  capacity : m.capacity = n.capacity

namespace Memory.Like

variable {R : Cell → Cell → Prop} {m n : Memory} {c d : Cell}

theorem load (like : Like R m n) (a : Nat) : Agree R MemoryError.message (m.load a) (n.load a) := by
  unfold Memory.load
  split
  · exact .error rfl
  · have related := like.cells (a - 1)
    generalize m.cells[a - 1]? = x at related ⊢
    generalize n.cells[a - 1]? = y at related ⊢
    cases related with
    | none => exact .error rfl
    | some related => exact .ok related

theorem refusal?_eq (like : Like R m n) (a : Nat) : m.refusal? a = n.refusal? a := by
  simp only [refusal?, like.capacity]

theorem put (congruence : Cell.Congruence R) (like : Like R m n) (related : R c d) {a : Nat}
    (positive : 0 < a) : Like R (m.put a c) (n.put a d) := by
  refine ⟨fun i => ?_, like.capacity⟩
  rw [getElem?_put m positive, getElem?_put n positive, like.cells.size_eq]
  split
  · exact .some related
  · split
    · exact like.cells i
    · split
      · exact .some (congruence.plain fun _ => Cell.noConfusion)
      · exact .none

end Memory.Like

theorem Output.write_eq (o : Output) {c d : Cell} (same : c.render = d.render) :
    o.write c = o.write d := by
  cases o with
  | printed lines => simp only [write, same]
  | ignored => rfl

/-- Faults at the same place with the same message. -/
def Fault.Like (f g : Fault) : Prop := f.counter = g.counter ∧ f.kind.message = g.kind.message

namespace Machine

open Cell (Congruence)

/-- Machines in the same state up to related cells. What is still to be read gives related cells. -/
structure Like (R : Cell → Cell → Prop) (m n : Machine) : Prop where
  code : Cell.Aligned R m.code n.code
  memory : m.memory.Like R n.memory
  stack : List.Forall₂ R m.stack n.stack
  counter : m.counter = n.counter
  running : m.running = n.running
  input : m.input = n.input
  output : m.output = n.output
  lines : ∀ line, .ok line ∈ m.input.pending →
    R (.ofDataWord (Text.strip line)) (.ofDataWord (Text.strip line))

/-- The same instruction with related operands. -/
structure Instruction.Like (R : Cell → Cell → Prop) (i j : Instruction) : Prop where
  op : i.op = j.op
  operand : R i.operand j.operand
  next : i.next = j.next

theorem decode_agree {R : Cell → Cell → Prop} (congruence : Congruence R) {code code' : Array Cell}
    (aligned : Cell.Aligned R code code') (counter : Nat) :
    Agree (Instruction.Like R) FaultKind.message (decode code counter) (decode code' counter) := by
  have here := aligned.fetch? counter
  have behind := aligned.fetch? (counter + 1)
  unfold decode
  generalize Program.fetch? code counter = x at here ⊢
  generalize Program.fetch? code' counter = y at here ⊢
  cases here with
  | none => exact .error rfl
  | @some c d related =>
    have worded : (FaultKind.unknownOpcode c).message = (FaultKind.unknownOpcode d).message :=
      congrArg (fun word => s!"Unknown opcode {word}") (congruence.kin related).render_eq
    cases congruence.kin related with
    | place => exact .error worded
    | refl =>
      cases c with
      | int | real | text | address | unset => exact .error worded
      | opcode op =>
        dsimp only
        split
        · generalize Program.fetch? code (counter + 1) = x at behind ⊢
          generalize Program.fetch? code' (counter + 1) = y at behind ⊢
          cases behind with
          | none => exact .error rfl
          | some operand => exact .ok ⟨rfl, operand, rfl⟩
        · exact .ok ⟨rfl, congruence.plain fun _ => Cell.noConfusion, rfl⟩

/-- Both succeed with related results, or both fail with related errors; in related states. -/
inductive Accord {α ε : Type} (r : α → α → Prop) (e : ε → ε → Prop) (s : Machine → Machine → Prop) :
    EStateM.Result ε Machine α → EStateM.Result ε Machine α → Prop
  | ok {a b : α} {m n : Machine} (related : r a b) (like : s m n) : Accord r e s (.ok a m) (.ok b n)
  | error {x y : ε} {m n : Machine} (same : e x y) (like : s m n) :
    Accord r e s (.error x m) (.error y n)

theorem Accord.mono {α ε : Type} {r : α → α → Prop} {e : ε → ε → Prop}
    {s s' : Machine → Machine → Prop} {x y : EStateM.Result ε Machine α} (accord : Accord r e s x y)
    (wider : ∀ m n, s m n → s' m n) : Accord r e s' x y := by
  cases accord with
  | ok related like => exact .ok related (wider _ _ like)
  | error same like => exact .error same (wider _ _ like)

theorem Accord.bind {α β ε : Type} {r : α → α → Prop} {r' : β → β → Prop} {e : ε → ε → Prop}
    {s : Machine → Machine → Prop} {act act' : EStateM ε Machine α} {rest rest' : α → EStateM ε Machine β}
    {m n : Machine} (first : Accord r e s (act m) (act' n))
    (second : ∀ a b m n, r a b → s m n → Accord r' e s (rest a m) (rest' b n)) :
    Accord r' e s ((act >>= rest) m) ((act' >>= rest') n) := by
  simp only [Bind.bind, EStateM.bind]
  generalize act m = x at first ⊢
  generalize act' n = y at first ⊢
  cases first with
  | ok related like => exact second _ _ _ _ related like
  | error same like => exact .error same like

/-- Relations of machines that go on alike: they are at the same place, and one instruction brings them to
related states again. -/
structure Simulation (e : FaultKind → FaultKind → Prop) (s : Machine → Machine → Prop) : Prop where
  counter : ∀ {m n}, s m n → m.counter = n.counter
  running : ∀ {m n}, s m n → m.running = n.running
  moved : ∀ {m n} (place : Nat), s m n → s { m with counter := place } { n with counter := place }
  stopped : ∀ {m n}, s m n → s { m with running := false } { n with running := false }
  cycle : ∀ {m n}, s m n → Accord Eq e s (cycle m) (cycle n)

namespace Simulation

variable {e : FaultKind → FaultKind → Prop} {s : Machine → Machine → Prop} {m n : Machine}

theorem step (simulation : Simulation e s) (like : s m n) :
    Accord (fun _ _ => True) (fun f g => f.counter = g.counter ∧ e f.kind g.kind) s (step m) (step n) := by
  have outcome := simulation.cycle like
  unfold Machine.step
  rw [simulation.running like]
  split
  · generalize Machine.cycle m = x at outcome ⊢
    generalize Machine.cycle n = y at outcome ⊢
    cases outcome with
    | ok same next =>
      cases same
      exact .ok trivial (simulation.moved _ next)
    -- The fault is at the instruction that the cycle began with.
    | error same next => exact .error ⟨simulation.counter like, same⟩ (simulation.stopped next)
  · exact .ok trivial like

theorem run (simulation : Simulation e s) (like : s m n) (budget : Nat) :
    Accord (fun _ _ => True) (fun f g => f.counter = g.counter ∧ e f.kind g.kind) s
      (run budget m) (run budget n) := by
  induction budget generalizing m n with
  | zero => exact .ok trivial like
  | succ budget ih =>
    have status := simulation.running like
    cases running : n.running with
    | false =>
      rw [run_stopped running, run_stopped (status.trans running)]
      exact .ok trivial like
    | true =>
      rw [run_running running, run_running (status.trans running)]
      have outcome := simulation.step like
      generalize Machine.step m = x at outcome ⊢
      generalize Machine.step n = y at outcome ⊢
      cases outcome with
      | ok _ next => exact ih next
      | error same next => exact .error same next

end Simulation

/-- Actions that do the same on like machines. -/
def Follows {α : Type} (R : Cell → Cell → Prop) (r : α → α → Prop) (act act' : Action α) : Prop :=
  ∀ m n, Like R m n → Accord r (fun x y => x.message = y.message) (Like R) (act m) (act' n)

namespace Follows

variable {α β : Type} {R : Cell → Cell → Prop} {r : α → α → Prop} {s : β → β → Prop}
  {c d c' d' : Cell}

theorem pure {a b : α} (related : r a b) : Follows R r (pure a) (pure b) :=
  fun _ _ like => .ok related like

theorem bind {act act' : Action α} {rest rest' : α → Action β} (first : Follows R r act act')
    (second : ∀ a b, r a b → Follows R s (rest a) (rest' b)) :
    Follows R s (act >>= rest) (act' >>= rest') := by
  intro m n like
  exact (first m n like).bind fun a b m n related like => second a b related m n like

theorem attempt {x y : Except FaultKind α} (agree : Agree r FaultKind.message x y) :
    Follows R r (attempt x) (attempt y) := by
  intro m n like
  cases agree with
  | ok related => exact .ok related like
  | error same => exact .error same like

theorem location (congruence : Congruence R) (related : R c d) :
    Follows R Eq (Machine.attempt (location c)) (Machine.attempt (location d)) := by
  rw [(congruence.kin related).location_eq]
  exact .attempt (.refl _)

theorem push (related : R c d) : Follows R (fun _ _ => True) (push c) (push d) :=
  fun _ _ like => .ok trivial { like with stack := .cons related like.stack }

theorem pop (op : Opcode) : Follows R R (pop op) (pop op) := by
  rintro ⟨code, initial, memory, stack, counter, running, input, output⟩
    ⟨code', initial', memory', stack', counter', running', input', output'⟩ like
  cases stacked : like.stack with
  | nil => exact .error rfl like
  | cons related rest => exact .ok related { like with stack := rest }

theorem fetch (congruence : Congruence R) (related : R c d) :
    Follows R (fun _ _ => True) (fetch c) (fetch d) := by
  refine .bind (.location congruence related) ?_
  rintro a _ rfl m n like
  have loaded : Agree R FaultKind.message ((m.memory.load a).mapError .memory)
      ((n.memory.load a).mapError .memory) :=
    (like.memory.load a).mapError fun _ => rfl
  exact Follows.bind (.attempt loaded) (fun _ _ => .push) m n like

theorem store (congruence : Congruence R) (place : R c d) (related : R c' d') :
    Follows R (fun _ _ => True) (store c c') (store d d') := by
  refine .bind (.location congruence place) ?_
  rintro a _ rfl m n like
  rw [bind_get, bind_get, like.memory.refusal?_eq a]
  cases refused : n.memory.refusal? a with
  | some error => exact .error rfl like
  | none =>
    obtain ⟨positive, _⟩ := Memory.refusal?_eq_none_iff.mp refused
    exact .ok trivial { like with memory := like.memory.put congruence related positive }

theorem combine {f : Cell → Cell → Except OperandError Cell}
    (agree : Agree R OperandError.message (f c c') (f d d')) :
    Follows R (fun _ _ => True) (combine f c c') (combine f d d') :=
  .bind (.attempt (agree.mapError fun _ => rfl)) fun _ _ => .push

theorem binary (op : Opcode) {f : Cell → Cell → Except OperandError Cell}
    (agree : ∀ {c d c' d'}, R c d → R c' d' → Agree R OperandError.message (f c c') (f d d')) :
    Follows R (fun _ _ => True) (binary op f) (binary op f) :=
  .bind (.pop op) fun _ _ right => .bind (.pop op) fun _ _ left => .combine (agree left right)

theorem relate (congruence : Congruence R) (op : Opcode) (relation : Logic) :
    Follows R (fun _ _ => True) (relate op relation) (relate op relation) :=
  .binary op (congruence.logic relation)

theorem readLine : Follows R
    (fun line line' => line = line' ∧
      R (.ofDataWord (Text.strip line)) (.ofDataWord (Text.strip line))) readLine readLine := by
  rintro ⟨code, initial, memory, stack, counter, running, ⟨pending⟩, output⟩
    ⟨code', initial', memory', stack', counter', running', _, output'⟩ like
  cases like.input
  have later (head : Except Text.StreamError String) (rest : List (Except Text.StreamError String))
      (whole : pending = head :: rest) : ∀ line, .ok line ∈ rest →
        R (.ofDataWord (Text.strip line)) (.ofDataWord (Text.strip line)) :=
    fun line member => like.lines line (whole ▸ List.mem_cons_of_mem head member)
  cases pending with
  | nil => exact .error rfl like
  | cons next rest =>
    cases next with
    | error e => exact .error rfl { like with input := rfl, lines := later _ _ rfl }
    | ok line =>
      exact .ok ⟨rfl, like.lines line List.mem_cons_self⟩
        { like with input := rfl, lines := later _ _ rfl }

theorem perform (congruence : Congruence R) (op : Opcode) (related : R c d) :
    Follows R (fun _ _ => True) (perform op c) (perform op d) := by
  cases op with
  | quit => exact fun m n like => .ok trivial { like with running := rfl }
  | literal => exact .push related
  | load => exact .fetch congruence related
  | store => exact .bind (.pop _) fun _ _ => .store congruence related
  | loadAt => exact .bind (.pop _) fun _ _ => .fetch congruence
  | storeAt =>
    exact .bind (.pop _) fun _ _ value => .bind (.pop _) fun _ _ place => .store congruence place value
  | add | sub | mul | div => exact .binary _ (congruence.arithmetic _)
  | eq | lt | gt | ne | le | ge | and | or => exact .relate congruence _ _
  | neg =>
    refine .bind (.pop _) fun _ _ operand => .bind (.attempt ?_) fun _ _ => .push
    exact (congruence.negate operand).mapError fun _ => rfl
  | not =>
    refine .bind (.pop _) fun c d operand => .push ?_
    rw [(congruence.kin operand).holds_eq]
    exact congruence.int _
  | input =>
    refine .bind .readLine ?_
    rintro line _ ⟨rfl, word⟩
    exact .push word
  | output =>
    refine .bind (.pop _) fun c d printed => ?_
    intro m n like
    have same := Output.write_eq m.output (congruence.kin printed).render_eq
    exact .ok trivial { like with output := same.trans (congrArg (·.write d) like.output) }
  | increment | decrement =>
    exact .bind (.pop _) fun _ _ top => .combine (congruence.arithmetic _ top related)
  | jump | jumpTo | jumpUnless => exact .pure trivial

theorem execute (congruence : Congruence R) {i j : Instruction} (like : Instruction.Like R i j) :
    Follows R Eq (execute i) (execute j) := by
  obtain ⟨op, operand, next⟩ := i
  obtain ⟨_, operand', _⟩ := j
  obtain ⟨rfl, related, rfl⟩ := like
  cases op with
  | jump => exact .bind (.pop _) fun _ _ => .location congruence
  | jumpTo => exact .location congruence related
  | jumpUnless =>
    refine .bind (.pop _) fun _ _ target => .bind (.pop _) fun _ _ condition => ?_
    rw [(congruence.kin condition).holds_eq]
    split
    · exact .pure rfl
    · exact .location congruence target
  | _ => exact .bind (.perform congruence _ related) fun _ _ _ => .pure rfl

theorem cycle (congruence : Congruence R) : Follows R Eq cycle cycle := by
  intro m n like
  unfold Machine.cycle
  rw [bind_get, bind_get, like.counter]
  exact Follows.bind (.attempt (decode_agree congruence like.code n.counter))
    (fun _ _ => .execute congruence) m n like

end Follows

theorem Like.simulation {R : Cell → Cell → Prop} (congruence : Congruence R) :
    Simulation (fun x y => x.message = y.message) (Like R) where
  counter like := like.counter
  running like := like.running
  moved _ like := { like with counter := rfl }
  stopped like := { like with running := rfl }
  cycle like := Follows.cycle congruence _ _ like

theorem Like.run {R : Cell → Cell → Prop} {m n : Machine} (congruence : Congruence R) (like : Like R m n)
    (budget : Nat) : Accord (fun _ _ => True) Fault.Like (Like R) (run budget m) (run budget n) :=
  (Like.simulation congruence).run like budget

end Machine

end Pushdown
