import Mathlib.Data.List.Forall2
import Pushdown.Proofs.ControlFlow
import Pushdown.Proofs.StackUse

/-! Safety of compiled programs. At every place of the code it is known how many cells are on the stack
and, between an address and the jump that takes it, which address it is. Steps keep to that. So no
instruction takes more than is there, jumps go only to where statements begin, and there the stack is
empty. -/
namespace Pushdown

/-- What a jump may take: a place to go to, or a cell that is not set. -/
def Leading (target : Nat → Prop) (cell : Cell) : Prop :=
  cell = .unset ∨ ∃ t, cell = .address t ∧ target t

def anything (_ : Cell) : Prop := True

/-- What is known of the cells on a stack is so. -/
abbrev Fits (shape : List (Cell → Prop)) (stack : List Cell) : Prop :=
  List.Forall₂ (fun known cell => known cell) shape stack

/-- Code that can be executed on a stack of a given shape, which tells for each cell of the stack, from
the top on, what is known of it. Nothing need be known of code that is only jumped to. -/
inductive Typed (target label : Nat → Prop) : List (Cell → Prop) → List Cell → Prop
  | quit {rest : List Cell} : Typed target label [] (.opcode .quit :: rest)
  | literal {v : Cell} (known : Cell → Prop) {shape : List (Cell → Prop)} {rest : List Cell} :
      known v → Typed target label (known :: shape) rest →
      Typed target label shape (.opcode .literal :: v :: rest)
  | plain {op : Opcode} (taken : List (Cell → Prop)) {below shape : List (Cell → Prop)}
      {rest : List Cell} :
      op.straight = true → op.hasOperand = false → shape = taken ++ below →
      taken.length = op.pops → Typed target label (List.replicate op.pushes anything ++ below) rest →
      Typed target label shape (.opcode op :: rest)
  | branch {t : Nat} {known : Cell → Prop} {rest : List Cell} : target t →
      Typed target label [] rest →
      Typed target label [(· = .address t), known] (.opcode .jumpUnless :: rest)
  | fetch {a : Nat} {rest : List Cell} : label a → Typed target label [Leading target] rest →
      Typed target label [(· = .address a)] (.opcode .loadAt :: rest)
  | jump {rest : List Cell} : Typed target label [Leading target] (.opcode .jump :: rest)

/-- The number of cells that are on the stack before some code is executed. -/
def depth : List Cell → Nat
  | .opcode .literal :: _ :: rest => depth rest - 1
  | .opcode op :: rest => if op.straight then depth rest - op.pushes + op.pops else op.pops
  | _ => 0

section Typed

variable {target label : Nat → Prop} {shape shape' : List (Cell → Prop)} {cells cells' rest : List Cell}

namespace Typed

theorem extend (typed : Typed target label shape cells) (more : List Cell) :
    Typed target label shape (cells ++ more) := by
  induction typed with
  | quit => exact .quit
  | literal known holds _ ih => exact .literal known holds ih
  | plain taken straight operand split length _ ih =>
    exact .plain taken straight operand split length ih
  | branch reached _ ih => exact .branch reached ih
  | fetch member _ ih => exact .fetch member ih
  | jump => exact .jump

theorem length_eq_depth (typed : Typed target label shape cells) : shape.length = depth cells := by
  induction typed with
  | quit | branch | jump => rfl
  | literal _ _ _ ih => simp [depth, ← ih]
  | @plain op taken below shape rest straight operand split length _ ih =>
    have unfolded : depth (.opcode op :: rest) = depth rest - op.pushes + op.pops := by
      rw [depth, if_pos straight]
      rintro v more - rfl
      cases operand
    simp [unfolded, ← ih, split, length, Nat.add_comm]
  | fetch _ _ ih => simp [depth, ← ih, Opcode.straight, Opcode.pushes, Opcode.pops]

end Typed

theorem Machine.lies_comparable {code : Array Cell} {place : Nat} (lies : Lies code place cells)
    (lies' : Lies code place cells') : cells <+: cells' ∨ cells' <+: cells := by
  induction cells generalizing place cells' with
  | nil => exact .inl (List.nil_prefix)
  | cons cell cells ih =>
    cases cells' with
    | nil => exact .inr (List.nil_prefix)
    | cons cell' cells' =>
      obtain rfl : cell = cell' := Option.some.inj (lies.1.symm.trans lies'.1)
      exact (ih lies.2 lies'.2).imp (List.cons_prefix_cons.mpr ⟨rfl, ·⟩)
        (List.cons_prefix_cons.mpr ⟨rfl, ·⟩)

/-- The shapes of the stack at a place agree in their length. -/
theorem Typed.length_eq {code : Array Cell} {place : Nat} (typed : Typed target label shape cells)
    (typed' : Typed target label shape' cells') (lies : Machine.Lies code place cells)
    (lies' : Machine.Lies code place cells') : shape.length = shape'.length := by
  rcases Machine.lies_comparable lies lies' with ⟨more, rfl⟩ | ⟨more, rfl⟩
  · rw [typed'.length_eq_depth, (typed.extend more).length_eq_depth]
  · rw [typed.length_eq_depth, (typed'.extend more).length_eq_depth]

theorem Expr.typed (address : String → Nat) (e : Expr)
    (typed : Typed target label (anything :: shape) rest) :
    Typed target label shape (e.code address ++ rest) := by
  induction e generalizing shape rest with
  | literal | address => exact .literal anything trivial typed
  | fetch place ih =>
    rw [code, List.append_assoc]
    exact ih (.plain [anything] rfl rfl rfl rfl typed)
  | negate e ih =>
    rw [code, List.append_assoc]
    exact ih (.plain [anything] rfl rfl rfl rfl typed)
  | combine op l r left right =>
    rw [code, List.append_assoc, List.append_assoc]
    refine left (right ?_)
    cases op <;> exact .plain [anything, anything] rfl rfl rfl rfl typed

theorem Condition.typed (address : String → Nat) (c : Condition)
    (typed : Typed target label (anything :: shape) rest) :
    Typed target label shape (c.code address ++ rest) := by
  rw [code, List.append_assoc, List.append_assoc]
  refine c.left.typed address (c.right.typed address ?_)
  cases c.relation <;> exact .plain [anything, anything] rfl rfl rfl rfl typed

theorem Typed.flatMap {α : Type} {code : α → List Cell}
    (each : ∀ a rest, Typed target label [] rest → Typed target label [] (code a ++ rest))
    (items : List α) (typed : Typed target label [] rest) :
    Typed target label [] (items.flatMap code ++ rest) := by
  induction items with
  | nil => exact typed
  | cons a items ih =>
    rw [List.flatMap_cons, List.append_assoc]
    exact each a _ ih

end Typed

/-- Places where a statement, or the end of the program, begins. -/
def Site (code : Array Cell) (address : String → Nat) (names : List String) (place : Nat) : Prop :=
  ∃ todo, Located code address names place todo

open Statement Machine

variable {code : Array Cell} {address : String → Nat} {names : List String}

theorem Located.typed {place : Nat} {todo : List Statement}
    (located : Located code address names place todo) :
    Typed (Site code address names) (· ∈ names.map address) []
      (codeAll address place todo ++ [.opcode .quit]) := by
  cases todo with
  | nil => exact .quit
  | cons s rest =>
    have behind := Located.typed located.tail
    simp only [codeAll, List.append_assoc]
    cases s with
    | assign target value =>
      simp only [Statement.code, List.append_assoc]
      refine target.typed address (value.typed address ?_)
      exact .plain [anything, anything] rfl rfl rfl rfl behind
    | put items =>
      refine Typed.flatMap (fun e _ typed => ?_) items behind
      rw [Expr.itemCode, List.append_assoc]
      exact e.typed address (.plain [anything] rfl rfl rfl rfl typed)
    | get targets =>
      refine Typed.flatMap (fun p _ typed => ?_) targets behind
      rw [Expr.targetCode, List.append_assoc]
      refine p.typed address (.plain [] rfl rfl rfl rfl ?_)
      exact .plain [anything, anything] rfl rfl rfl rfl typed
    | stop => exact .quit
    | goto x =>
      have named : x ∈ names := located.named x (by simp [namesAll, Statement.names])
      exact .literal (· = .address (address x)) rfl (.fetch (List.mem_map_of_mem named) .jump)
    -- Statements inside others are typed from their own place on, together with what is behind.
    | branch c body =>
      simp only [Statement.code, List.append_assoc, List.cons_append, List.nil_append]
      have onward : Site code address names (place + (c.size + 3 + body.size)) :=
        ⟨rest, located.tail⟩
      refine c.typed address (.literal (· = .address _) rfl (.branch onward ?_))
      simpa only [codeAll, Statement.size, Nat.add_assoc, List.append_assoc] using
        Located.typed located.branch
    | group body =>
      simpa only [codeAll_append, List.append_assoc, Statement.code, Statement.size] using
        Located.typed located.group
    | labelled x body =>
      simpa only [codeAll, List.append_assoc, Statement.code, Statement.size] using
        Located.typed located.labelled
termination_by sizeOf todo
decreasing_by
  all_goals subst_vars
  · simp
  · simp
  · exact sizeOf_append_lt body rest
  · simp

/-- A state that a compiled program may be in: an instruction begins here, the stack is empty if a
statement does, and unless the machine has stopped, the stack is as the code takes it. -/
structure Secure (code : Array Cell) (address : String → Nat) (names : List String) (m : Machine) :
    Prop where
  boundary : Boundary code m.counter
  clear : Site code address names m.counter → m.stack = []
  typed : m.running = true → ∃ shape cells, Lies code m.counter cells ∧
    Typed (Site code address names) (· ∈ names.map address) shape cells ∧
    Fits shape m.stack

namespace Secure

variable {m m' : Machine} {shape : List (Cell → Prop)} {cells : List Cell}

theorem of_typed (boundary : Boundary code m.counter) (lies : Lies code m.counter cells)
    (typed : Typed (Site code address names) (· ∈ names.map address) shape cells)
    (fits : Fits shape m.stack) :
    Secure code address names m where
  boundary := boundary
  clear := by
    rintro ⟨todo, located⟩
    have none := typed.length_eq located.typed lies located.lies
    rw [fits.length_eq] at none
    exact List.length_eq_zero_iff.mp none
  typed _ := ⟨shape, cells, lies, typed, fits⟩

theorem of_site (site : Site code address names m.counter) (empty : m.stack = []) :
    Secure code address names m := by
  obtain ⟨todo, located⟩ := site
  exact .of_typed located.boundary located.lies located.typed (empty ▸ .nil)

/-- A machine that fails keeps its place, and has at most taken cells from the stack. -/
theorem stopped (secure : Secure code address names m) (counter : m'.counter = m.counter)
    (suffix : m'.stack <:+ m.stack) (stopped : m'.running = false) :
    Secure code address names m' where
  boundary := counter ▸ secure.boundary
  clear site := by
    rw [counter] at site
    rw [secure.clear site] at suffix
    exact List.suffix_nil.mp suffix
  typed running := by
    rw [stopped] at running
    cases running

end Secure

/-- A result that is a state a compiled program may be in, or a fault that is not one of malformed
code. -/
def Safe (code : Array Cell) (address : String → Nat) (names : List String) :
    EStateM.Result Fault Machine Unit → Prop
  | .ok _ m => Secure code address names m
  | .error fault m => ¬ fault.kind.Malformed ∧ m.running = false ∧ Secure code address names m

section Step

variable {program : List Statement} {m : Machine} {shape : List (Cell → Prop)} {rest : List Cell}

theorem fits_anything {stack : List Cell} (given : List Cell)
    (fits : Fits shape stack) :
    Fits (List.replicate given.length anything ++ shape) (given ++ stack) := by
  induction given with
  | nil => exact fits
  | cons cell given ih => exact .cons trivial ih

theorem Secure.plain {op : Opcode} {taken below : List (Cell → Prop)}
    (secure : Secure m.code address names m) (running : m.running = true)
    (lies : Lies m.code m.counter (.opcode op :: rest)) (straight : op.straight = true)
    (operand : op.hasOperand = false) (length : taken.length = op.pops)
    (fits : Fits (taken ++ below) m.stack)
    (typed : Typed (Site m.code address names) (· ∈ names.map address)
      (List.replicate op.pushes anything ++ below) rest) :
    Safe m.code address names (step m) := by
  have decoded := decode_plain lies operand
  have enough : (m.stack.take op.pops).length = op.pops := by
    have total := fits.length_eq
    simp only [List.length_append, length] at total
    simp only [List.length_take]
    omega
  have fitsBelow : Fits below (m.stack.drop op.pops) := by
    have dropped := List.forall₂_drop taken.length fits
    rwa [List.drop_left, length] at dropped
  have uses := Uses.perform .unset straight m _ _ (List.take_append_drop op.pops m.stack).symm enough
  have executed : execute ⟨op, .unset, m.counter + 1⟩ m =
      (do perform op .unset; return m.counter + 1) m := by
    cases op with
    | jump | jumpTo | jumpUnless => cases straight
    | _ => rfl
  rw [step_of_decode running decoded, executed]
  simp only [bind, EStateM.bind]
  cases performed : perform op .unset m with
  | error kind m' =>
    rw [performed] at uses
    obtain ⟨proper, suffix, counter⟩ := uses
    exact ⟨proper, rfl, secure.stopped counter suffix rfl⟩
  | ok _ m' =>
    rw [performed] at uses
    obtain ⟨⟨given, many, stack⟩, _, _⟩ := uses
    refine .of_typed (secure.boundary.next decoded) lies.2 typed ?_
    rw [← many, stack]
    exact fits_anything given fitsBelow

theorem Secure.branch {t : Nat} {v : Cell} (secure : Secure m.code address names m)
    (running : m.running = true) (lies : Lies m.code m.counter (.opcode .jumpUnless :: rest))
    (stack : m.stack = [.address t, v]) (onward : Site m.code address names t)
    (typed : Typed (Site m.code address names) (· ∈ names.map address) [] rest) :
    Safe m.code address names (step m) := by
  have decoded := decode_plain lies rfl
  rw [step_of_decode running decoded, execute_jumpUnless _ stack]
  cases v.holds with
  | true => exact .of_typed (secure.boundary.next decoded) lies.2 typed .nil
  | false => exact .of_site onward rfl

theorem Secure.jump {cell : Cell} (secure : Secure m.code address names m)
    (running : m.running = true) (lies : Lies m.code m.counter (.opcode .jump :: rest))
    (stack : m.stack = [cell]) (leading : Leading (Site m.code address names) cell) :
    Safe m.code address names (step m) := by
  have decoded := decode_plain lies rfl
  rw [step_of_decode running decoded, execute_jump _ stack]
  rcases leading with rfl | ⟨t, rfl, onward⟩
  · exact ⟨id, rfl, secure.stopped rfl List.nil_suffix rfl⟩
  · exact .of_site onward rfl

theorem Prepared.leading {x : String} (prepared : Prepared address program m)
    (named : x ∈ namesAll program) :
    ∃ cell, m.memory.load (address x) = .ok cell ∧
      Leading (Site m.code address (namesAll program)) cell := by
  have label := prepared.label named
  cases sought : seekAll x [] program with
  | none =>
    rw [sought] at label
    exact ⟨_, label, .inl rfl⟩
  | some todo =>
    rw [sought] at label
    obtain ⟨place, loaded, located⟩ := label
    exact ⟨_, loaded, .inr ⟨place, rfl, todo, located⟩⟩

/-- One step from a state that a compiled program may be in. -/
theorem Secure.step (prepared : Prepared address program m)
    (secure : Secure m.code address (namesAll program) m) :
    Safe m.code address (namesAll program) (step m) := by
  cases running : m.running with
  | false =>
    have still : Machine.step m = .ok () m := by simp [Machine.step, running]
    rw [still]
    exact secure
  | true =>
    obtain ⟨shape, cells, lies, typed, fits⟩ := secure.typed running
    generalize stack : m.stack = top at fits
    cases typed with
    | quit =>
      cases fits
      have decoded := decode_plain lies rfl
      rw [step_of_decode running decoded]
      refine ⟨secure.boundary.next decoded, fun _ => stack, fun still => ?_⟩
      cases still
    | literal known holds typed =>
      have decoded := decode_operand lies rfl
      rw [step_of_decode running decoded]
      exact .of_typed (secure.boundary.next decoded) lies.2.2 typed (.cons holds (stack ▸ fits))
    | plain taken straight operand split length typed =>
      subst split
      exact secure.plain running lies straight operand length (stack ▸ fits) typed
    | branch onward typed =>
      rcases fits with _ | ⟨rfl, fits⟩
      rcases fits with _ | ⟨_, ⟨⟩⟩
      exact secure.branch running lies stack onward typed
    | fetch member typed =>
      rcases fits with _ | ⟨rfl, ⟨⟩⟩
      obtain ⟨x, named, rfl⟩ := List.mem_map.mp member
      obtain ⟨cell, loaded, leading⟩ := prepared.leading named
      have decoded := decode_plain lies rfl
      rw [step_of_decode running decoded, execute_loadAt _ stack (Memory.read_address loaded)]
      exact .of_typed (secure.boundary.next decoded) lies.2 typed (.cons leading .nil)
    | jump =>
      rcases fits with _ | ⟨leading, ⟨⟩⟩
      exact secure.jump running lies stack leading

/-- What a run comes to, as long as the cells of the labels are not stored to. -/
theorem Secure.run {n : Nat} (prepared : Prepared address program m)
    (secure : Secure m.code address (namesAll program) m)
    (spares : m.Spares (jumpCells address program) n) :
    Safe m.code address (namesAll program) (Machine.run n m) := by
  induction n generalizing m with
  | zero => exact secure
  | succ n ih =>
    cases running : m.running with
    | false =>
      rw [run_stopped running]
      exact secure
    | true =>
      have safe := secure.step prepared
      rw [run_running running]
      cases stepped : Machine.step m with
      | error fault final =>
        rw [stepped] at safe
        exact safe
      | ok _ next =>
        rw [stepped] at safe
        have once : Machine.run 1 m = .ok () next := by
          rw [run_running running, stepped]
          rfl
        have first : m.Spares (jumpCells address program) 1 :=
          fun k less => spares k (by omega)
        obtain ⟨onward, code⟩ := prepared.run first once
        have rest := ih onward (code ▸ safe) (step_spares spares running stepped)
        rwa [code] at rest

/-- The state of a machine after a number of steps, or after the fault that ended them. -/
def Machine.stateAfter (n : Nat) (m : Machine) : Machine :=
  match run n m with
  | .ok _ m' => m'
  | .error _ m' => m'

theorem Secure.stateAfter {n : Nat} (prepared : Prepared address program m)
    (secure : Secure m.code address (namesAll program) m)
    (spares : m.Spares (jumpCells address program) n) :
    Secure m.code address (namesAll program) (m.stateAfter n) ∧
      ∀ fault m', (m.stateAfter n).step = .error fault m' → ¬ fault.kind.Malformed := by
  have safe := secure.run prepared spares
  unfold Machine.stateAfter
  cases ran : Machine.run n m with
  | error fault final =>
    rw [ran] at safe
    obtain ⟨_, stopped, secure⟩ := safe
    refine ⟨secure, fun fault m' failed => ?_⟩
    simp [Machine.step, stopped] at failed
  | ok _ final =>
    rw [ran] at safe
    refine ⟨safe, fun fault m' failed => ?_⟩
    obtain ⟨onward, code⟩ := prepared.run spares ran
    have next := Secure.step onward (code ▸ safe)
    rw [failed] at next
    exact next.1

end Step

/-- A compiled program never takes more than is on the stack and never leaves its instructions, as long
as nothing is stored to the cells of the names that are jumped to or stand as labels. -/
theorem compiled_program_is_safe {text : String} {budget : Nat} {emission : Emission}
    (compiled : Compiler.compile Grammar.programScheme text budget = some (.ok emission)) :
    (∃ source : Source, source.WrittenBy text) ∧
      ∀ source : Source, source.WrittenBy text →
        let address := emission.symbols.addressOf
        emission.program.code.toList = codeAll address 1 source.statements ++ [.opcode .quit] ∧
        ∀ capacity input output n,
          let machine := Machine.boot emission.program capacity input output
          machine.Spares (jumpCells address source.statements) n →
            let m := machine.stateAfter n
            Boundary emission.program.code m.counter ∧
            (∀ fault m', m.step = .error fault m' → ¬ fault.kind.Malformed) ∧
            (m.counter ∈ startsAll 1 source.statements → m.stack = []) := by
  refine ⟨compile_written compiled, fun source written => ?_⟩
  have placed := compile_placed compiled written
  refine ⟨placed.code, ?_⟩
  intro capacity input output n machine spares m
  have prepared := placed.prepared capacity input output
  have start : Secure machine.code emission.symbols.addressOf (namesAll source.statements) machine :=
    .of_site ⟨_, prepared.whole⟩ rfl
  obtain ⟨secure, proper⟩ := start.stateAfter prepared spares
  refine ⟨secure.boundary, proper, fun member => secure.clear ?_⟩
  exact startsAll_located [] source.statements (by simpa using prepared.whole) member

theorem compiled_program_is_safe_countdown :
    ∃ emission, Compiler.compile Grammar.programScheme countdown 400 = some (.ok emission) ∧
      let machine := Machine.boot emission.program 8 .none (.printed #[])
      machine.Spares (jumpCells emission.symbols.addressOf countdownTree.statements) 30 ∧
      let m := machine.stateAfter 30
      Boundary emission.program.code m.counter ∧
        (∀ fault m', m.step = .error fault m' → ¬ fault.kind.Malformed) ∧
        (m.counter ∈ startsAll 1 countdownTree.statements → m.stack = []) := by
  obtain ⟨emission, compiled, spares⟩ := exists_emission
    (p := fun emission => (Machine.boot emission.program 8 .none (.printed #[])).Spares
      (jumpCells emission.symbols.addressOf countdownTree.statements) 30) countdown 400
    (by decide +kernel)
  obtain ⟨_, follows⟩ := compiled_program_is_safe compiled
  obtain ⟨_, safe⟩ := follows countdownTree countdown_written
  exact ⟨emission, compiled, spares, safe 8 .none (.printed #[]) 30 spares⟩

end Pushdown
