import Pushdown.Proofs.StackSafety

/-! Programs without jumps to labels halt. Their code only leads onward: an instruction goes on to the next
one, and the target of a branch stands behind the code that the branch skips. Nothing of this depends on
values, memory or input, so a run takes at most one step for each cell of the code, and it ends with the
instruction to stop or with a fault. -/
namespace Pushdown

namespace Statement

mutual

/-- The labels that a statement, or a statement in it, jumps to. -/
def gotos : Statement → List String
  | .goto x => [x]
  | .branch _ body => body.gotos
  | .group body => gotosAll body
  | .labelled _ body => body.gotos
  | _ => []

def gotosAll : List Statement → List String
  | [] => []
  | s :: rest => s.gotos ++ gotosAll rest

end

end Statement

/-- Code from a place on that leads only onward, on a stack of some depth. Between an address and the branch
that takes it, the address on top is known. Code that a branch skips is followed by such code again. -/
inductive Onward : Nat → Nat → Option Nat → List Cell → Prop
  | quit {place depth : Nat} {top : Option Nat} {rest : List Cell} :
      Onward place depth top (.opcode .quit :: rest)
  | literal {place depth : Nat} {top : Option Nat} {v : Cell} (known : Option Nat) {rest : List Cell} :
      (∀ t ∈ known, v = .address t) → Onward (place + 2) (depth + 1) known rest →
      Onward place depth top (.opcode .literal :: v :: rest)
  | plain {place : Nat} (below : Nat) {depth : Nat} {top : Option Nat} {op : Opcode}
      {rest : List Cell} :
      op.straight = true → op.hasOperand = false → depth = below + op.pops →
      Onward (place + 1) (below + op.pushes) none rest → Onward place depth top (.opcode op :: rest)
  | branch {place t : Nat} {skipped rest : List Cell} : t = place + 1 + skipped.length →
      Onward (place + 1) 0 none (skipped ++ rest) → Onward t 0 none rest →
      Onward place 2 (some t) (.opcode .jumpUnless :: (skipped ++ rest))

namespace Onward

variable {place depth : Nat} {top : Option Nat} {rest : List Cell}

theorem expr (address : String → Nat) (e : Expr)
    (onward : Onward (place + e.size) (depth + 1) none rest) :
    Onward place depth top (e.code address ++ rest) := by
  induction e generalizing place depth top rest with
  | literal | address => exact .literal none nofun onward
  | fetch p ih =>
    rw [Expr.code, List.append_assoc]
    exact ih (.plain depth rfl rfl rfl onward)
  | negate e ih =>
    rw [Expr.code, List.append_assoc]
    exact ih (.plain depth rfl rfl rfl onward)
  | combine op l r left right =>
    rw [Expr.code, List.append_assoc, List.append_assoc]
    simp only [Expr.size, ← Nat.add_assoc] at onward
    refine left (right ?_)
    cases op <;> exact .plain depth rfl rfl rfl onward

theorem condition (address : String → Nat) (c : Condition)
    (onward : Onward (place + c.size) (depth + 1) none rest) :
    Onward place depth top (c.code address ++ rest) := by
  rw [Condition.code, List.append_assoc, List.append_assoc]
  simp only [Condition.size, ← Nat.add_assoc] at onward
  refine expr address c.left (expr address c.right ?_)
  cases c.relation <;> exact .plain depth rfl rfl rfl onward

/-- Expressions one after another, each with a number of cells behind it. -/
theorem flatMap {behind : Nat} {code : Expr → List Cell}
    (each : ∀ e place rest, Onward (place + (e.size + behind)) 0 none rest →
      Onward place 0 none (code e ++ rest)) (es : List Expr)
    (onward : Onward (place + Expr.sizeAll behind es) 0 none rest) :
    Onward place 0 none (es.flatMap code ++ rest) := by
  induction es generalizing place with
  | nil => exact onward
  | cons e es ih =>
    rw [List.flatMap_cons, List.append_assoc]
    refine each e place _ (ih ?_)
    rwa [Nat.add_assoc]

mutual

theorem statement (address : String → Nat) {place : Nat} (s : Statement) (free : s.gotos = [])
    {rest : List Cell} (onward : Onward (place + s.size) 0 none rest) :
    Onward place 0 none (s.code address place ++ rest) := by
  cases s with
  | assign target value =>
    simp only [Statement.code, List.append_assoc]
    simp only [Statement.size, ← Nat.add_assoc] at onward
    exact expr address target (expr address value (.plain 0 rfl rfl rfl onward))
  | put items =>
    refine flatMap (fun e place rest behind => ?_) items onward
    rw [Expr.itemCode, List.append_assoc]
    exact expr address e (.plain 0 rfl rfl rfl behind)
  | get targets =>
    refine flatMap (fun p place rest behind => ?_) targets onward
    rw [Expr.targetCode, List.append_assoc]
    exact expr address p (.plain 1 rfl rfl rfl (.plain 0 rfl rfl rfl behind))
  | stop => exact .quit
  | goto x => cases free
  | branch c body =>
    simp only [Statement.code, List.append_assoc, List.cons_append, List.nil_append]
    refine condition address c (.literal (some _) (fun t known => ?_) (.branch ?_ ?_ onward))
    · cases known
      rfl
    · rw [Statement.length_code, Statement.size]
      omega
    · refine statement address body free ?_
      rw [Statement.size, ← Nat.add_assoc, ← Nat.add_assoc] at onward
      exact onward
  | group body => exact statements address body free onward
  | labelled x body => exact statement address body free onward

theorem statements (address : String → Nat) {place : Nat} (ss : List Statement)
    (free : Statement.gotosAll ss = []) {rest : List Cell}
    (onward : Onward (place + Statement.sizeAll ss) 0 none rest) :
    Onward place 0 none (Statement.codeAll address place ss ++ rest) := by
  cases ss with
  | nil => exact onward
  | cons s ss =>
    obtain ⟨first, later⟩ := List.append_eq_nil_iff.mp free
    rw [Statement.codeAll, List.append_assoc]
    refine statement address s first (statements address ss later ?_)
    rwa [Nat.add_assoc]

end

end Onward

open Machine

variable {m m' : Machine} {rest : List Cell}

/-- What instructions do that neither stop nor jump, if the cells they take are on the stack. -/
theorem Machine.step_straight {op : Opcode} (running : m.running = true)
    (lies : Lies m.code m.counter (.opcode op :: rest)) (straight : op.straight = true)
    (operand : op.hasOperand = false) {below : Nat} (depth : m.stack.length = below + op.pops) :
    match step m with
    | .ok _ m' => m'.counter = m.counter + 1 ∧ m'.running = true ∧
        m'.stack.length = below + op.pushes
    | .error fault _ => ¬ fault.kind.Malformed := by
  have uses := Uses.perform .unset straight m _ _ (List.take_append_drop op.pops m.stack).symm
    (by simp [depth])
  have executed : execute ⟨op, .unset, m.counter + 1⟩ m =
      (do perform op .unset; return m.counter + 1) m := by
    cases op with
    | jump | jumpTo | jumpUnless => cases straight
    | _ => rfl
  rw [step_of_decode running (decode_plain lies operand), executed]
  simp only [bind, EStateM.bind]
  cases performed : perform op .unset m with
  | error kind m' =>
    rw [performed] at uses
    exact uses.1
  | ok _ m' =>
    rw [performed] at uses
    obtain ⟨⟨given, many, stack⟩, _, still⟩ := uses
    refine ⟨rfl, still.trans running, ?_⟩
    change m'.stack.length = _
    rw [stack, List.length_append, many, List.length_drop, depth]
    omega

/-- A machine whose code leads only onward from where it is. -/
def Heading (m : Machine) : Prop :=
  ∃ depth top cells, Lies m.code m.counter cells ∧ Onward m.counter depth top cells ∧
    m.stack.length = depth ∧ ∀ t ∈ top, m.stack.head? = some (.address t)

/-- What a step comes to: it goes onward or stops by the instruction for that, or its fault is not one of
malformed code. -/
def Progress (m : Machine) : EStateM.Result Fault Machine Unit → Prop
  | .ok _ m' => m.counter < m'.counter ∧ (m'.running = true → Heading m') ∧
      (m'.running = false → Program.fetch? m'.code (m'.counter - 1) = some (.opcode .quit))
  | .error fault _ => ¬ fault.kind.Malformed

theorem Progress.of_heading (less : m.counter < m'.counter) (running : m'.running = true)
    (heading : Heading m') : Progress m (.ok () m') := by
  refine ⟨less, fun _ => heading, fun stopped => ?_⟩
  rw [running] at stopped
  cases stopped

theorem Heading.step (heading : Heading m) (running : m.running = true) : Progress m (step m) := by
  obtain ⟨depth, top, cells, lies, onward, length, known⟩ := heading
  cases onward with
  | quit =>
    rw [step_of_decode running (decode_plain lies rfl)]
    exact ⟨Nat.lt_succ_self _, nofun, fun _ => lies.1⟩
  | literal address means onward =>
    rw [step_of_decode running (decode_operand lies rfl)]
    refine .of_heading (Nat.lt_add_of_pos_right (by decide)) running ?_
    refine ⟨_, address, _, lies.2.2, onward, congrArg (· + 1) length, fun t member => ?_⟩
    exact congrArg some (means t member)
  | @plain _ below _ _ op rest straight operand depth onward =>
    have stepped := step_straight running lies straight operand (length.trans depth)
    cases result : Machine.step m with
    | error fault final =>
      rw [result] at stepped
      exact stepped
    | ok _ next =>
      rw [result] at stepped
      obtain ⟨counter, still, height⟩ := stepped
      have behind : Lies next.code next.counter rest := by
        rw [counter, (step_changes result).1]
        exact lies.2
      exact .of_heading (by omega) still ⟨_, none, _, behind, counter ▸ onward, height, nofun⟩
  | @branch _ t skipped rest target inner behind =>
    obtain ⟨first, v, stack⟩ := List.length_eq_two.mp length
    obtain rfl : first = .address t := by simpa [stack] using known t rfl
    rw [step_of_decode running (decode_plain lies rfl), execute_jumpUnless _ stack]
    cases v.holds with
    | true =>
      exact .of_heading (Nat.lt_succ_self _) running ⟨0, none, _, lies.2, inner, rfl, nofun⟩
    | false =>
      have there := (lies_append.mp lies.2).2
      rw [← target] at there
      exact .of_heading (show m.counter < t by omega) running ⟨0, none, _, there, behind, rfl, nofun⟩

/-- The place of a machine that goes onward is one of the code. -/
theorem Heading.counter_le (heading : Heading m) : m.counter ≤ m.code.size := by
  obtain ⟨depth, top, cells, lies, onward, _⟩ := heading
  have found : ∃ cell, Program.fetch? m.code m.counter = some cell := by
    cases onward <;> exact ⟨_, lies.1⟩
  obtain ⟨cell, found⟩ := found
  unfold Program.fetch? at found
  split at found
  · cases found
  · have less := (Array.getElem?_eq_some_iff.mp found).1
    omega

/-- A run that has ended: by the instruction to stop, or by a fault that is not one of malformed code. -/
def Ended : EStateM.Result Fault Machine Unit → Prop
  | .ok _ m => m.running = false ∧ Program.fetch? m.code (m.counter - 1) = some (.opcode .quit)
  | .error fault _ => ¬ fault.kind.Malformed

/-- A machine that goes onward has ended before it comes behind the last place. -/
theorem Heading.run_ended {n : Nat} (heading : Heading m) (running : m.running = true)
    (enough : m.code.size < m.counter + n) : Ended (run n m) := by
  induction n generalizing m with
  | zero =>
    have inside := heading.counter_le
    omega
  | succ n ih =>
    have progress := heading.step running
    rw [run_running running]
    cases stepped : Machine.step m with
    | error fault final =>
      rw [stepped] at progress
      exact progress
    | ok _ next =>
      rw [stepped] at progress
      obtain ⟨less, onward, quit⟩ := progress
      cases still : next.running with
      | false =>
        dsimp only
        rw [run_stopped still]
        exact ⟨still, quit still⟩
      | true =>
        refine ih (onward still) still ?_
        rw [(step_changes stepped).1]
        omega

/-- However far a machine has come, it goes onward from there unless it has stopped. -/
theorem Heading.run {n : Nat} (heading : Heading m) (ran : Machine.run n m = .ok () m')
    (running : m'.running = true) : Heading m' := by
  induction n generalizing m with
  | zero =>
    cases ran
    exact heading
  | succ n ih =>
    cases before : m.running with
    | false =>
      rw [run_stopped before] at ran
      cases ran
      exact heading
    | true =>
      have progress := heading.step before
      rw [run_running before] at ran
      cases stepped : Machine.step m with
      | error fault final =>
        rw [stepped] at ran
        cases ran
      | ok _ next =>
        rw [stepped] at ran progress
        dsimp only at ran
        cases still : next.running with
        | true => exact ih (progress.2.1 still) ran
        | false =>
          rw [run_stopped still] at ran
          cases ran
          rw [still] at running
          cases running

open Statement in
/-- A compiled program without jumps to labels goes onward with every step, whatever it computes, reads or
stores. So it halts after at most as many steps as its code has cells. -/
theorem jumpless_program_halts {text : String} {budget : Nat} {emission : Emission}
    (compiled : Compiler.compile Grammar.programScheme text budget = some (.ok emission)) :
    (∃ source : Source, source.WrittenBy text) ∧
      ∀ source : Source, source.WrittenBy text → gotosAll source.statements = [] →
        ∀ capacity input output,
          let machine := Machine.boot emission.program capacity input output
          (∀ n m m', Machine.run n machine = .ok () m → m.running = true → m.step = .ok () m' →
            m.counter < m'.counter) ∧
          Ended (Machine.run emission.program.code.size machine) := by
  refine ⟨compile_written compiled, ?_⟩
  intro source written free capacity input output machine
  have code := (compile_placed compiled written).code
  have heading : Heading machine := by
    refine ⟨0, none, _, lies_of_toList [] code, ?_, rfl, nofun⟩
    exact .statements _ source.statements free .quit
  refine ⟨fun n m m' reached running stepped => ?_, heading.run_ended rfl (Nat.lt_one_add_iff.mpr le_rfl)⟩
  have progress := (heading.run reached running).step running
  rw [stepped] at progress
  exact progress.1

/-- Branches inside each other under a label, and stores over the cell of the label and behind it. -/
def overwriting : String := ":top: if 1 < 2 then if 2 < 1 then stop; top(3) = 9; top = 5;"

open Token in
def overwritingTokens : List Token :=
  [symbol ":", identifier "top", symbol ":", symbol "$if", integer 1, symbol "<", integer 2,
   symbol "$then", symbol "$if", integer 2, symbol "<", integer 1, symbol "$then", symbol "$stop",
   symbol ";", identifier "top", symbol "(", integer 3, symbol ")", symbol "=", integer 9, symbol ";",
   identifier "top", symbol "=", integer 5, symbol ";"]

def overwritingTree : Source where
  declarations := []
  statements :=
    [.labelled "top" (.branch ⟨.lt, .literal 1, .literal 2⟩
       (.branch ⟨.lt, .literal 2, .literal 1⟩ .stop)),
     .assign (.combine .add (.address "top") (.literal 3)) (.literal 9),
     .assign (.address "top") (.literal 5)]

open Token in
theorem overwriting_reads : Source.Reads overwritingTokens overwritingTree := by
  have value (n : Int64) (nonneg : 0 ≤ n) : Expr.Reads .sum [integer n] (.literal n) :=
    .term (.factor (.literal n nonneg))
  have below (l r : Int64) (left : 0 ≤ l) (right : 0 ≤ r) :
      Condition.Reads [integer l, symbol "<", integer r] ⟨.lt, .literal l, .literal r⟩ := by
    have listed : (Logic.lt, ["<"]) ∈ Condition.spellings := by simp [Condition.spellings]
    exact .compare listed (value l left) (value r right)
  exact .statements (.cons (.labelled "top" (.branch (below 1 2 (by decide) (by decide))
      (.plain (.branch (below 2 1 (by decide) (by decide)) (.plain .stop)))))
    (.cons (.plain (.assign (.element "top" (value 3 (by decide))) (value 9 (by decide))))
    (.cons (.plain (.assign (.name "top") (value 5 (by decide)))) .nil)))

theorem jumpless_program_halts_overwriting :
    ∃ emission, Compiler.compile Grammar.programScheme overwriting 400 = some (.ok emission) ∧
      overwritingTree.WrittenBy overwriting ∧ Statement.gotosAll overwritingTree.statements = [] ∧
      let machine := Machine.boot emission.program 8 .none (.printed #[])
      (∀ n m m', Machine.run n machine = .ok () m → m.running = true → m.step = .ok () m' →
        m.counter < m'.counter) ∧
      Ended (Machine.run emission.program.code.size machine) := by
  obtain ⟨emission, compiled, _⟩ := exists_emission (p := fun _ => True) overwriting 400
    (by decide +kernel)
  have written : overwritingTree.WrittenBy overwriting :=
    ⟨overwritingTokens, by cbv, overwriting_reads⟩
  obtain ⟨_, halts⟩ := jumpless_program_halts compiled
  exact ⟨emission, compiled, written, rfl, halts overwritingTree written rfl 8 .none (.printed #[])⟩

end Pushdown
