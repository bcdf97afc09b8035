import Mathlib
import Pushdown.Proofs.Effects
import Pushdown.Proofs.Location

/-! Compilation of control flow. What the interpreter has still to do stands in the code as one piece
from the program counter to the end; the interpreter and the machine therefore go on side by side. A
step of the interpreter may take no step of the machine, but not forever, since only a jump makes what
is to be done longer. -/
namespace Pushdown

namespace Machine

variable {m : Machine} {rest : List Cell}

theorem quit_leads (running : m.running = true)
    (lies : Lies m.code m.counter (.opcode .quit :: rest)) :
    Leads 1 m { m with running := false, counter := m.counter + 1 } :=
  .of_execute running (decode_plain lies rfl) rfl

theorem literal_leads {v : Cell} (running : m.running = true)
    (lies : Lies m.code m.counter (.opcode .literal :: v :: rest)) :
    Leads 1 m { m with stack := v :: m.stack, counter := m.counter + 2 } :=
  .of_execute running (decode_operand lies rfl) rfl

theorem jumpUnless_leads {t : Nat} {holds : Bool} {stack : Stack Cell} (running : m.running = true)
    (top : m.stack = .address t :: .ofBool holds :: stack)
    (lies : Lies m.code m.counter (.opcode .jumpUnless :: rest)) :
    Leads 1 m { m with stack := stack, counter := if holds then m.counter + 1 else t } := by
  have executed := execute_jumpUnless (m.counter + 1) top
  have same : (Cell.ofBool holds).holds = holds := by cases holds <;> rfl
  rw [same] at executed
  exact .of_execute running (decode_plain lies rfl) executed

/-- The cell that a jump goes through is on the stack before the jump. -/
theorem fetch_leads {a : Nat} {cell : Cell} (running : m.running = true)
    (lies : Lies m.code m.counter (.opcode .literal :: .address a :: .opcode .loadAt :: rest))
    (loaded : m.memory.load a = .ok cell) :
    Leads 2 m { m with stack := cell :: m.stack, counter := m.counter + 3 } := by
  have executed := execute_loadAt
    (m := { m with stack := .address a :: m.stack, counter := m.counter + 2 }) (m.counter + 3) rfl
    (Memory.read_address loaded)
  exact (literal_leads running lies).trans
    (.of_execute running (decode_plain lies.2.2 rfl) executed)

theorem goto_leads {a t : Nat} (running : m.running = true)
    (lies : Lies m.code m.counter
      (.opcode .literal :: .address a :: .opcode .loadAt :: .opcode .jump :: rest))
    (loaded : m.memory.load a = .ok (.address t)) : Leads 3 m { m with counter := t } := by
  have executed := execute_jump
    (m := { m with stack := .address t :: m.stack, counter := m.counter + 3 }) (m.counter + 4) rfl
  exact (fetch_leads running lies loaded).trans
    (.of_execute running (decode_plain lies.2.2.2 rfl) executed)

theorem goto_faults {a : Nat} (running : m.running = true)
    (lies : Lies m.code m.counter
      (.opcode .literal :: .address a :: .opcode .loadAt :: .opcode .jump :: rest))
    (loaded : m.memory.load a = .ok .unset) :
    m.Arrives (.error (.invalidAddress .unset, m.world)) := by
  have executed := execute_jump
    (m := { m with stack := .unset :: m.stack, counter := m.counter + 3 }) (m.counter + 4) rfl
  have faults := (fetch_leads running lies loaded).faults
    (.of_execute running (decode_plain lies.2.2.2 rfl) executed)
  exact ⟨_, _, _, faults, rfl⟩

/-- A condition and the branch behind it. -/
theorem branch_arrives (address : String → Nat) (c : Condition) {t : Nat} (running : m.running = true)
    (lies : Lies m.code m.counter
      (c.code address ++ .opcode .literal :: .address t :: .opcode .jumpUnless :: rest)) :
    match c.eval address m.memory with
    | .ok holds => ∃ n, Leads (n + 2) m
        { m with counter := if holds then m.counter + (c.size + 3) else t }
    | .error kind => m.Arrives (.error (kind, m.world)) := by
  obtain ⟨front, back⟩ := lies_append.mp lies
  rw [Condition.length_code] at back
  have first := c.arrives address running front
  cases evaluated : c.eval address m.memory with
  | error kind =>
    rw [evaluated] at first
    exact first
  | ok holds =>
    rw [evaluated] at first
    obtain ⟨n, first⟩ := first
    have second := literal_leads
      (m := { m with stack := .ofBool holds :: m.stack, counter := m.counter + c.size }) running back
    have third := jumpUnless_leads
      (m := { m with
        stack := .address t :: .ofBool holds :: m.stack
        counter := m.counter + c.size + 2 }) running rfl back.2.2
    exact ⟨n, first.trans (second.trans third)⟩

end Machine

open Machine Statement

variable {address : String → Nat} {program todo rest : List Statement} {s : Statement} {w : Walk}
  {m m' : Machine}

/-- The interpreter and the machine are at the same point of a program. -/
structure Beside (address : String → Nat) (program : List Statement) (w : Walk) (m : Machine) :
    Prop where
  prepared : Prepared address program m
  spares : ∀ n, m.Spares (jumpCells address program) n
  running : m.running = w.running
  world : m.world = w.world
  here : m.running = true →
    m.stack = [] ∧ Located m.code address (namesAll program) m.counter w.rest

/-- The machine comes to where a step of the interpreter comes. If it takes no step for that, there is
less to do than before. -/
def Matches (address : String → Nat) (program todo : List Statement) (m : Machine) :
    EStateM.Result FaultKind Walk Unit → Prop
  | .ok _ w => ∃ n m', Leads n m m' ∧ Beside address program w m' ∧
      (n = 0 → sizeOf w.rest < sizeOf todo)
  | .error kind w => m.Arrives (.error (kind, w.world))

namespace Beside

theorem matches_leads {n : Nat} (beside : Beside address program w m) (w' : Walk)
    (leads : Leads n m m') (running : m'.running = w'.running) (world : m'.world = w'.world)
    (here : m'.running = true →
      m'.stack = [] ∧ Located m.code address (namesAll program) m'.counter w'.rest)
    (less : n = 0 → sizeOf w'.rest < sizeOf w.rest) :
    Matches address program w.rest m (.ok () w') := by
  obtain ⟨prepared, code⟩ := beside.prepared.run (beside.spares n) leads.run_eq
  have spares (k : Nat) := leads.spares (beside.spares (n + k))
  exact ⟨n, m', leads, ⟨prepared, spares, running, world, code ▸ here⟩, less⟩

theorem quit (beside : Beside address program w m) (running : m.running = true) {cells : List Cell}
    (lies : Lies m.code m.counter (.opcode .quit :: cells)) :
    Matches address program w.rest m (Walk.halt w) :=
  beside.matches_leads _ (quit_leads running lies) rfl beside.world nofun nofun

/-- Statements whose code does what they do. -/
theorem enacts {effect : World.Action Unit} (beside : Beside address program w m)
    (running : m.running = true) (ahead : w.rest = s :: rest)
    (enacts : Enacts (s.code address m.counter) effect) :
    Matches address program w.rest m ((do Walk.act effect; Walk.goOn rest) w) := by
  obtain ⟨empty, located⟩ := beside.here running
  rw [ahead] at located
  have lies := located.lies
  simp only [codeAll, List.append_assoc] at lies
  have arrives := enacts m running (lies_append.mp lies).1
  rw [beside.world, length_code] at arrives
  simp only [bind, EStateM.bind, Walk.act]
  cases result : effect w.world with
  | ok _ world =>
    rw [result] at arrives
    obtain ⟨n, leads⟩ := arrives
    refine beside.matches_leads _ leads beside.running rfl
      (fun _ => ⟨empty, located.tail⟩) fun _ => ?_
    rw [ahead]
    simp
  | error kind world =>
    rw [result] at arrives
    exact arrives

theorem act_test (address : String → Nat) (c : Condition) (w : Walk) :
    Walk.act (World.test address c) w = match c.eval address w.world.memory with
      | .ok holds => .ok holds w
      | .error kind => .error kind w := by
  rw [Walk.act, World.test, bind_get]
  cases c.eval address w.world.memory <;> rfl

theorem branch {c : Condition} {body : Statement} (beside : Beside address program w m)
    (running : m.running = true) (ahead : w.rest = .branch c body :: rest) :
    Matches address program w.rest m ((do
      if ← Walk.act (World.test address c) then Walk.goOn (body :: rest) else Walk.goOn rest) w) := by
  obtain ⟨empty, located⟩ := beside.here running
  rw [ahead] at located
  have lies := located.lies
  simp only [codeAll, Statement.code, List.append_assoc, List.cons_append, List.nil_append] at lies
  have arrives := branch_arrives address c running lies
  have memory : w.world.memory = m.memory := congrArg World.memory beside.world.symm
  simp only [bind, EStateM.bind, act_test, memory]
  cases evaluated : c.eval address m.memory with
  | error kind =>
    rw [evaluated, beside.world] at arrives
    exact arrives
  | ok holds =>
    rw [evaluated] at arrives
    obtain ⟨n, leads⟩ := arrives
    cases holds with
    | true =>
      exact beside.matches_leads { w with rest := body :: rest } leads beside.running
        beside.world (fun _ => ⟨empty, located.branch⟩) nofun
    | false =>
      exact beside.matches_leads { w with rest := rest } leads beside.running
        beside.world (fun _ => ⟨empty, located.tail⟩) nofun

theorem goto {x : String} (beside : Beside address program w m) (running : m.running = true)
    (ahead : w.rest = .goto x :: rest) :
    Matches address program w.rest m ((match seekAll x [] program with
      | some rest => Walk.goOn rest
      | none => throw (.invalidAddress .unset) : Walk.Action Unit) w) := by
  obtain ⟨empty, located⟩ := beside.here running
  rw [ahead] at located
  have lies := located.lies
  simp only [codeAll, Statement.code, List.cons_append, List.nil_append] at lies
  have named : x ∈ namesAll program := located.named x (by simp [namesAll, names])
  have label := beside.prepared.label named
  cases sought : seekAll x [] program with
  | none =>
    rw [sought] at label
    have faults := goto_faults running lies label
    rw [beside.world] at faults
    exact faults
  | some todo =>
    rw [sought] at label
    obtain ⟨place, loaded, target⟩ := label
    exact beside.matches_leads { w with rest := todo } (goto_leads running lies loaded)
      beside.running beside.world (fun _ => ⟨empty, target⟩) nofun

/-- Statements that have no code of their own. -/
theorem unfolds (beside : Beside address program w m) (running : m.running = true)
    (located : Located m.code address (namesAll program) m.counter todo)
    (less : sizeOf todo < sizeOf w.rest) :
    Matches address program w.rest m (Walk.goOn todo w) :=
  beside.matches_leads { w with rest := todo } (.refl m) beside.running beside.world
    (fun _ => ⟨(beside.here running).1, located⟩) fun _ => less

theorem step (beside : Beside address program w m) (running : m.running = true) :
    Matches address program w.rest m (Walk.step address program w) := by
  have stepped {todo : List Statement} (ahead : w.rest = todo) :
      Walk.step address program w = Walk.proceed address program todo w := by
    subst ahead
    rfl
  have located := (beside.here running).2
  cases ahead : w.rest with
  | nil =>
    rw [ahead] at located
    rw [← ahead, stepped ahead]
    exact beside.quit running located.lies
  | cons s rest =>
    rw [ahead] at located
    rw [← ahead, stepped ahead]
    cases s with
    | assign target value => exact beside.enacts running ahead (enacts_assign address target value)
    | put items => exact beside.enacts running ahead (.forM (enacts_print address) items)
    | get targets => exact beside.enacts running ahead (.forM (enacts_fill address) targets)
    | stop => exact beside.quit running located.lies
    | goto x => exact beside.goto running ahead
    | branch c body => exact beside.branch running ahead
    | group body =>
      refine beside.unfolds running located.group ?_
      rw [ahead]
      exact sizeOf_append_lt body rest
    | labelled x body =>
      refine beside.unfolds running located.labelled ?_
      rw [ahead]
      simp

end Beside

/-- Runs that have come to the same point, or to the same fault. -/
def Level (address : String → Nat) (program : List Statement) :
    EStateM.Result FaultKind Walk Unit → EStateM.Result Fault Machine Unit → Prop
  | .ok _ w, .ok _ m => Beside address program w m
  | .error kind w, .error fault m => fault.kind = kind ∧ m.world = w.world
  | _, _ => False

theorem Level.observe_eq {walked : EStateM.Result FaultKind Walk Unit}
    {ran : EStateM.Result Fault Machine Unit} (level : Level address program walked ran) :
    Walk.observe walked = Machine.observe ran := by
  cases walked with
  | ok _ w =>
    cases ran with
    | ok _ m => simp only [Walk.observe, Machine.observe, level.running, level.world]
    | error => exact level.elim
  | error kind w =>
    cases ran with
    | ok => exact level.elim
    | error fault m => simp only [Walk.observe, Machine.observe, level.1, level.2]

namespace Beside

/-- The machine comes to where the interpreter comes. -/
theorem forth (n : Nat) (beside : Beside address program w m) :
    ∃ k, Level address program (Walk.run address program n w) (Machine.run k m) := by
  induction n generalizing w m with
  | zero => exact ⟨0, beside⟩
  | succ n ih =>
    cases running : m.running with
    | false =>
      rw [Walk.run_stopped (beside.running ▸ running)]
      exact ⟨0, beside⟩
    | true =>
      have stepped := beside.step running
      rw [Walk.run_running (beside.running ▸ running)]
      cases result : Walk.step address program w with
      | error kind final =>
        rw [result] at stepped
        obtain ⟨k, place, target, faults, world⟩ := stepped
        refine ⟨k, ?_⟩
        rw [faults.run_eq]
        exact ⟨rfl, world⟩
      | ok _ next =>
        rw [result] at stepped
        obtain ⟨j, target, leads, onward, _⟩ := stepped
        obtain ⟨k, level⟩ := ih onward
        refine ⟨j + k, ?_⟩
        rw [leads]
        exact level

/-- However far the machine has come, it comes to a point where the interpreter comes. -/
theorem back (k : Nat) {w : Walk} {m : Machine} (beside : Beside address program w m) :
    ∃ n j, Level address program (Walk.run address program n w) (Machine.run (k + j) m) := by
  cases running : m.running with
  | false =>
    refine ⟨0, 0, ?_⟩
    rw [Machine.run_stopped running]
    exact beside
  | true =>
    have stepped := beside.step running
    have walking : w.running = true := beside.running ▸ running
    cases result : Walk.step address program w with
    | error kind final =>
      rw [result] at stepped
      obtain ⟨j, place, target, faults, world⟩ := stepped
      refine ⟨1, j, ?_⟩
      rw [Walk.run_running walking, result, Nat.add_comm, faults]
      exact ⟨rfl, world⟩
    | ok _ next =>
      rw [result] at stepped
      obtain ⟨i, target, leads, onward, less⟩ := stepped
      by_cases far : k = 0
      · subst far
        exact ⟨0, 0, beside⟩
      · obtain ⟨n, j, level⟩ := back (k - i) onward
        have sum : k + (i + (k - i + j) - k) = i + (k - i + j) := by omega
        refine ⟨n + 1, i + (k - i + j) - k, ?_⟩
        rw [Walk.run_running walking, result, sum, leads]
        exact level
termination_by (k, sizeOf w.rest)
decreasing_by
  -- either the machine takes a step, or there is less to do
  by_cases still : i = 0
  · subst still
    exact .right k (less rfl)
  · exact .left _ _ (by omega)

end Beside

theorem Machine.run_final {k : Nat} (j : Nat)
    (final : (Machine.observe (run k m)).status ≠ .running) : run (k + j) m = run k m := by
  rw [run_add]
  cases result : run k m with
  | error fault target => rfl
  | ok _ target =>
    rw [result] at final
    cases running : target.running with
    | true => exact absurd (by simp [Machine.observe, running]) final
    | false => exact run_stopped running j

/-- Runs of the interpreter and of the machine go through the same observations, and end alike. -/
structure SameRuns (address : String → Nat) (program : List Statement) (w : Walk) (m : Machine) :
    Prop where
  forth : ∀ n, ∃ k, Walk.observe (Walk.run address program n w) = Machine.observe (Machine.run k m)
  back : ∀ k, ∃ n j,
    Walk.observe (Walk.run address program n w) = Machine.observe (Machine.run (k + j) m)
  ends : ∀ o : Observation, o.status ≠ .running →
    ((∃ n, Walk.observe (Walk.run address program n w) = o) ↔
      ∃ k, Machine.observe (Machine.run k m) = o)

theorem Beside.sameRuns (beside : Beside address program w m) : SameRuns address program w m where
  forth n := by
    obtain ⟨k, level⟩ := beside.forth n
    exact ⟨k, level.observe_eq⟩
  back k := by
    obtain ⟨n, j, level⟩ := beside.back k
    exact ⟨n, j, level.observe_eq⟩
  ends o final := by
    constructor
    · rintro ⟨n, rfl⟩
      obtain ⟨k, level⟩ := beside.forth n
      exact ⟨k, level.observe_eq.symm⟩
    · rintro ⟨k, rfl⟩
      obtain ⟨n, j, level⟩ := beside.back k
      rw [Machine.run_final j final] at level
      exact ⟨n, level.observe_eq⟩

/-- A compiled program does on the machine what its statements say, as long as nothing is stored to the
cells of the names that are jumped to or stand as labels. -/
theorem compiled_program_runs_as_written {text : String} {budget : Nat} {emission : Emission}
    (compiled : Compiler.compile Grammar.programScheme text budget = some (.ok emission)) :
    (∃ source : Source, source.WrittenBy text) ∧
      ∀ source : Source, source.WrittenBy text → ∀ capacity input output,
        let address := emission.symbols.addressOf
        let machine := Machine.boot emission.program capacity input output
        (∀ n, machine.Spares (jumpCells address source.statements) n) →
          SameRuns address source.statements (.start source.statements machine.world) machine := by
  refine ⟨compile_written compiled, ?_⟩
  intro source written capacity input output address machine spares
  have prepared := (compile_placed compiled written).prepared capacity input output
  have beside : Beside address source.statements (.start source.statements machine.world) machine :=
    ⟨prepared, spares, rfl, rfl, fun _ => ⟨rfl, prepared.whole⟩⟩
  exact beside.sameRuns

/-- Prints the numbers from two downwards and then jumps to a label that is nowhere. -/
def countdown : String := "n = 2; :again: put n; n = n - 1; if n > 0 then goto again; goto out;"

open Token in
def countdownTokens : List Token :=
  [identifier "n", symbol "=", integer 2, symbol ";",
   symbol ":", identifier "again", symbol ":", symbol "$put", identifier "n", symbol ";",
   identifier "n", symbol "=", identifier "n", symbol "-", integer 1, symbol ";",
   symbol "$if", identifier "n", symbol ">", integer 0, symbol "$then",
   symbol "$goto", identifier "again", symbol ";", symbol "$goto", identifier "out", symbol ";"]

def countdownTree : Source where
  declarations := []
  statements :=
    [.assign (.address "n") (.literal 2),
     .labelled "again" (.put [.fetch (.address "n")]),
     .assign (.address "n") (.combine .sub (.fetch (.address "n")) (.literal 1)),
     .branch ⟨.gt, .fetch (.address "n"), .literal 0⟩ (.goto "again"),
     .goto "out"]

open Token in
theorem countdown_reads : Source.Reads countdownTokens countdownTree := by
  have count : Expr.Reads .sum [identifier "n"] (.fetch (.address "n")) :=
    .term (.factor (.variable (.name "n")))
  have positive : Condition.Reads [identifier "n", symbol ">", integer 0]
      ⟨.gt, .fetch (.address "n"), .literal 0⟩ :=
    .compare (List.mem_cons_of_mem _ (.head _)) count (.term (.factor (.literal 0 (by decide))))
  exact .statements (.cons (.plain (.assign (.name "n") (.term (.factor (.literal 2 (by decide))))))
    (.cons (.labelled "again" (.put (.one count)))
    (.cons (.plain (.assign (.name "n") (.minus count (.factor (.literal 1 (by decide))))))
    (.cons (.plain (.branch positive (.plain (.goto "again"))))
    (.cons (.plain (.goto "out")) .nil)))))

theorem countdown_written : countdownTree.WrittenBy countdown := by
  refine ⟨countdownTokens, by cbv, ?_⟩
  have whole : Token.upToEnd countdownTokens = countdownTokens := rfl
  rw [whole]
  exact countdown_reads

/-- A machine whose run has ended spares what it has spared until then. -/
theorem Machine.spares_of_final {cells : List Nat} {n : Nat} (spares : m.Spares cells n)
    (final : (Machine.observe (run n m)).status ≠ .running) (k : Nat) : m.Spares cells k := by
  intro j _ target a reached writes
  by_cases early : j < n
  · exact spares j early target a reached writes
  · obtain ⟨more, rfl⟩ := Nat.exists_eq_add_of_le (Nat.le_of_not_lt early)
    rw [run_final more final] at reached
    rw [reached] at final
    have stopped : target.running = false := by
      cases running : target.running with
      | false => rfl
      | true => exact absurd (by simp [Machine.observe, running]) final
    exact spares_of_stopped stopped cells 1 0 Nat.one_pos target a rfl writes

theorem compiled_program_runs_as_written_countdown :
    ∃ emission, Compiler.compile Grammar.programScheme countdown 400 = some (.ok emission) ∧
      let address := emission.symbols.addressOf
      let machine := Machine.boot emission.program 8 .none (.printed #[])
      (∀ n, machine.Spares (jumpCells address countdownTree.statements) n) ∧
        SameRuns address countdownTree.statements
          (.start countdownTree.statements machine.world) machine := by
  obtain ⟨emission, compiled, spares, final⟩ := exists_emission
    (p := fun emission =>
      let machine := Machine.boot emission.program 8 .none (.printed #[])
      machine.Spares (jumpCells emission.symbols.addressOf countdownTree.statements) 60 ∧
        (Machine.observe (Machine.run 60 machine)).status ≠ .running) countdown 400
    (by decide +kernel)
  have always := spares_of_final spares final
  obtain ⟨_, follows⟩ := compiled_program_runs_as_written compiled
  exact ⟨emission, compiled, always, follows countdownTree countdown_written 8 _ _ always⟩

end Pushdown
