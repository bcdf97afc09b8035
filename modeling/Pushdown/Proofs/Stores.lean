import Pushdown.Proofs.Execution
import Pushdown.Proofs.Memory

/-! What a step can change. The code stays as it is, and the memory changes only at the address that
the instruction stores to. -/
namespace Pushdown.Machine

/-- The address that a store to a place reaches, unless it is refused. -/
def target? (m : Machine) (place : Cell) : Option Nat :=
  match location place with
  | .ok a => if m.memory.refusal? a = none then some a else none
  | .error _ => none

/-- The address that the next step stores to, if it is a store that succeeds. -/
def writes? (m : Machine) : Option Nat :=
  if m.running then
    match decode m.code m.counter, m.stack with
    | .ok ⟨.storeAt, _, _⟩, _ :: place :: _ => m.target? place
    | .ok ⟨.store, place, _⟩, _ :: _ => m.target? place
    | _, _ => none
  else none

theorem pop_eq_ok {m m' : Machine} {op : Opcode} {v : Cell} (done : pop op m = .ok v m') :
    ∃ stack, m.stack = v :: stack ∧ m' = { m with stack := stack } := by
  obtain ⟨code, initial, memory, stack, counter, running, input, output⟩ := m
  cases stack with
  | nil => cases done
  | cons cell rest =>
    cases done
    exact ⟨rest, rfl, rfl⟩

/-- Actions that change neither code nor memory. -/
def Steady {α : Type} (act : Action α) : Prop :=
  ∀ m a m', act m = .ok a m' → m'.code = m.code ∧ m'.memory = m.memory

namespace Steady

variable {α β : Type}

theorem pure (a : α) : Steady (pure a) := by
  rintro m _ _ ⟨⟩
  exact ⟨rfl, rfl⟩

theorem bind {act : Action α} {rest : α → Action β} (first : Steady act)
    (second : ∀ a, Steady (rest a)) : Steady (act >>= rest) := by
  intro m b m'' done
  obtain ⟨a, m', firstDone, secondDone⟩ := bind_eq_ok done
  obtain ⟨code, memory⟩ := first m a m' firstDone
  obtain ⟨code', memory'⟩ := second a m' b m'' secondDone
  exact ⟨code'.trans code, memory'.trans memory⟩

theorem attempt (outcome : Except FaultKind α) : Steady (attempt outcome) := by
  cases outcome with
  | ok a => exact .pure a
  | error kind => rintro m _ _ ⟨⟩

theorem push (cell : Cell) : Steady (push cell) := by
  rintro m _ _ ⟨⟩
  exact ⟨rfl, rfl⟩

theorem pop (op : Opcode) : Steady (pop op) := by
  intro m v m' done
  obtain ⟨stack, _, rfl⟩ := pop_eq_ok done
  exact ⟨rfl, rfl⟩

theorem fetch (place : Cell) : Steady (fetch place) := by
  refine .bind (.attempt _) fun address => ?_
  intro m a m' done
  obtain ⟨_, _, ⟨⟩, done⟩ := bind_eq_ok done
  exact Steady.bind (.attempt _) (fun _ => .push _) m a m' done

theorem combine (f : Cell → Cell → Except OperandError Cell) (l r : Cell) :
    Steady (combine f l r) :=
  .bind (.attempt _) fun _ => .push _

theorem binary (op : Opcode) (f : Cell → Cell → Except OperandError Cell) : Steady (binary op f) :=
  .bind (.pop op) fun _ => .bind (.pop op) fun _ => .combine f _ _

theorem relate (op : Opcode) (relation : Logic) : Steady (relate op relation) := .binary op _

theorem readLine : Steady readLine := by
  rintro ⟨code, initial, memory, stack, counter, running, ⟨pending⟩, output⟩ line m' done
  cases pending with
  | nil => cases done
  | cons next rest =>
    cases next with
    | error e => cases done
    | ok line =>
      cases done
      exact ⟨rfl, rfl⟩

/-- All instructions but the two stores. -/
theorem perform {op : Opcode} (operand : Cell) (storeAt : op ≠ .storeAt) (store : op ≠ .store) :
    Steady (perform op operand) := by
  cases op with
  | storeAt => exact absurd rfl storeAt
  | store => exact absurd rfl store
  | quit =>
    rintro m _ _ ⟨⟩
    exact ⟨rfl, rfl⟩
  | literal => exact .push _
  | load => exact .fetch _
  | loadAt => exact .bind (.pop _) fun _ => .fetch _
  | add | sub | mul | div => exact .binary _ _
  | eq | lt | gt | ne | le | ge | and | or => exact .relate _ _
  | neg => exact .bind (.pop _) fun _ => .bind (.attempt _) fun _ => .push _
  | not => exact .bind (.pop _) fun _ => .push _
  | input => exact .bind .readLine fun _ => .push _
  | output =>
    refine .bind (.pop _) fun cell => ?_
    rintro m _ _ ⟨⟩
    exact ⟨rfl, rfl⟩
  | increment | decrement => exact .bind (.pop _) fun _ => .combine _ _ _
  | jump | jumpTo | jumpUnless => exact .pure ()

theorem execute {i : Instruction} (storeAt : i.op ≠ .storeAt) (store : i.op ≠ .store) :
    Steady (execute i) := by
  obtain ⟨op, operand, next⟩ := i
  unfold Machine.execute
  split
  · exact .bind (.pop _) fun _ => .attempt _
  · exact .attempt _
  · refine .bind (.pop _) fun target => .bind (.pop _) fun condition => ?_
    split
    · exact .pure _
    · exact .attempt _
  · exact .bind (.perform operand storeAt store) fun _ => .pure _

end Steady

theorem store_eq_ok {m m' : Machine} {place cell : Cell} (done : store place cell m = .ok () m') :
    ∃ a, m.target? place = some a ∧ m' = { m with memory := m.memory.put a cell } := by
  obtain ⟨a, _, located, done⟩ := bind_eq_ok done
  obtain ⟨_, _, ⟨⟩, done⟩ := bind_eq_ok done
  cases found : location place with
  | error kind =>
    rw [found] at located
    cases located
  | ok b =>
    rw [found] at located
    cases located
    cases refused : m.memory.refusal? a with
    | some error =>
      simp only [refused] at done
      cases done
    | none =>
      simp only [refused] at done
      cases done
      exact ⟨a, by simp [target?, found, refused], rfl⟩

/-- An instruction that stores, and succeeds, stores to the address that is written. -/
theorem execute_store {m m' : Machine} {i : Instruction} {next : Nat} (running : m.running = true)
    (decoded : decode m.code m.counter = .ok i) (stores : i.op = .storeAt ∨ i.op = .store)
    (done : execute i m = .ok next m') :
    ∃ a cell, m.writes? = some a ∧ m'.code = m.code ∧ m'.memory = m.memory.put a cell := by
  obtain ⟨op, operand, place⟩ := i
  rcases stores with rfl | rfl
  · obtain ⟨_, _, performed, ⟨⟩⟩ := bind_eq_ok done
    obtain ⟨cell, _, popped, performed⟩ := bind_eq_ok performed
    obtain ⟨rest, stack, rfl⟩ := pop_eq_ok popped
    obtain ⟨target, _, popped, performed⟩ := bind_eq_ok performed
    obtain ⟨below, rfl, rfl⟩ := pop_eq_ok popped
    obtain ⟨a, reached, rfl⟩ := store_eq_ok performed
    refine ⟨a, cell, ?_, rfl, rfl⟩
    simp only [writes?, running, if_true, decoded, stack]
    exact reached
  · obtain ⟨_, _, performed, ⟨⟩⟩ := bind_eq_ok done
    obtain ⟨cell, _, popped, performed⟩ := bind_eq_ok performed
    obtain ⟨rest, stack, rfl⟩ := pop_eq_ok popped
    obtain ⟨a, reached, rfl⟩ := store_eq_ok performed
    refine ⟨a, cell, ?_, rfl, rfl⟩
    simp only [writes?, running, if_true, decoded, stack]
    exact reached

/-- A step leaves the code alone, and the memory but for the address that it stores to. -/
theorem step_changes {m m' : Machine} (done : step m = .ok () m') :
    m'.code = m.code ∧
      (m'.memory = m.memory ∨ ∃ a cell, m.writes? = some a ∧ m'.memory = m.memory.put a cell) := by
  cases running : m.running with
  | false =>
    simp only [step, running, Bool.false_eq_true, if_false] at done
    cases done
    exact ⟨rfl, .inl rfl⟩
  | true =>
    simp only [step, running, if_true] at done
    cases cycled : cycle m with
    | error kind target =>
      rw [cycled] at done
      cases done
    | ok next target =>
      rw [cycled] at done
      cases done
      obtain ⟨_, _, ⟨⟩, cycled⟩ := bind_eq_ok cycled
      obtain ⟨i, _, decoding, executed⟩ := bind_eq_ok cycled
      cases decoded : decode m.code m.counter with
      | error kind =>
        rw [decoded] at decoding
        cases decoding
      | ok j =>
        rw [decoded] at decoding
        cases decoding
        by_cases stores : i.op = .storeAt ∨ i.op = .store
        · obtain ⟨a, cell, writes, code, memory⟩ := execute_store running decoded stores executed
          exact ⟨code, .inr ⟨a, cell, writes, memory⟩⟩
        · obtain ⟨storeAt, store⟩ := not_or.mp stores
          obtain ⟨code, memory⟩ := Steady.execute storeAt store _ _ _ executed
          exact ⟨code, .inl memory⟩

/-- None of the first steps stores to any of the cells. -/
def Spares (cells : List Nat) (n : Nat) (m : Machine) : Prop :=
  ∀ k < n, ∀ m' a, run k m = .ok () m' → m'.writes? = some a → a ∉ cells

theorem target?_positive {m : Machine} {place : Cell} {a : Nat} (reached : m.target? place = some a) :
    0 < a := by
  unfold target? at reached
  split at reached
  · split at reached
    · cases reached
      exact (Memory.refusal?_eq_none_iff.mp ‹_›).1
    · cases reached
  · cases reached

theorem writes?_positive {m : Machine} {a : Nat} (writes : m.writes? = some a) : 0 < a := by
  unfold writes? at writes
  split at writes
  · split at writes
    · exact target?_positive writes
    · exact target?_positive writes
    · cases writes
  · cases writes

theorem step_spares {cells : List Nat} {n : Nat} {m m' : Machine} (spares : m.Spares cells (n + 1))
    (running : m.running = true) (done : step m = .ok () m') : m'.Spares cells n := by
  intro k less final a reached
  refine spares (k + 1) (Nat.succ_lt_succ less) final a ?_
  rw [run_running running, done]
  exact reached

theorem spares_succ_iff {cells : List Nat} {n : Nat} {m : Machine} (running : m.running = true) :
    m.Spares cells (n + 1) ↔ (∀ a ∈ m.writes?, a ∉ cells) ∧
      match step m with
      | .ok _ m' => m'.Spares cells n
      | .error _ _ => True := by
  constructor
  · intro spares
    refine ⟨fun a => spares 0 (Nat.succ_pos n) m a rfl, ?_⟩
    cases stepped : step m with
    | error fault target => trivial
    | ok _ next => exact step_spares spares running stepped
  · rintro ⟨first, later⟩ k less final a reached writes
    cases k with
    | zero =>
      cases reached
      exact first a writes
    | succ k =>
      rw [run_running running] at reached
      cases stepped : step m with
      | error fault target =>
        rw [stepped] at reached
        cases reached
      | ok _ next =>
        rw [stepped] at reached later
        exact later k (Nat.lt_of_succ_lt_succ less) final a reached writes

theorem spares_of_stopped {m : Machine} (stopped : m.running = false) (cells : List Nat) (n : Nat) :
    m.Spares cells n := by
  intro k _ final a reached writes
  rw [run_stopped stopped] at reached
  cases reached
  simp [writes?, stopped] at writes

instance decidableSpares (cells : List Nat) (n : Nat) (m : Machine) : Decidable (m.Spares cells n) :=
  match n with
  | 0 => isTrue fun _ less => absurd less (Nat.not_lt_zero _)
  | n + 1 =>
    if running : m.running = true then
      have : Decidable (match step m with
          | .ok _ m' => m'.Spares cells n
          | .error _ _ => True) :=
        match step m with
        | .ok _ m' => decidableSpares cells n m'
        | .error _ _ => isTrue trivial
      decidable_of_iff _ (spares_succ_iff running).symm
    else isTrue (spares_of_stopped (Bool.eq_false_iff.mpr running) cells (n + 1))

theorem Leads.spares {cells : List Nat} {n k : Nat} {m target : Machine} (leads : Leads n m target)
    (spares : m.Spares cells (n + k)) : target.Spares cells k := by
  intro j less final a reached
  exact spares (n + j) (Nat.add_lt_add_left less n) final a ((leads j).trans reached)

/-- Cells that are spared keep their contents, and the code stays. -/
theorem run_spared {cells : List Nat} {n : Nat} {m m' : Machine} (spares : m.Spares cells n)
    (done : run n m = .ok () m') :
    m'.code = m.code ∧
      ∀ a ∈ cells, ∀ c, m.memory.load a = .ok c → m'.memory.load a = .ok c := by
  induction n generalizing m with
  | zero =>
    cases done
    exact ⟨rfl, fun _ _ _ loaded => loaded⟩
  | succ n ih =>
    cases running : m.running with
    | false =>
      rw [run_stopped running] at done
      cases done
      exact ⟨rfl, fun _ _ _ loaded => loaded⟩
    | true =>
      rw [run_running running] at done
      cases stepped : step m with
      | error fault target =>
        rw [stepped] at done
        cases done
      | ok _ next =>
        rw [stepped] at done
        obtain ⟨code, later⟩ := ih (step_spares spares running stepped) done
        obtain ⟨sameCode, memory⟩ := step_changes stepped
        refine ⟨code.trans sameCode, fun a member c loaded => later a member c ?_⟩
        rcases memory with same | ⟨b, cell, writes, changed⟩
        · rw [same]
          exact loaded
        · have other : a ≠ b := fun same =>
            spares 0 (Nat.succ_pos n) m b rfl writes (same ▸ member)
          rw [changed]
          exact Memory.load_put_of_ne other (writes?_positive writes) loaded

end Pushdown.Machine
