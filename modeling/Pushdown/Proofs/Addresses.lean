import Mathlib
import Pushdown.Proofs.Execution

/-! Machines of 64-bit words. Addresses are words, and the code is short enough that its places are words
too. What a machine computes and reads are never addresses, so all addresses that it comes to hold were
in the program; the places that it jumps to are therefore words, and so is the counter in every state
that it can reach. -/
namespace Pushdown

/-- Cells whose address, if they are one, is a word. -/
def Cell.InWord : Cell → Prop
  | .address a => a < 2 ^ 64
  | _ => True

/-- Programs as they fit into a computer. -/
structure Program.InWords (p : Program) : Prop where
  code_size : p.code.size < 2 ^ 63
  code : ∀ c ∈ p.code, c.InWord
  data : ∀ c ∈ p.data.cells, c.InWord

namespace Cell

theorem inWord_ofDataWord (word : String) : (ofDataWord word).InWord := by
  unfold ofDataWord
  split
  · trivial
  · cases Value.ofWord word <;> trivial

theorem inWord_negate {c result : Cell} (negated : c.negate = .ok result) : result.InWord := by
  unfold negate at negated
  split at negated <;> cases negated <;> trivial

end Cell

theorem Arithmetic.inWord_onNumbers {op : Arithmetic} {l r : Number} {result : Cell}
    (computed : op.onNumbers l r = .ok result) : result.InWord := by
  unfold onNumbers at computed
  split at computed
  · rename_i l r
    cases outcome : op.onInts l r <;> rw [outcome] at computed <;> cases computed
    trivial
  · cases outcome : op.onReals l.toReal r.toReal <;> rw [outcome] at computed <;> cases computed
    trivial

theorem Arithmetic.inWord_apply {op : Arithmetic} {l r result : Cell}
    (computed : op.apply l r = .ok result) : result.InWord := by
  unfold apply at computed
  split at computed
  · cases computed
    trivial
  · split at computed
    · exact inWord_onNumbers computed
    · cases computed

theorem Memory.inWord_put {m : Memory} {address : Nat} {cell : Cell}
    (words : ∀ c ∈ m.cells, c.InWord) (word : cell.InWord) :
    ∀ c ∈ (m.put address cell).cells, c.InWord := by
  intro c member
  rcases Array.mem_or_eq_of_mem_setIfInBounds member with padded | rfl
  · rcases Array.mem_append.mp padded with old | new
    · exact words c old
    · rw [(Array.mem_replicate.mp new).2]
      trivial
  · exact word

namespace Machine

/-- Machines whose counter is a word, and whose cells are in words. -/
structure InWords (m : Machine) : Prop where
  code_size : m.code.size < 2 ^ 63
  code : ∀ c ∈ m.code, c.InWord
  initial : ∀ c ∈ m.initial.cells, c.InWord
  memory : ∀ c ∈ m.memory.cells, c.InWord
  stack : ∀ c ∈ m.stack, c.InWord
  counter : m.counter < 2 ^ 64

theorem location_lt {cell : Cell} {place : Nat} (word : cell.InWord)
    (located : location cell = .ok place) : place < 2 ^ 64 := by
  cases cell with
  | address a =>
    cases located
    exact word
  | int n =>
    have bound := n.toInt_lt
    simp only [location] at located
    split at located
    · cases located
      omega
    · cases located
  | opcode | real | text | unset => cases located

variable {α β : Type} {p : α → Prop} {q : β → Prop}

/-- Actions that keep a machine in words, and what is said of their results. -/
def KeepsWords (post : α → Prop) (act : Action α) : Prop :=
  ∀ m, m.InWords → match act m with
    | .ok a m' => m'.InWords ∧ post a
    | .error _ m' => m'.InWords

namespace KeepsWords

theorem pure {a : α} (holds : p a) : KeepsWords p (pure a) :=
  fun _ words => ⟨words, holds⟩

theorem bind {act : Action α} {rest : α → Action β} (first : KeepsWords p act)
    (second : ∀ a, p a → KeepsWords q (rest a)) : KeepsWords q (act >>= rest) := by
  intro m words
  have kept := first m words
  simp only [Bind.bind, EStateM.bind]
  cases done : act m with
  | ok a m' =>
    rw [done] at kept
    exact second a kept.2 m' kept.1
  | error kind m' =>
    rw [done] at kept
    exact kept

theorem attempt {outcome : Except FaultKind α} (sound : ∀ a, outcome = .ok a → p a) :
    KeepsWords p (attempt outcome) := by
  cases outcome with
  | ok a => exact .pure (sound a rfl)
  | error kind => exact fun _ words => words

/-- The error of an operation of a part of the machine becomes a fault. -/
theorem attempt_mapError {ε : Type} {fault : ε → FaultKind} {outcome : Except ε α}
    (sound : ∀ a, outcome = .ok a → p a) : KeepsWords p (Machine.attempt (outcome.mapError fault)) := by
  refine .attempt fun a succeeded => ?_
  cases outcome with
  | ok b =>
    cases succeeded
    exact sound a rfl
  | error e => cases succeeded

theorem location {place : Cell} (word : place.InWord) :
    KeepsWords (· < 2 ^ 64) (Machine.attempt (location place)) :=
  .attempt fun _ located => location_lt word located

theorem push {cell : Cell} (word : cell.InWord) : KeepsWords (fun _ => True) (push cell) := by
  intro m words
  exact ⟨{ words with stack := List.forall_mem_cons.mpr ⟨word, words.stack⟩ }, trivial⟩

theorem pop (op : Opcode) : KeepsWords Cell.InWord (pop op) := by
  rintro ⟨code, initial, memory, stack, counter, running, input, output⟩ words
  cases stack with
  | nil => exact words
  | cons cell rest =>
    obtain ⟨word, below⟩ := List.forall_mem_cons.mp words.stack
    exact ⟨{ words with stack := below }, word⟩

theorem fetch (place : Cell) : KeepsWords (fun _ => True) (fetch place) := by
  refine .bind (p := fun _ => True) (.attempt fun _ _ => trivial) fun address _ => ?_
  intro m words
  have loaded (cell : Cell) (found : m.memory.load address = .ok cell) : cell.InWord := by
    unfold Memory.load at found
    split at found
    · cases found
    · split at found <;> cases found
      exact words.memory cell (Array.mem_of_getElem? ‹_›)
  exact KeepsWords.bind (.attempt_mapError loaded) (fun _ => .push) m words

theorem store (place : Cell) {cell : Cell} (word : cell.InWord) :
    KeepsWords (fun _ => True) (store place cell) := by
  refine .bind (p := fun _ => True) (.attempt fun _ _ => trivial) fun address _ => ?_
  intro m words
  rw [bind_get]
  cases m.memory.refusal? address with
  | some error => exact words
  | none => exact ⟨{ words with memory := Memory.inWord_put words.memory word }, trivial⟩

theorem combine {f : Cell → Cell → Except OperandError Cell} {l r : Cell}
    (sound : ∀ c, f l r = .ok c → c.InWord) : KeepsWords (fun _ => True) (combine f l r) :=
  .bind (.attempt_mapError sound) fun _ => .push

theorem binary (op : Opcode) {f : Cell → Cell → Except OperandError Cell}
    (sound : ∀ l r c, f l r = .ok c → c.InWord) : KeepsWords (fun _ => True) (binary op f) :=
  .bind (.pop op) fun _ _ => .bind (.pop op) fun _ _ => .combine (sound _ _)

theorem relate (op : Opcode) (relation : Logic) : KeepsWords (fun _ => True) (relate op relation) := by
  refine .binary op fun l r c related => ?_
  cases truth : relation.apply l r <;> rw [truth] at related <;> cases related
  trivial

theorem readLine : KeepsWords (fun _ => True) readLine := by
  rintro ⟨code, initial, memory, stack, counter, running, ⟨pending⟩, output⟩ words
  rcases pending with _ | ⟨e | line, pending⟩
  · exact words
  · exact { words with }
  · exact ⟨{ words with }, trivial⟩

theorem perform (op : Opcode) {operand : Cell} (word : operand.InWord) :
    KeepsWords (fun _ => True) (perform op operand) := by
  cases op with
  | quit => exact fun m words => ⟨{ words with }, trivial⟩
  | literal => exact .push word
  | load => exact .fetch _
  | store => exact .bind (.pop _) fun _ => .store _
  | loadAt => exact .bind (.pop _) fun _ _ => .fetch _
  | storeAt => exact .bind (.pop _) fun _ value => .bind (.pop _) fun _ _ => .store _ value
  | add | sub | mul | div => exact .binary _ fun _ _ _ => Arithmetic.inWord_apply
  | eq | lt | gt | ne | le | ge | and | or => exact .relate _ _
  | neg =>
    refine .bind (.pop _) fun _ _ => .bind (.attempt_mapError ?_) fun _ => .push
    exact fun _ => Cell.inWord_negate
  | not => exact .bind (.pop _) fun _ _ => .push trivial
  | input => exact .bind .readLine fun _ _ => .push (Cell.inWord_ofDataWord _)
  | output => exact .bind (.pop _) fun _ _ m words => ⟨{ words with }, trivial⟩
  | increment | decrement =>
    exact .bind (.pop _) fun _ _ => .combine fun _ => Arithmetic.inWord_apply
  | jump | jumpTo | jumpUnless => exact .pure trivial

theorem execute {i : Instruction} (operand : i.operand.InWord) (next : i.next < 2 ^ 64) :
    KeepsWords (· < 2 ^ 64) (execute i) := by
  obtain ⟨op, cell, place⟩ := i
  cases op with
  | jump => exact .bind (.pop _) fun _ => .location
  | jumpTo => exact .location operand
  | jumpUnless =>
    refine .bind (.pop _) fun target there => .bind (.pop _) fun condition _ => ?_
    split
    · exact .pure next
    · exact .location there
  | _ => exact .bind (.perform _ operand) fun _ _ => .pure next

end KeepsWords

/-- A decoded instruction lies in the code as a whole, so the place behind it is a word. -/
theorem InWords.decoded {m : Machine} {i : Instruction} (words : m.InWords)
    (decoded : decode m.code m.counter = .ok i) : i.operand.InWord ∧ i.next < 2 ^ 64 := by
  have bound := words.code_size
  have inCode {place : Nat} {cell : Cell} (fetched : Program.fetch? m.code place = some cell) :
      cell.InWord := by
    unfold Program.fetch? at fetched
    split at fetched
    · cases fetched
    · exact words.code cell (Array.mem_of_getElem? fetched)
  unfold decode at decoded
  split at decoded
  · cases decoded
  · rename_i op here
    have inside := (Program.fetch?_bounds here).2
    split at decoded
    · split at decoded
      · cases decoded
      · rename_i operand behind
        cases decoded
        exact ⟨inCode behind, by dsimp only; omega⟩
    · cases decoded
      exact ⟨trivial, by dsimp only; omega⟩
  · cases decoded

theorem KeepsWords.cycle : KeepsWords (· < 2 ^ 64) cycle := by
  intro m words
  have decoded : KeepsWords (fun i : Instruction => i.operand.InWord ∧ i.next < 2 ^ 64)
      (Machine.attempt (decode m.code m.counter)) :=
    .attempt fun _ => words.decoded
  exact KeepsWords.bind decoded (fun _ proper => .execute proper.1 proper.2) m words

/-- The machine after a step, whether or not it faulted. -/
def afterStep (m : Machine) : Machine :=
  match step m with
  | .ok _ m' | .error _ m' => m'

theorem InWords.afterStep {m : Machine} (words : m.InWords) : m.afterStep.InWords := by
  unfold Machine.afterStep step
  cases m.running with
  | false => exact words
  | true =>
    have kept := KeepsWords.cycle m words
    cases cycled : cycle m with
    | ok next m' =>
      rw [cycled] at kept
      exact { kept.1 with counter := kept.2 }
    | error kind m' =>
      rw [cycled] at kept
      exact { kept with }

/-- States that a machine comes to by steps and resets. -/
inductive Reachable (start : Machine) : Machine → Prop
  | start : Reachable start start
  | step {m : Machine} : Reachable start m → Reachable start m.afterStep
  | reset {m : Machine} : Reachable start m → Reachable start m.reset

theorem Reachable.inWords {start m : Machine} (reachable : Reachable start m) (words : start.InWords) :
    m.InWords := by
  induction reachable with
  | start => exact words
  | step _ ih => exact ih.afterStep
  | reset _ ih =>
    exact { ih with
      memory := ih.initial
      stack := fun _ member => absurd member List.not_mem_nil
      counter := Nat.one_lt_two_pow (Nat.succ_ne_zero 63) }

theorem load_inWords {program : Program} (words : program.InWords) (input : Input) (output : Output) :
    (load program input output).InWords where
  code_size := words.code_size
  code := words.code
  initial := words.data
  memory := words.data
  stack _ member := absurd member List.not_mem_nil
  counter := Nat.one_lt_two_pow (Nat.succ_ne_zero 63)

end Machine

end Pushdown
