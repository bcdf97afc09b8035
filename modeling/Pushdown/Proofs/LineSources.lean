import Mathlib
import Pushdown.Proofs.Capacity
import Pushdown.Proofs.Likeness
import Pushdown.Proofs.Streams

/-! Two sources of the same lines. Lines are given as they are, or as a text in which a line feed stands
behind each. A stream takes carriage returns off with the line feed, but the machine strips what it reads,
and these are blank. So it goes through the same states with either source. -/
namespace Pushdown

namespace Input

theorem read_unlines_nil : (ofText (Text.unlines [])).read = (.ok .none, ofText (Text.unlines [])) := by
  have ended : ofText (Text.unlines []) = ⟨[]⟩ := congrArg mk (Text.streamLines_unlines nofun)
  rw [ended]
  rfl

theorem read_unlines_cons {line : String} {later : List String}
    (flat : ∀ l ∈ line :: later, '\n' ∉ l.toList) :
    (ofText (Text.unlines (line :: later))).read =
      (.ok (some (Text.chomp (line ++ "\n"))), ofText (Text.unlines later)) := by
  obtain ⟨_, others⟩ := List.forall_mem_cons.mp flat
  simp only [ofText, ofBytes, Text.streamLines_unlines flat, Text.streamLines_unlines others]
  rfl

end Input

namespace Machine

variable {α β : Type} {lines : List String}

theorem input_of_read {m : Machine} {line : String} {rest : Input}
    (read : m.input.read = (.ok (some line), rest)) :
    (do push (.ofDataWord (Text.strip (← readLine))) : Action Unit) m =
      .ok () { m with input := rest, stack := .ofDataWord (Text.strip line) :: m.stack } := by
  have line : readLine m = .ok line { m with input := rest } := by
    rw [readLine, bind_get, read]
    rfl
  simp only [bind, EStateM.bind, line]
  rfl

theorem input_at_end {m : Machine} {rest : Input} (read : m.input.read = (.ok none, rest)) :
    (do push (.ofDataWord (Text.strip (← readLine))) : Action Unit) m = .error .endOfInput m := by
  have fault : readLine m = .error .endOfInput m := by
    rw [readLine, bind_get, read]
    rfl
  simp only [bind, EStateM.bind, fault]

/-- Machines in the same state, which have the same of the lines still to read: one as they are, the other
as a text. -/
inductive Resupplied (lines : List String) : Machine → Machine → Prop
  | intro (m : Machine) {rest : List String} (left : rest <:+ lines) : Resupplied lines
    { m with input := .ofLines rest } { m with input := .ofText (Text.unlines rest) }

/-- Actions that do the same with either source. -/
def Indifferent (lines : List String) (act : Action α) : Prop :=
  ∀ m n, Resupplied lines m n → Accord Eq Eq (Resupplied lines) (act m) (act n)

namespace Indifferent

theorem pure (a : α) : Indifferent lines (pure a) := fun _ _ resupplied => .ok rfl resupplied

theorem bind {act : Action α} {rest : α → Action β} (first : Indifferent lines act)
    (second : ∀ a, Indifferent lines (rest a)) : Indifferent lines (act >>= rest) := by
  intro m n resupplied
  refine (first m n resupplied).bind ?_
  rintro a _ m n rfl resupplied
  exact second a m n resupplied

theorem attempt (outcome : Except FaultKind α) : Indifferent lines (attempt outcome) := by
  intro m n resupplied
  cases outcome with
  | ok a => exact .ok rfl resupplied
  | error kind => exact .error rfl resupplied

theorem push (cell : Cell) : Indifferent lines (push cell) := by
  rintro _ _ ⟨m, left⟩
  exact .ok rfl (.intro { m with stack := cell :: m.stack } left)

theorem pop (op : Opcode) : Indifferent lines (pop op) := by
  rintro _ _ ⟨m, left⟩
  obtain ⟨code, initial, memory, stack, counter, running, input, output⟩ := m
  cases stack with
  | nil => exact .error rfl (.intro ⟨code, initial, memory, [], counter, running, input, output⟩ left)
  | cons cell rest =>
    exact .ok rfl (.intro ⟨code, initial, memory, rest, counter, running, input, output⟩ left)

theorem fetch (place : Cell) : Indifferent lines (fetch place) := by
  refine .bind (.attempt _) fun a => ?_
  rintro _ _ ⟨m, left⟩
  exact Indifferent.bind (.attempt _) .push _ _ (.intro m left)

theorem store (place cell : Cell) : Indifferent lines (store place cell) := by
  refine .bind (.attempt _) fun a => ?_
  rintro _ _ ⟨m, left⟩
  rw [bind_get, bind_get]
  dsimp only
  cases m.memory.refusal? a with
  | some error => exact .error rfl (.intro m left)
  | none => exact .ok rfl (.intro { m with memory := m.memory.put a cell } left)

/-- Either source gives the next line up to blanks, or is at its end. -/
theorem input (flat : ∀ line ∈ lines, '\n' ∉ line.toList) :
    Indifferent lines (do Machine.push (.ofDataWord (Text.strip (← readLine)))) := by
  intro _ _ resupplied
  cases resupplied with
  | @intro m rest left =>
    cases rest with
    | nil =>
      rw [input_at_end rfl, input_at_end Input.read_unlines_nil]
      exact .error rfl (.intro m left)
    | cons line later =>
      have ahead : ∀ l ∈ line :: later, '\n' ∉ l.toList := fun l member => flat l (left.subset member)
      have same : Text.strip (Text.chomp (line ++ "\n")) = Text.strip line := by
        rw [Text.strip_chomp, Text.strip_append_lineFeed]
      rw [input_of_read rfl, input_of_read (Input.read_unlines_cons ahead), same]
      exact .ok rfl (.intro { m with stack := .ofDataWord (Text.strip line) :: m.stack }
        ((List.suffix_cons line later).trans left))

theorem compositional (flat : ∀ line ∈ lines, '\n' ∉ line.toList) :
    Compositional (Indifferent lines) where
  pure := .pure
  bind := .bind
  attempt := .attempt
  push := .push
  pop := .pop
  fetch := .fetch
  store := .store
  input := .input flat
  print cell := by
    rintro _ _ ⟨m, left⟩
    exact .ok rfl (.intro { m with output := m.output.write cell } left)
  stop := by
    rintro _ _ ⟨m, left⟩
    exact .ok rfl (.intro { m with running := false } left)

theorem cycle (flat : ∀ line ∈ lines, '\n' ∉ line.toList) : Indifferent lines cycle := by
  rintro _ _ ⟨m, left⟩
  exact Indifferent.bind (.attempt _) (compositional flat).execute _ _ (.intro m left)

end Indifferent

theorem Resupplied.simulation (flat : ∀ line ∈ lines, '\n' ∉ line.toList) :
    Simulation Eq (Resupplied lines) where
  counter := by
    rintro _ _ ⟨m, left⟩
    rfl
  running := by
    rintro _ _ ⟨m, left⟩
    rfl
  moved := by
    rintro _ _ place ⟨m, left⟩
    exact .intro { m with counter := place } left
  stopped := by
    rintro _ _ ⟨m, left⟩
    exact .intro { m with running := false } left
  cycle resupplied := Indifferent.cycle flat _ _ resupplied

end Machine

open Machine

/-- With lines that are given as they are and with the text in which a line feed stands behind each, a
program goes through the same states, prints the same lines and ends or faults alike. -/
theorem line_sources_agree (p : Program) (capacity : Nat) (output : Output) {lines : List String}
    (flat : ∀ line ∈ lines, '\n' ∉ line.toList) (steps : Nat) :
    ∃ (m : Machine) (rest : List String), rest <:+ lines ∧
      (run steps (boot p capacity (.ofLines lines) output) = .ok () { m with input := .ofLines rest } ∧
        run steps (boot p capacity (.ofText (Text.unlines lines)) output) =
          .ok () { m with input := .ofText (Text.unlines rest) } ∨
      ∃ f,
        run steps (boot p capacity (.ofLines lines) output) = .error f { m with input := .ofLines rest } ∧
        run steps (boot p capacity (.ofText (Text.unlines lines)) output) =
          .error f { m with input := .ofText (Text.unlines rest) }) := by
  have resupplied : Resupplied lines (boot p capacity (.ofLines lines) output)
      (boot p capacity (.ofText (Text.unlines lines)) output) :=
    .intro (boot p capacity .none output) (List.suffix_refl lines)
  have outcome := (Resupplied.simulation flat).run resupplied steps
  generalize run steps (boot p capacity (.ofLines lines) output) = x at outcome ⊢
  generalize run steps (boot p capacity (.ofText (Text.unlines lines)) output) = y at outcome ⊢
  cases outcome with
  | ok _ after =>
    obtain ⟨m, left⟩ := after
    exact ⟨m, _, left, .inl ⟨rfl, rfl⟩⟩
  | @error f g _ _ same after =>
    obtain ⟨m, left⟩ := after
    have faults : f = g := by
      cases f
      cases g
      simpa using same
    exact ⟨m, _, left, .inr ⟨f, rfl, faults ▸ rfl⟩⟩

/-- Prints each line that it reads. -/
def echo : Program where
  code := #[.opcode .input, .opcode .output, .opcode .jumpTo, .int 1]

def motleyLines : List String := ["12\r", "", " a\rb\r\r"]

theorem line_sources_agree_echo :
    (∀ line ∈ motleyLines, '\n' ∉ line.toList) ∧
      ∃ f m m', run 10 (boot echo 0 (.ofLines motleyLines) (.printed #[])) = .error f m ∧
        f.kind = .endOfInput ∧ m.output = .printed #["12", "", "a\rb"] ∧
        run 10 (boot echo 0 (.ofText "12\r\n\n a\rb\r\r\n") (.printed #[])) = .error f m' ∧
        m'.output = m.output := by
  have flat : ∀ line ∈ motleyLines, '\n' ∉ line.toList := by decide
  have echoed : run 10 (boot echo 0 (.ofLines motleyLines) (.printed #[])) = .error ⟨1, .endOfInput⟩
      { boot echo 0 .none (.printed #["12", "", "a\rb"]) with running := false } := by cbv
  have text : Text.unlines motleyLines = "12\r\n\n a\rb\r\r\n" := by decide
  obtain ⟨m, rest, left, ended | ⟨f, given, read⟩⟩ :=
    line_sources_agree echo 0 (.printed #[]) flat 10
  · rw [echoed] at ended
    cases ended.1
  · rw [text] at read
    rw [echoed] at given
    obtain ⟨rfl, state⟩ := EStateM.Result.error.inj given
    have printed : .printed #["12", "", "a\rb"] = m.output := congrArg Machine.output state
    exact ⟨flat, _, _, _, echoed, rfl, rfl, read, printed.symm⟩

end Pushdown
