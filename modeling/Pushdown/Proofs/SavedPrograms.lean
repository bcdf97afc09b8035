import Pushdown.Proofs.Readiness
import Pushdown.Proofs.SavedCells

/-! Saved programs. The code and data of a compiled program are written to files cell by cell. The
program that is read back has integers where there were addresses, and nothing that it does shows the
difference. -/
namespace Pushdown

open Automaton Grammar Machine

variable {bound : Nat} {c : Cell}

theorem Cell.Emitted.isWord_render (emitted : c.Emitted bound) : Text.IsWord c.render.toList := by
  apply Cell.isWord_render
  rintro s rfl
  cases emitted

theorem Cell.Emitted.kin (emitted : c.Emitted bound) (fits : bound < 2 ^ 63) :
    Cell.Kin c (.ofCodeWord c.render) := by
  cases c with
  | opcode op =>
    rw [Cell.render, Cell.ofCodeWord, op.ofMnemonic?_mnemonic]
    exact .refl _
  | int n =>
    rw [Cell.ofCodeWord_of_readInt64 (Cell.readInt64_render_int n)]
    exact .refl _
  | real x => cases emitted
  | text s => cases emitted
  | address a =>
    obtain ⟨positive, within⟩ := emitted
    have small := Nat.lt_of_le_of_lt within fits
    rw [Cell.ofCodeWord_of_readInt64 (Cell.Kin.readInt64_render small)]
    exact .place positive small
  | unset => exact .refl _

theorem Cell.Marked.isWord_render (marked : c.Marked bound) : Text.IsWord c.render.toList := by
  apply Cell.isWord_render
  rintro s rfl
  cases marked

theorem Cell.Marked.kin (marked : c.Marked bound) (fits : bound < 2 ^ 63) :
    Cell.Kin c (.ofDataWord c.render) := by
  cases c with
  | address a =>
    obtain ⟨positive, within⟩ := marked
    have small := Nat.lt_of_le_of_lt within fits
    rw [Cell.ofDataWord_of_readInt64 (Cell.Kin.readInt64_render small)]
    exact .place positive small
  | unset => exact .refl _
  | opcode op => cases marked
  | int n => cases marked
  | real x => cases marked
  | text s => cases marked

theorem Cell.Kin.congruence : Cell.Congruence Cell.Kin where
  kin := id
  plain _ := .refl _
  join _ _ := .refl _

/-- The places of the code are numbers of a 64-bit word with sign, as they are for any code that fits in
the memory of a machine with 64-bit addresses. -/
def Program.Addressable (p : Program) : Prop := p.nextIndex < 2 ^ 63

instance (p : Program) : Decidable p.Addressable := inferInstanceAs (Decidable (_ < _))

/-- The program that is read from the files a program is saved to. -/
def Program.reread (p : Program) : Program := read (cellText p.code) (some (cellText p.data.cells))

theorem Machine.boot_reread_like {p : Program} (code : ∀ c ∈ p.code, c.Emitted bound)
    (data : ∀ c ∈ p.data.cells, c.Marked bound) (fits : bound < 2 ^ 63) (capacity : Nat)
    (input : Input) (output : Output) :
    Like Cell.Kin (boot p capacity input output) (boot p.reread capacity input output) := by
  have codeAligned : Cell.Aligned Cell.Kin p.code p.reread.code := by
    simp only [Program.reread, Program.read,
      Program.readCode_cellText fun c member => (code c member).isWord_render]
    exact .map fun c member => (code c member).kin fits
  have dataAligned : Cell.Aligned Cell.Kin p.data.cells p.reread.data.cells := by
    simp only [Program.reread, Program.read, Memory.ofCells, Option.map_some, Option.getD_some,
      Program.readData_cellText fun c member => (data c member).isWord_render]
    exact .map fun c member => (data c member).kin fits
  -- The capacity is raised to the number of cells if need be, which is the same for both.
  exact
    { code := codeAligned
      memory := ⟨dataAligned, congrArg (max capacity) dataAligned.size_eq⟩
      stack := .nil
      counter := rfl
      running := rfl
      input := rfl
      output := rfl
      lines := fun _ _ => .refl _ }

/-- All that is seen of two machines is the same: whether they run, what they have printed, what they
have still to read, and how the cells of their memories are written. -/
structure Machine.Resembles (m n : Machine) : Prop where
  running : m.running = n.running
  output : m.output = n.output
  input : m.input = n.input
  cells : m.memory.cells.map Cell.render = n.memory.cells.map Cell.render

theorem Machine.Like.resembles {R : Cell → Cell → Prop} {m n : Machine}
    (congruence : Cell.Congruence R) (like : Like R m n) : Resembles m n :=
  ⟨like.running, like.output, like.input, like.memory.cells.map_render_eq congruence⟩

/-- Whatever has been compiled holds cells that can be read back. -/
theorem compile_sound {text : String} {budget : Nat} {emission : Emission}
    (compiled : Compiler.compile programScheme text budget = some (.ok emission)) :
    ∃ e : Emitter, e.Sound ∧ e.program = emission.program := by
  obtain ⟨tokens, final, scanned, done, _, _, program⟩ := compile_run compiled
  have ready := Config.run_preserves (fun c _ ready => Config.Ready.cycle ready) budget _
    (Config.init_ready (Token.scan_shaped scanned))
  rw [done] at ready
  obtain ⟨_, _, holds, _⟩ := ready.foreseen
  exact ⟨final.work, holds.sound, program.symm⟩

/-- A compiled program, and what is read back after saving it, run alike for any number of steps. They
print and read the same, their memories are written the same, both stop or neither does, and both fault
at the same place with the same message or neither does. -/
theorem saved_program_runs_alike {text : String} {budget : Nat} {emission : Emission}
    (compiled : Compiler.compile programScheme text budget = some (.ok emission))
    (addressable : emission.program.Addressable)
    (capacity : Nat) (input : Input) (output : Output) (steps : Nat) :
    Accord (fun _ _ => True) Fault.Like Resembles
      (run steps (boot emission.program capacity input output))
      (run steps (boot emission.program.reread capacity input output)) := by
  obtain ⟨e, sound, program⟩ := compile_sound compiled
  have fits : e.reach < 2 ^ 63 := by
    rw [Emitter.reach, program]
    exact max_lt (by decide) addressable
  have like := boot_reread_like sound.code sound.data fits capacity input output
  rw [program] at like
  exact (like.run Cell.Kin.congruence steps).mono fun m n => Like.resembles Cell.Kin.congruence

/-- A loop around a label, and a jump to a label that is nowhere. -/
def loopAndLeave : String :=
  "n = 2; :again: put n; n = n - 1; if n > 0 then goto again; goto nowhere;"

theorem saved_program_runs_alike_loopAndLeave :
    ∃ emission, Compiler.compile programScheme loopAndLeave 400 = some (.ok emission) ∧
      emission.program.Addressable ∧ ∀ steps,
        Accord (fun _ _ => True) Fault.Like Resembles
          (run steps (boot emission.program 8 .none (.printed #[])))
          (run steps (boot emission.program.reread 8 .none (.printed #[]))) := by
  obtain ⟨emission, compiled, addressable⟩ :=
    exists_emission (p := fun emission => emission.program.Addressable) loopAndLeave 400
      (by decide +kernel)
  exact ⟨emission, compiled, addressable,
    saved_program_runs_alike compiled addressable 8 .none (.printed #[])⟩

end Pushdown
