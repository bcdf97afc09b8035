import Pushdown.Proofs.Duties
import Pushdown.Proofs.Location

/-! The shape of generated programs. Their code is a sequence of whole instructions, nothing in it was
left open, and every branch goes forward to the beginning of another instruction. Their memory is
unset but for the cells of labels. -/
namespace Pushdown

open Automaton Emitter Grammar Machine Statement Program

/-- An instruction begins at the place, if the code is read from its first place on. -/
def Begins (code : Array Cell) (place : Nat) : Prop := Boundary code place ∧ place ≤ code.size

/-- Cells from a place on in which every branch is behind a literal with a target, further on, that is
one of the permitted ones. -/
inductive Aims (permitted : Nat → Prop) : Nat → List Cell → Prop
  | nil {place : Nat} : Aims permitted place []
  | other {place : Nat} {cell : Cell} {rest : List Cell} : cell ≠ .opcode .jumpUnless →
      Aims permitted (place + 1) rest → Aims permitted place (cell :: rest)
  | branch {place target : Nat} {rest : List Cell} : place + 2 < target → permitted target →
      Aims permitted (place + 3) rest →
      Aims permitted place
        (.opcode .literal :: .address target :: .opcode .jumpUnless :: rest)

namespace Aims

variable {permitted : Nat → Prop} {place : Nat} {cells front back : List Cell}

theorem append (first : Aims permitted place front)
    (second : Aims permitted (place + front.length) back) :
    Aims permitted place (front ++ back) := by
  induction first with
  | nil => exact second
  | other plain _ ih =>
    refine .other plain (ih ?_)
    rwa [List.length_cons, Nat.add_comm _ 1, ← Nat.add_assoc] at second
  | branch forward allowed _ ih =>
    refine .branch forward allowed (ih ?_)
    simpa only [List.length_cons, Nat.add_assoc, Nat.add_comm, Nat.add_left_comm] using second

theorem of_absent (absent : .opcode .jumpUnless ∉ cells) : Aims permitted place cells := by
  induction cells generalizing place with
  | nil => exact .nil
  | cons cell rest ih =>
    rw [List.mem_cons, not_or] at absent
    exact .other (Ne.symm absent.1) (ih absent.2)

/-- What stands before a branch in the code. -/
theorem fetched {code : Array Cell} {p : Nat} (aims : Aims permitted place cells)
    (lies : Lies code place cells) (behind : place ≤ p) (before : p < place + cells.length)
    (branch : Program.fetch? code p = some (.opcode .jumpUnless)) :
    ∃ target, Program.fetch? code (p - 2) = some (.opcode .literal) ∧
      Program.fetch? code (p - 1) = some (.address target) ∧ p < target ∧ permitted target := by
  induction aims with
  | nil =>
    rw [List.length_nil] at before
    omega
  | @other place cell rest plain _ ih =>
    obtain ⟨here, later⟩ := lies
    rw [List.length_cons] at before
    by_cases same : p = place
    · subst same
      exact absurd (Option.some.inj (here.symm.trans branch)) plain
    · exact ih later (by omega) (by omega)
  | @branch place target rest forward allowed _ ih =>
    obtain ⟨literal, operand, jump, later⟩ := lies
    simp only [List.length_cons] at before
    by_cases atJump : p = place + 2
    · subst atJump
      exact ⟨target, literal, operand, forward, allowed⟩
    · by_cases atLiteral : p = place
      · subst atLiteral
        cases literal.symm.trans branch
      · by_cases atOperand : p = place + 1
        · subst atOperand
          cases operand.symm.trans branch
        · exact ih later (by omega) (by omega)

end Aims

theorem Expr.jumpUnless_not_mem (address : String → Nat) (e : Expr) :
    .opcode .jumpUnless ∉ e.code address := by
  induction e with
  | literal | address => simp [Expr.code]
  | fetch place ih => simp [Expr.code, ih]
  | negate e ih => simp [Expr.code, ih]
  | combine op l r left right => cases op <;> simp [Expr.code, left, right, Arithmetic.opcode]

theorem Condition.jumpUnless_not_mem (address : String → Nat) (c : Condition) :
    .opcode .jumpUnless ∉ c.code address := by
  have left := c.left.jumpUnless_not_mem address
  have right := c.right.jumpUnless_not_mem address
  cases relation : c.relation <;> simp [Condition.code, left, right, relation, Logic.opcode]

theorem Located.begins {code : Array Cell} {address : String → Nat} {names : List String} {place : Nat}
    {todo : List Statement} (located : Located code address names place todo) : Begins code place := by
  obtain ⟨boundary, lies, _⟩ := located
  refine ⟨boundary, ?_⟩
  -- At least the end of the program stands there.
  cases cells : codeAll address place todo ++ [.opcode .quit] with
  | nil => simp at cells
  | cons cell rest =>
    rw [cells] at lies
    exact (Program.fetch?_bounds lies.1).2

section

variable {code : Array Cell} {address : String → Nat} {names : List String}

mutual

theorem Statement.aims {place : Nat} (behind : List Statement) (s : Statement)
    (located : Located code address names place (s :: behind)) :
    Aims (Begins code) place (s.code address place) := by
  cases s with
  | branch c body =>
    have target := located.tail.begins
    simp only [Statement.code, List.append_assoc]
    refine (Aims.of_absent (c.jumpUnless_not_mem address)).append ?_
    rw [Condition.length_code]
    refine .branch (by omega) target ?_
    exact body.aims behind located.branch
  | group body =>
    simp only [Statement.code]
    exact aimsAll behind body located.group
  | labelled x body =>
    simp only [Statement.code]
    exact body.aims behind located.labelled
  | assign target value =>
    refine .of_absent ?_
    simp [Statement.code, Expr.jumpUnless_not_mem]
  | put items =>
    refine .of_absent ?_
    simp [Statement.code, Expr.itemCode, Expr.jumpUnless_not_mem]
  | get targets =>
    refine .of_absent ?_
    simp [Statement.code, Expr.targetCode, Expr.jumpUnless_not_mem]
  | stop => exact .of_absent (by simp [Statement.code])
  | goto x => exact .of_absent (by simp [Statement.code])

/-- Every branch of a program goes forward to where an instruction begins. -/
theorem Statement.aimsAll {place : Nat} (behind ss : List Statement)
    (located : Located code address names place (ss ++ behind)) :
    Aims (Begins code) place (codeAll address place ss) := by
  cases ss with
  | nil => exact .nil
  | cons s rest =>
    refine (s.aims (rest ++ behind) located).append ?_
    rw [length_code]
    exact aimsAll behind rest located.tail

end

end

theorem Whole.unset_not_mem {cells : List Cell} (whole : Whole cells) : .unset ∉ cells := by
  induction whole with
  | nil => exact List.not_mem_nil
  | plain _ _ ih => simp [ih]
  | @literal v _ operand _ ih =>
    have other : v ≠ .unset := by
      rintro rfl
      exact operand
    simp [ih, other.symm]

theorem exists_mem_of_lastLabel {labels : List (String × Nat)} {x : String} {place : Nat}
    (last : lastLabel labels x = some place) : ∃ p ∈ labels, p.1 = x := by
  by_contra none
  have absent : ∀ p ∈ labels, p.1 ≠ x := fun p member same => none ⟨p, member, same⟩
  rw [lastLabel_eq_none absent] at last
  cases last

/-- The memory tells which places the labels have, however they came about. -/
theorem Emitter.Settled.lastLabel_eq {e : Emitter} {labels others : List (String × Nat)}
    (settled : e.Settled labels) (again : e.Settled others) (x : String) :
    lastLabel labels x = lastLabel others x := by
  cases found : e.symbols.find? x with
  | none =>
    have absent {labels : List (String × Nat)} (settled : e.Settled labels) :
        lastLabel labels x = none := by
      refine lastLabel_eq_none fun p member same => ?_
      obtain ⟨entry, known⟩ := settled.marked p member
      rw [same, found] at known
      cases known
    rw [absent settled, absent again]
  | some entry =>
    obtain ⟨member, rfl⟩ := SymbolTable.name_of_find? found
    have same := Except.ok.inj ((settled.content entry member).symm.trans (again.content entry member))
    unfold mark at same
    cases here : lastLabel labels entry.name with
    | none =>
      cases there : lastLabel others entry.name with
      | none => rfl
      | some q => simp [here, there] at same
    | some p =>
      cases there : lastLabel others entry.name with
      | none => simp [here, there] at same
      | some q => simpa [here, there] using same

/-- The shape of a generated program, given the labels that were defined. -/
structure Program.Regular (program : Program) (symbols : SymbolTable) (labels : List (String × Nat)) :
    Prop where
  /-- Literals have one operand each, which is no opcode, and no other instruction has one. -/
  whole : Whole program.code.toList
  /-- Decoding from the first place on comes to the end. -/
  decodes : Boundary program.code (program.code.size + 1)
  quits : program.code.back? = some (.opcode .quit)
  filled : .unset ∉ program.code
  /-- Branches are behind a literal with their target, and go forward. -/
  branches : ∀ place, fetch? program.code place = some (.opcode .jumpUnless) →
    ∃ target, fetch? program.code (place - 2) = some (.opcode .literal) ∧
      fetch? program.code (place - 1) = some (.address target) ∧ place < target ∧
      Begins program.code target
  /-- The first cell of a label holds the place where it was defined last. -/
  marks : ∀ x place, lastLabel labels x = some place → ∃ entry, symbols.find? x = some entry ∧
    program.data.load entry.address = .ok (.address place) ∧ Begins program.code place
  /-- All other cells of the memory are unset. -/
  blank : ∀ a cell, program.data.load a = .ok cell → cell = .unset ∨
    ∃ x place entry, lastLabel labels x = some place ∧ symbols.find? x = some entry ∧
      entry.address = a ∧ cell = .address place

theorem Placed.regular {source : Source} {e : Emitter} {labels : List (String × Nat)}
    (placed : Placed source e.symbols e.program) (settled : e.Settled labels)
    (same : ∀ x, lastLabel labels x = lastLabel (labelsAll 1 source.statements) x) :
    e.program.Regular e.symbols labels := by
  have located := placed.located
  have whole : Whole e.program.code.toList := by
    rw [placed.code]
    exact (Whole.statements _ 1 source.statements).append (.plain rfl .nil)
  have lies : Lies e.program.code 1 e.program.code.toList := lies_of_toList [] rfl
  have aims : Aims (Begins e.program.code) 1 e.program.code.toList := by
    have statements := aimsAll [] source.statements (by simpa using located)
    rw [placed.code]
    exact statements.append (.of_absent (by simp))
  constructor
  · exact whole
  · have behind := Boundary.first.behind lies whole
    rwa [Array.length_toList, Nat.add_comm] at behind
  · rw [← Array.getLast?_toList, placed.code]
    simp
  · intro member
    exact whole.unset_not_mem (Array.mem_toList_iff.mpr member)
  · intro place branch
    obtain ⟨positive, inside⟩ := fetch?_bounds branch
    refine aims.fetched lies positive ?_ branch
    rw [Array.length_toList]
    omega
  · intro x place last
    obtain ⟨p, member, rfl⟩ := exists_mem_of_lastLabel last
    obtain ⟨entry, found⟩ := settled.marked p member
    obtain ⟨listed, name⟩ := SymbolTable.name_of_find? found
    refine ⟨entry, found, ?_, ?_⟩
    · rw [settled.content entry listed, mark, name, last]
    · have sought := seekAll_located p.1 [] source.statements (by simpa using located)
      rw [← same, last] at sought
      generalize seekAll p.1 [] source.statements = todo at sought
      cases sought with
      | some located => exact located.begins
  · intro a cell loaded
    rcases settled.blank a cell loaded with unset | ⟨entry, member, rfl⟩
    · exact .inl unset
    · have content := Except.ok.inj (loaded.symm.trans (settled.content entry member))
      unfold mark at content
      cases last : lastLabel labels entry.name with
      | none =>
        rw [last] at content
        exact .inl content
      | some place =>
        rw [last] at content
        have found := SymbolTable.find?_of_mem settled.distinct member
        exact .inr ⟨entry.name, place, entry, last, found, rfl, content⟩

/-- A compiled program has the shape of generated ones. The labels that were defined on the way are
those of any program tree that the text writes. -/
theorem compiled_program_is_regular {text : String} {budget : Nat} {emission : Emission}
    (compiled : Compiler.compile programScheme text budget = some (.ok emission)) :
    emission.program.Regular emission.symbols (Compiler.labelled programScheme text budget) ∧
      (∃ source : Source, source.WrittenBy text) ∧
      ∀ source : Source, source.WrittenBy text → ∀ x,
        lastLabel (Compiler.labelled programScheme text budget) x =
          lastLabel (labelsAll 1 source.statements) x := by
  obtain ⟨tokens, final, scanned, done, accepted, symbols, program, settled⟩ :=
    compile_labelled compiled
  have same (source : Source) (written : source.WrittenBy text) (x : String) :
      lastLabel (Compiler.labelled programScheme text budget) x =
        lastLabel (labelsAll 1 source.statements) x :=
    settled.lastLabel_eq (Source.settled (emit_of_written scanned done accepted written)) x
  obtain ⟨source, written⟩ := compile_written compiled
  refine ⟨?_, ⟨source, written⟩, same⟩
  have placed := compile_placed compiled written
  rw [symbols, program] at placed ⊢
  exact placed.regular settled (same source written)

/-- A label that is defined twice, inside of what it labels; one with the name of an array; and one for
nothing, at the end. -/
def nestedLabels : String :=
  "declare a(2); :again: if a > 0 then do; :again: do; end; if a = 1 then :a: goto out; end; " ++
    ":rest: do; end;"

theorem compiled_program_is_regular_nestedLabels :
    ∃ emission, Compiler.compile programScheme nestedLabels 400 = some (.ok emission) ∧
      emission.program.Regular emission.symbols
        [("again", 1), ("again", 10), ("a", 19), ("rest", 23)] := by
  obtain ⟨emission, compiled, _⟩ := exists_emission (p := fun _ => True) nestedLabels 400
    (by decide +kernel)
  have labelled : Compiler.labelled programScheme nestedLabels 400 =
      [("again", 1), ("again", 10), ("a", 19), ("rest", 23)] := by decide +kernel
  obtain ⟨regular, _⟩ := compiled_program_is_regular compiled
  exact ⟨emission, compiled, labelled ▸ regular⟩

end Pushdown
