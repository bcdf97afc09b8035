import Pushdown.Proofs.Compilation
import Pushdown.Proofs.Stores
import Pushdown.Proofs.Walk

/-! Places of the code. From each place where a statement begins, what is to be done stands in the code
as one piece up to the end. Such places are where an instruction begins, and they are where branches
and jumps go: the cell of a label holds the place of the last statement that carries it. -/
namespace Pushdown

/-- The places where an instruction begins, if the code is read from its first place on, and the place
behind the last one. -/
inductive Boundary (code : Array Cell) : Nat → Prop
  | first : Boundary code 1
  | next {place : Nat} {i : Machine.Instruction} : Boundary code place →
      Machine.decode code place = .ok i → Boundary code i.next

/-- What may stand behind a literal: a value or an address. -/
def Cell.IsOperand : Cell → Prop
  | .opcode _ | .unset => False
  | _ => True

/-- Cells that are a number of instructions: literals, each with its operand, and others that take
none. -/
inductive Whole : List Cell → Prop
  | nil : Whole []
  | plain {op : Opcode} {rest : List Cell} : op.hasOperand = false → Whole rest →
      Whole (.opcode op :: rest)
  | literal {v : Cell} {rest : List Cell} : v.IsOperand → Whole rest →
      Whole (.opcode .literal :: v :: rest)

namespace Whole

theorem append {front back : List Cell} (first : Whole front) (second : Whole back) :
    Whole (front ++ back) := by
  induction first with
  | nil => exact second
  | plain takes _ ih => exact .plain takes ih
  | literal operand _ ih => exact .literal operand ih

theorem flatMap {α : Type} {code : α → List Cell} (each : ∀ a, Whole (code a)) (items : List α) :
    Whole (items.flatMap code) := by
  induction items with
  | nil => exact .nil
  | cons a items ih => exact (each a).append ih

theorem expr (address : String → Nat) (e : Expr) : Whole (e.code address) := by
  induction e with
  | literal | address => exact .literal trivial .nil
  | fetch place ih => exact ih.append (.plain rfl .nil)
  | negate e ih => exact ih.append (.plain rfl .nil)
  | combine op l r left right =>
    exact (left.append right).append (.plain (by cases op <;> rfl) .nil)

theorem condition (address : String → Nat) (c : Condition) : Whole (c.code address) := by
  have relation : c.relation.opcode.hasOperand = false := by cases c.relation <;> rfl
  exact ((expr address c.left).append (expr address c.right)).append (.plain relation .nil)

mutual

theorem statement (address : String → Nat) (start : Nat) (s : Statement) :
    Whole (s.code address start) := by
  cases s with
  | assign target value =>
    exact ((expr address target).append (expr address value)).append (.plain rfl .nil)
  | put items => exact flatMap (fun e => (expr address e).append (.plain rfl .nil)) items
  | get targets =>
    exact flatMap (fun e => (expr address e).append (.plain rfl (.plain rfl .nil))) targets
  | stop => exact .plain rfl .nil
  | goto x => exact .literal trivial (.plain rfl (.plain rfl .nil))
  | branch c body =>
    have jump : Whole [.opcode .literal, .address (start + (c.size + 3 + body.size)),
        .opcode .jumpUnless] := .literal trivial (.plain rfl .nil)
    exact ((condition address c).append jump).append (statement address _ body)
  | group body => exact statements address start body
  | labelled x body => exact statement address start body

theorem statements (address : String → Nat) (start : Nat) (ss : List Statement) :
    Whole (Statement.codeAll address start ss) := by
  cases ss with
  | nil => exact .nil
  | cons s rest => exact (statement address start s).append (statements address _ rest)

end

end Whole

theorem Boundary.behind {code : Array Cell} {place : Nat} {cells : List Cell}
    (boundary : Boundary code place) (lies : Machine.Lies code place cells) (whole : Whole cells) :
    Boundary code (place + cells.length) := by
  induction whole generalizing place with
  | nil => exact boundary
  | plain takes _ ih =>
    have next := ih (boundary.next (Machine.decode_plain lies takes)) lies.2
    rwa [Nat.add_assoc, Nat.add_comm 1] at next
  | literal _ _ ih =>
    have next := ih (boundary.next (Machine.decode_operand lies rfl)) lies.2.2
    rwa [Nat.add_assoc, Nat.add_comm 2] at next

theorem sizeOf_append_lt (body rest : List Statement) :
    sizeOf (body ++ rest) < sizeOf (Statement.group body :: rest) := by
  induction body with
  | nil => simp
  | cons s body ih =>
    simp only [List.cons_append, List.cons.sizeOf_spec, Statement.group.sizeOf_spec] at ih ⊢
    omega

/-- What is to be done stands in the code from a place on, up to the end of the program, and jumps
only to given names. -/
structure Located (code : Array Cell) (address : String → Nat) (names : List String) (place : Nat)
    (todo : List Statement) : Prop where
  boundary : Boundary code place
  lies : Machine.Lies code place (Statement.codeAll address place todo ++ [.opcode .quit])
  named : ∀ x ∈ Statement.namesAll todo, x ∈ names

namespace Located

variable {code : Array Cell} {address : String → Nat} {names : List String} {place : Nat}
  {s body : Statement} {todo ss : List Statement}

theorem tail (located : Located code address names place (s :: todo)) :
    Located code address names (place + s.size) todo := by
  obtain ⟨boundary, lies, named⟩ := located
  simp only [Statement.codeAll, List.append_assoc] at lies
  obtain ⟨front, back⟩ := Machine.lies_append.mp lies
  have behind := boundary.behind front (.statement address place s)
  rw [Statement.length_code] at back behind
  exact ⟨behind, back, fun x member => named x (by simp [Statement.namesAll, member])⟩

theorem labelled {x : String} (located : Located code address names place (.labelled x body :: todo)) :
    Located code address names place (body :: todo) := by
  obtain ⟨boundary, lies, named⟩ := located
  refine ⟨boundary, by simpa only [Statement.codeAll, Statement.code, Statement.size] using lies, ?_⟩
  intro y member
  refine named y ?_
  simp only [Statement.namesAll, Statement.names, List.cons_append, List.mem_cons] at member ⊢
  exact .inr member

theorem group (located : Located code address names place (.group ss :: todo)) :
    Located code address names place (ss ++ todo) := by
  obtain ⟨boundary, lies, named⟩ := located
  refine ⟨boundary, ?_, fun y member => named y ?_⟩
  · simpa only [Statement.codeAll_append, Statement.codeAll, Statement.code, Statement.size] using lies
  · rw [Statement.namesAll_append] at member
    simpa only [Statement.namesAll, Statement.names] using member

theorem branch {c : Condition} (located : Located code address names place (.branch c body :: todo)) :
    Located code address names (place + (c.size + 3)) (body :: todo) := by
  obtain ⟨boundary, lies, named⟩ := located
  simp only [Statement.codeAll, Statement.code, List.append_assoc] at lies
  obtain ⟨test, back⟩ := Machine.lies_append.mp lies
  obtain ⟨jump, inner⟩ := Machine.lies_append.mp back
  have behind := (boundary.behind test (.condition address c)).behind jump
    (.literal trivial (.plain rfl .nil))
  simp only [Condition.length_code, List.length_cons, List.length_nil, Nat.zero_add, Nat.add_assoc]
    at inner behind
  refine ⟨behind, ?_, fun y member => named y ?_⟩
  · simp only [Statement.codeAll, List.append_assoc]
    simpa only [Statement.size, Nat.add_assoc] using inner
  · simpa only [Statement.namesAll, Statement.names] using member

end Located

section Seek

variable {code : Array Cell} {address : String → Nat} {names : List String}

open Statement

theorem lastLabel_cons (x y : String) (place : Nat) (labels : List (String × Nat)) :
    lastLabel ((y, place) :: labels) x =
      (lastLabel labels x).or (if y = x then some place else none) := by
  have single : lastLabel [(y, place)] x = if y = x then some place else none := by
    by_cases same : y = x
    · simp [lastLabel, same]
    · have distinct : (x == y) = false := beq_eq_false_iff_ne.mpr (Ne.symm same)
      simp [lastLabel, List.lookup_cons, distinct, same]
  rw [← List.singleton_append, lastLabel_append, single]

theorem rel_or {α β : Type} {r : α → β → Prop} {a a' : Option α} {b b' : Option β}
    (first : Option.Rel r a b) (second : Option.Rel r a' b') :
    Option.Rel r (a.or a') (b.or b') := by
  cases first with
  | some related => exact .some related
  | none => exact second

mutual

/-- The statements found from a label on stand at the place of that label. -/
theorem seek_located (x : String) (behind : List Statement) {start : Nat} (s : Statement)
    (located : Located code address names start (s :: behind)) :
    Option.Rel (Located code address names) (lastLabel (s.labels start) x) (s.seek x behind) := by
  cases s with
  | branch c body =>
    simp only [labels, seek]
    exact seek_located x behind body located.branch
  | group body =>
    simp only [labels, seek]
    exact seekAll_located x behind body located.group
  | labelled y body =>
    simp only [labels, seek, lastLabel_cons]
    -- Labels inside the statement come behind its own.
    refine rel_or (seek_located x behind body located.labelled) ?_
    split
    · exact .some located.labelled
    · exact .none
  | assign | put | get | stop | goto =>
    simp only [labels, seek]
    exact .none

theorem seekAll_located (x : String) (behind : List Statement) {start : Nat} (ss : List Statement)
    (located : Located code address names start (ss ++ behind)) :
    Option.Rel (Located code address names) (lastLabel (labelsAll start ss) x)
      (seekAll x behind ss) := by
  cases ss with
  | nil =>
    simp only [labelsAll, seekAll]
    exact .none
  | cons s rest =>
    simp only [labelsAll, seekAll, lastLabel_append]
    exact rel_or (seekAll_located x behind rest located.tail) (seek_located x _ s located)

end

mutual

theorem starts_located {start place : Nat} (behind : List Statement) (s : Statement)
    (located : Located code address names start (s :: behind)) (member : place ∈ s.starts start) :
    ∃ todo, Located code address names place todo := by
  cases s with
  | branch c body =>
    rcases List.mem_cons.mp member with rfl | inner
    · exact ⟨_, located⟩
    · exact starts_located behind body located.branch inner
  | group body =>
    rcases List.mem_cons.mp member with rfl | inner
    · exact ⟨_, located⟩
    · exact startsAll_located behind body located.group inner
  | labelled x body =>
    rcases List.mem_cons.mp member with rfl | inner
    · exact ⟨_, located⟩
    · exact starts_located behind body located.labelled inner
  | assign | put | get | stop | goto =>
    obtain rfl := List.mem_singleton.mp member
    exact ⟨_, located⟩

/-- From each place where a statement begins, what is to be done stands in the code. -/
theorem startsAll_located {start place : Nat} (behind ss : List Statement)
    (located : Located code address names start (ss ++ behind))
    (member : place ∈ startsAll start ss) : ∃ todo, Located code address names place todo := by
  cases ss with
  | nil => cases member
  | cons s rest =>
    rcases List.mem_append.mp member with here | later
    · exact starts_located (rest ++ behind) s located here
    · exact startsAll_located behind rest located.tail later

end

end Seek

/-- The cells of the names that are jumped to or stand as labels. -/
def Statement.jumpCells (address : String → Nat) (program : List Statement) : List Nat :=
  (namesAll program).map address

open Machine Statement

variable {address : String → Nat} {program : List Statement} {m m' : Machine}

/-- The code of a program is in the machine, and the cells of its labels tell their places. -/
structure Prepared (address : String → Nat) (program : List Statement) (m : Machine) : Prop where
  whole : Located m.code address (namesAll program) 1 program
  marked : ∀ x ∈ namesAll program,
    m.memory.load (address x) = .ok (mark (labelsAll 1 program) x)

theorem Prepared.run {n : Nat} (prepared : Prepared address program m)
    (spares : m.Spares (jumpCells address program) n) (done : Machine.run n m = .ok () m') :
    Prepared address program m' ∧ m'.code = m.code := by
  obtain ⟨code, kept⟩ := run_spared spares done
  refine ⟨⟨code ▸ prepared.whole, fun x member => ?_⟩, code⟩
  exact kept _ (List.mem_map_of_mem member) _ (prepared.marked x member)

/-- The cell of a name holds the place of the last statement that carries it as a label, if any. -/
theorem Prepared.label {x : String} (prepared : Prepared address program m)
    (named : x ∈ namesAll program) :
    match seekAll x [] program with
    | some todo => ∃ place, m.memory.load (address x) = .ok (.address place) ∧
        Located m.code address (namesAll program) place todo
    | none => m.memory.load (address x) = .ok .unset := by
  have loaded := prepared.marked x named
  have found := seekAll_located x [] program (by simpa using prepared.whole)
  unfold mark at loaded
  generalize seekAll x [] program = sought at found ⊢
  generalize lastLabel (labelsAll 1 program) x = placed at found loaded
  cases found with
  | none => exact loaded
  | some located => exact ⟨_, loaded, located⟩

theorem Placed.located {source : Source} {symbols : SymbolTable} {compiled : Program}
    (placed : Placed source symbols compiled) :
    Located compiled.code symbols.addressOf (namesAll source.statements) 1 source.statements :=
  ⟨.first, lies_of_toList [] placed.code, fun _ member => member⟩

theorem Placed.prepared {source : Source} {symbols : SymbolTable} {compiled : Program}
    (placed : Placed source symbols compiled) (capacity : Nat) (input : Input) (output : Output) :
    Prepared symbols.addressOf source.statements (.boot compiled capacity input output) where
  whole := placed.located
  marked := placed.content

end Pushdown
