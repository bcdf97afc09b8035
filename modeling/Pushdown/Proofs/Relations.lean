import Mathlib
import Pushdown.Machine.Arithmetic

/-! Equality and order of cells that are no reals. Both see an address as the integer of the same 64 bits,
so they fit together: numbers and texts are ordered, each kind for itself, and equality is what the order
leaves. On other cells there is equality only. -/
namespace Pushdown

namespace Cell

def IsReal : Cell → Prop
  | .real _ => True
  | _ => False

/-- Integers and addresses. -/
def IsNumber : Cell → Prop
  | .int _ | .address _ => True
  | _ => False

def IsText : Cell → Prop
  | .text _ => True
  | _ => False

/-- Two numbers, or two texts. -/
def Comparable (a b : Cell) : Prop := a.IsNumber ∧ b.IsNumber ∨ a.IsText ∧ b.IsText

/-- Cells other than reals. -/
abbrev Exact := { c : Cell // ¬ c.IsReal }

/-- What equality and order see of a cell. -/
def seen : Cell → Cell
  | .address a => .int (Int64.ofNat a)
  | c => c

/-- The order of integers, and the order of texts. -/
inductive Below : Cell → Cell → Prop
  | int {l r : Int64} : l < r → Below (.int l) (.int r)
  | text {l r : String} : l < r → Below (.text l) (.text r)

namespace Below

variable {a b c : Cell}

theorem trans (first : Below a b) (second : Below b c) : Below a c := by
  cases first with
  | int less =>
    cases second with
    | int less' => exact .int (Int64.lt_trans less less')
  | text less =>
    cases second with
    | text less' => exact .text (lt_trans less less')

theorem irrefl (a : Cell) : ¬ Below a a := by
  intro below
  cases below with
  | int less => exact Int64.lt_irrefl less
  | text less => exact lt_irrefl _ less

theorem asymm (below : Below a b) : ¬ Below b a := fun above => irrefl a (below.trans above)

theorem ne (below : Below a b) : a ≠ b := by
  rintro rfl
  exact irrefl a below

end Below

/-- How two cells stand to each other. -/
def Stands (a b : Cell) : Ordering → Prop
  | .lt => Below a.seen b.seen
  | .eq => a.seen = b.seen
  | .gt => Below b.seen a.seen

namespace Stands

variable {a b : Cell} {o o' : Ordering}

/-- Two cells stand to each other in one way at most. -/
theorem unique (first : Stands a b o) (second : Stands a b o') : o = o' := by
  cases o with
  | lt =>
    cases o' with
    | lt => rfl
    | eq => exact absurd second (Below.ne first)
    | gt => exact absurd second (Below.asymm first)
  | eq =>
    cases o' with
    | lt => exact absurd first (Below.ne second)
    | eq => rfl
    | gt => exact absurd (Eq.symm first) (Below.ne second)
  | gt =>
    cases o' with
    | lt => exact absurd second (Below.asymm first)
    | eq => exact absurd (Eq.symm second) (Below.ne first)
    | gt => rfl

theorem swap (stands : Stands a b o) : Stands b a o.swap := by
  cases o with
  | lt | gt => exact stands
  | eq => exact Eq.symm stands

/-- An order with its equality tells how cells stand whose order and equality these are. -/
theorem of_trichotomy {α : Type} [LT α] [DecidableLT α] [DecidableEq α] {l r : α}
    (trichotomy : l < r ∨ l = r ∨ r < l) (below : l < r → Below a.seen b.seen)
    (same : l = r → a.seen = b.seen) (above : r < l → Below b.seen a.seen) :
    Stands a b (compareOfLessAndEq l r) := by
  unfold compareOfLessAndEq
  split
  · exact below ‹_›
  · rename_i notLess
    split
    · exact same ‹_›
    · rename_i different
      exact above ((trichotomy.resolve_left notLess).resolve_left different)

theorem of_numbers {l r : Int64} (left : a.seen = .int l) (right : b.seen = .int r) :
    Stands a b (compareOfLessAndEq l r) := by
  have trichotomy : l < r ∨ l = r ∨ r < l := by
    rw [Int64.lt_iff_toInt_lt, ← Int64.toInt_inj, Int64.lt_iff_toInt_lt]
    omega
  apply of_trichotomy trichotomy
  · rw [left, right]
    exact .int
  · rw [left, right]
    exact congrArg Cell.int
  · rw [left, right]
    exact .int

theorem of_texts (l r : String) : Stands (.text l) (.text r) (compareOfLessAndEq l r) :=
  of_trichotomy (lt_trichotomy l r) .text (congrArg Cell.text) .text

end Stands

/-- All that a comparison can tell. -/
inductive Compared (a b : Cell) : Except OperandError (Option Ordering) → Prop
  | ordered {o : Ordering} : Comparable a b → Stands a b o → Compared a b (.ok (some o))
  | apart : ¬ Comparable a b → Compared a b (.error (.mismatch .compare a b))

theorem compared (a b : Exact) : Compared a b (a.val.compare b) := by
  obtain ⟨a, exact⟩ := a
  obtain ⟨b, exact'⟩ := b
  cases a with
  | real => exact absurd trivial exact
  | int | address =>
    cases b with
    | real => exact absurd trivial exact'
    | int | address => exact .ordered (.inl ⟨trivial, trivial⟩) (.of_numbers rfl rfl)
    | opcode | text | unset => exact .apart (by simp [Comparable, IsNumber, IsText])
  | text l =>
    cases b with
    | real => exact absurd trivial exact'
    | text r => exact .ordered (.inr ⟨trivial, trivial⟩) (.of_texts l r)
    | opcode | int | address | unset => exact .apart (by simp [Comparable, IsNumber, IsText])
  | opcode | unset =>
    cases b with
    | real => exact absurd trivial exact'
    | opcode | int | text | address | unset =>
      exact .apart (by simp [Comparable, IsNumber, IsText])

theorem Below.comparable {a b : Cell} (below : Below a.seen b.seen) : Comparable a b := by
  cases a with
  | int | address =>
    cases b with
    | int | address => exact .inl ⟨trivial, trivial⟩
    | opcode | real | text | unset => cases below
  | text =>
    cases b with
    | text => exact .inr ⟨trivial, trivial⟩
    | opcode | int | real | address | unset => cases below
  | opcode | real | unset => cases below

theorem Comparable.symm {a b : Cell} (comparable : Comparable a b) : Comparable b a := by
  rcases comparable with ⟨left, right⟩ | ⟨left, right⟩
  · exact .inl ⟨right, left⟩
  · exact .inr ⟨right, left⟩

theorem equal_iff (a b : Exact) : a.val.equal b = true ↔ a.val.seen = b.val.seen := by
  obtain ⟨a, exact⟩ := a
  obtain ⟨b, exact'⟩ := b
  cases a with
  | real => exact absurd trivial exact
  | opcode | int | text | address | unset =>
    cases b with
    | real => exact absurd trivial exact'
    | opcode | int | text | address | unset => simp [equal, seen, Number.ofCell?]

end Cell

open Cell

namespace Logic

/-- The relation is found to hold. -/
def Holds (op : Logic) (a b : Cell) : Prop := op.apply a b = .ok true

theorem eq_holds_iff (a b : Exact) : eq.Holds a b ↔ Stands a b .eq := by
  rw [Holds, apply, Except.ok.injEq, equal_iff]
  rfl

/-- The orders of its operands that a relation admits. Equality and connectives do not ask for one. -/
def admits : Logic → Option (List Ordering)
  | .lt => some [.lt]
  | .le => some [.lt, .eq]
  | .gt => some [.gt]
  | .ge => some [.gt, .eq]
  | _ => none

variable {op : Logic} {orders : List Ordering}

theorem apply_of_admits (admits : op.admits = some orders) (a b : Cell) :
    op.apply a b = (a.compare b).map fun order => order.any (· ∈ orders) := by
  cases op with
  | eq | ne | and | or => cases admits
  | lt | le | gt | ge =>
    cases admits
    refine congrArg (Except.map · (a.compare b)) (funext fun order => ?_)
    cases order with
    | none => rfl
    | some o => cases o <;> rfl

/-- A relation of order tells something exactly of two numbers and of two texts. -/
theorem succeeds_iff (admits : op.admits = some orders) (a b : Exact) :
    (∃ v, op.apply a b = .ok v) ↔ Comparable a b := by
  rw [apply_of_admits admits]
  have outcome := compared a b
  generalize a.val.compare b = result at outcome
  cases outcome with
  | ordered comparable stands => exact ⟨fun _ => comparable, fun _ => ⟨_, rfl⟩⟩
  | apart apart =>
    constructor
    · rintro ⟨v, found⟩
      cases found
    · exact fun comparable => absurd comparable apart

theorem holds_iff (admits : op.admits = some orders) (a b : Exact) :
    op.Holds a b ↔ Comparable a b ∧ ∃ o ∈ orders, Stands a b o := by
  unfold Holds
  rw [apply_of_admits admits]
  have outcome := compared a b
  generalize a.val.compare b = result at outcome
  cases outcome with
  | @ordered o comparable stands =>
    have found : Except.map (fun order => order.any (· ∈ orders)) (.ok (some o)) =
        (.ok (decide (o ∈ orders)) : Except OperandError Bool) := rfl
    rw [found, Except.ok.injEq, decide_eq_true_eq]
    constructor
    · intro member
      exact ⟨comparable, o, member, stands⟩
    · rintro ⟨_, o', member, stands'⟩
      rwa [stands.unique stands']
  | apart apart =>
    constructor
    · intro found
      cases found
    · rintro ⟨comparable, _⟩
      exact absurd comparable apart

theorem lt_holds_iff (a b : Exact) : lt.Holds a b ↔ Comparable a b ∧ Stands a b .lt := by
  rw [holds_iff rfl]
  simp

theorem gt_holds_iff (a b : Exact) : gt.Holds a b ↔ Comparable a b ∧ Stands a b .gt := by
  rw [holds_iff rfl]
  simp

/-- The relation for a way to stand to each other. -/
def ofOrdering : Ordering → Logic
  | .lt => .lt
  | .eq => .eq
  | .gt => .gt

theorem ofOrdering_holds_iff {a b : Exact} (comparable : Comparable a b) (o : Ordering) :
    (ofOrdering o).Holds a b ↔ Stands a b o := by
  cases o with
  | lt => exact (lt_holds_iff a b).trans (and_iff_right comparable)
  | eq => exact eq_holds_iff a b
  | gt => exact (gt_holds_iff a b).trans (and_iff_right comparable)

/-- Of two numbers, or of two texts, one is less, equal or greater, and only one of these. -/
theorem exactly_one {a b : Exact} (comparable : Comparable a b) :
    ∃! op, op ∈ [lt, eq, gt] ∧ op.Holds a b := by
  obtain ⟨o, stands⟩ : ∃ o, Stands a b o := by
    have outcome := compared a b
    generalize a.val.compare b = result at outcome
    cases outcome with
    | ordered _ stands => exact ⟨_, stands⟩
    | apart apart => exact absurd comparable apart
  refine ⟨ofOrdering o, ⟨?_, (ofOrdering_holds_iff comparable o).mpr stands⟩, ?_⟩
  · cases o <;> decide
  · rintro op ⟨member, holds⟩
    obtain ⟨o', rfl⟩ : ∃ o', op = ofOrdering o' := by
      simp only [List.mem_cons, List.not_mem_nil, or_false] at member
      rcases member with rfl | rfl | rfl
      · exact ⟨.lt, rfl⟩
      · exact ⟨.eq, rfl⟩
      · exact ⟨.gt, rfl⟩
    rw [((ofOrdering_holds_iff comparable o').mp holds).unique stands]

theorem lt_holds_swap (a b : Exact) : lt.Holds a b ↔ gt.Holds b a := by
  rw [lt_holds_iff, gt_holds_iff]
  constructor
  · rintro ⟨comparable, stands⟩
    exact ⟨comparable.symm, stands.swap⟩
  · rintro ⟨comparable, stands⟩
    exact ⟨comparable.symm, stands.swap⟩

theorem lt_holds_trans {a b c : Exact} (first : lt.Holds a b) (second : lt.Holds b c) :
    lt.Holds a c := by
  rw [lt_holds_iff] at first second ⊢
  have below : Below a.val.seen c.val.seen := Below.trans first.2 second.2
  exact ⟨below.comparable, below⟩

end Logic

open Logic

/-- Among cells that are no reals, equality is an equivalence and inequality is its negation. The relations
of order tell something exactly of two numbers and of two texts. There one of less, equal and greater
holds, the other relations are made of these, and less is transitive. -/
theorem relations_are_coherent :
    Equivalence (fun a b : Exact => eq.Holds a b) ∧
    (∀ a b : Exact, ∃ v, eq.apply a b = .ok v ∧ ne.apply a b = .ok (!v)) ∧
    (∀ a b : Exact, ∀ op ∈ [lt, le, gt, ge], (∃ v, op.apply a b = .ok v) ↔ Comparable a b) ∧
    (∀ a b : Exact, Comparable a b →
      (∃! op, op ∈ [lt, eq, gt] ∧ op.Holds a b) ∧
      (le.Holds a b ↔ lt.Holds a b ∨ eq.Holds a b) ∧
      (ge.Holds a b ↔ gt.Holds a b ∨ eq.Holds a b) ∧
      (lt.Holds a b ↔ gt.Holds b a)) ∧
    ∀ a b c : Exact, lt.Holds a b → lt.Holds b c → lt.Holds a c := by
  refine ⟨⟨?_, ?_, ?_⟩, ?_, ?_, ?_, ?_⟩
  · intro a
    exact (eq_holds_iff a a).mpr rfl
  · intro a b
    rw [eq_holds_iff, eq_holds_iff]
    exact Stands.swap
  · intro a b c
    rw [eq_holds_iff, eq_holds_iff, eq_holds_iff]
    exact Eq.trans
  · intro a b
    exact ⟨a.val.equal b, rfl, rfl⟩
  · intro a b op member
    simp only [List.mem_cons, List.not_mem_nil, or_false] at member
    rcases member with rfl | rfl | rfl | rfl <;> exact succeeds_iff rfl a b
  · intro a b comparable
    refine ⟨exactly_one comparable, ?_, ?_, lt_holds_swap a b⟩
    · rw [holds_iff rfl, lt_holds_iff, eq_holds_iff]
      simp [comparable]
    · rw [holds_iff rfl, gt_holds_iff, eq_holds_iff]
      simp [comparable]
  · intro a b c
    exact lt_holds_trans

/-- The greatest address counts as minus one, and is less than zero and than a small address. -/
theorem relations_are_coherent_greatestAddress :
    Logic.le ∈ [lt, le, gt, ge] ∧ Comparable (.address (2 ^ 64 - 1)) (.int 0) ∧
      lt.Holds (.address (2 ^ 64 - 1)) (.int 0) ∧ lt.Holds (.int 0) (.address 7) ∧
      (∃ v, le.apply (.address (2 ^ 64 - 1)) (.int 0) = .ok v) ∧
      (∃! op, op ∈ [lt, eq, gt] ∧ op.Holds (.address (2 ^ 64 - 1)) (.int 0)) ∧
      gt.Holds (.int 0) (.address (2 ^ 64 - 1)) ∧ lt.Holds (.address (2 ^ 64 - 1)) (.address 7) := by
  let greatest : Exact := ⟨.address (2 ^ 64 - 1), id⟩
  let zero : Exact := ⟨.int 0, id⟩
  let small : Exact := ⟨.address 7, id⟩
  have member : Logic.le ∈ [lt, le, gt, ge] := by decide
  have comparable : Comparable greatest zero := .inl ⟨trivial, trivial⟩
  have first : lt.Holds greatest zero := rfl
  have second : lt.Holds zero small := rfl
  obtain ⟨_, _, succeeds, coherent, transitive⟩ := relations_are_coherent
  obtain ⟨one, _, _, mirrored⟩ := coherent greatest zero comparable
  exact ⟨member, comparable, first, second, (succeeds greatest zero .le member).mpr comparable, one,
    mirrored.mp first, transitive greatest zero small first second⟩

end Pushdown
