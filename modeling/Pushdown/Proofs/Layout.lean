import Pushdown.Proofs.Emission

/-! The code of a program, written down from its tree, and the places of its labels. Addresses of names
are known only when all is emitted, so code is a function of them; the target of a branch follows from
the place where the statement begins. -/
namespace Pushdown

namespace Expr

def size : Expr → Nat
  | .literal _ | .address _ => 2
  | .fetch place => place.size + 1
  | .negate e => e.size + 1
  | .combine _ l r => l.size + r.size + 1

def code (address : String → Nat) : Expr → List Cell
  | .literal n => [.opcode .literal, .int n]
  | .address x => [.opcode .literal, .address (address x)]
  | .fetch place => place.code address ++ [.opcode .loadAt]
  | .negate e => e.code address ++ [.opcode .neg]
  | .combine op l r => l.code address ++ r.code address ++ [.opcode op.opcode]

@[simp] theorem length_code (address : String → Nat) (e : Expr) :
    (e.code address).length = e.size := by
  induction e with
  | literal | address => rfl
  | fetch place ih => simp [code, size, ih]
  | negate e ih => simp [code, size, ih]
  | combine op l r left right => simp [code, size, left, right]; omega

/-- The size of expressions with a number of cells behind each. -/
def sizeAll (behind : Nat) : List Expr → Nat
  | [] => 0
  | e :: rest => e.size + behind + sizeAll behind rest

theorem length_flatMap {behind : Nat} {code : Expr → List Cell}
    (each : ∀ e, (code e).length = e.size + behind) (es : List Expr) :
    (es.flatMap code).length = sizeAll behind es := by
  induction es with
  | nil => rfl
  | cons e rest ih => rw [List.flatMap_cons, List.length_append, each, ih, sizeAll]

/-- An item of an output statement. -/
def itemCode (address : String → Nat) (e : Expr) : List Cell :=
  e.code address ++ [.opcode .output]

/-- A target of an input statement. -/
def targetCode (address : String → Nat) (p : Expr) : List Cell :=
  p.code address ++ [.opcode .input, .opcode .storeAt]

end Expr

namespace Condition

def size (c : Condition) : Nat := c.left.size + c.right.size + 1

def code (address : String → Nat) (c : Condition) : List Cell :=
  c.left.code address ++ c.right.code address ++ [.opcode c.relation.opcode]

@[simp] theorem length_code (address : String → Nat) (c : Condition) :
    (c.code address).length = c.size := by
  simp [code, size]; omega

end Condition

namespace Statement

mutual

def size : Statement → Nat
  | .assign target value => target.size + value.size + 1
  | .put items => Expr.sizeAll 1 items
  | .get targets => Expr.sizeAll 2 targets
  | .stop => 1
  | .goto _ => 4
  | .branch c body => c.size + 3 + body.size
  | .group body => sizeAll body
  | .labelled _ body => body.size

def sizeAll : List Statement → Nat
  | [] => 0
  | s :: rest => s.size + sizeAll rest

end

mutual

/-- The code of a statement that begins at a place. -/
def code (address : String → Nat) (start : Nat) : Statement → List Cell
  | .assign target value => target.code address ++ value.code address ++ [.opcode .storeAt]
  | .put items => items.flatMap (Expr.itemCode address)
  | .get targets => targets.flatMap (Expr.targetCode address)
  | .stop => [.opcode .quit]
  | .goto x => [.opcode .literal, .address (address x), .opcode .loadAt, .opcode .jump]
  | .branch c body =>
    c.code address ++
      [.opcode .literal, .address (start + (c.size + 3 + body.size)), .opcode .jumpUnless] ++
      body.code address (start + (c.size + 3))
  | .group body => codeAll address start body
  | .labelled _ body => body.code address start

def codeAll (address : String → Nat) (start : Nat) : List Statement → List Cell
  | [] => []
  | s :: rest => s.code address start ++ codeAll address (start + s.size) rest

end

mutual

/-- The labels in a statement that begins at a place, with the places they denote. -/
def labels (start : Nat) : Statement → List (String × Nat)
  | .branch c body => body.labels (start + (c.size + 3))
  | .group body => labelsAll start body
  | .labelled x body => (x, start) :: body.labels start
  | _ => []

def labelsAll (start : Nat) : List Statement → List (String × Nat)
  | [] => []
  | s :: rest => s.labels start ++ labelsAll (start + s.size) rest

end

mutual

/-- The places where a statement that begins at a place, and the statements in it, begin. -/
def starts (start : Nat) : Statement → List Nat
  | .branch c body => start :: body.starts (start + (c.size + 3))
  | .group body => start :: startsAll start body
  | .labelled _ body => start :: body.starts start
  | _ => [start]

def startsAll (start : Nat) : List Statement → List Nat
  | [] => []
  | s :: rest => s.starts start ++ startsAll (start + s.size) rest

end

mutual

/-- The names that are jumped to or stand as labels. -/
def names : Statement → List String
  | .goto x => [x]
  | .branch _ body => body.names
  | .group body => namesAll body
  | .labelled x body => x :: body.names
  | _ => []

def namesAll : List Statement → List String
  | [] => []
  | s :: rest => s.names ++ namesAll rest

end

mutual

@[simp] theorem length_code (address : String → Nat) (start : Nat) (s : Statement) :
    (s.code address start).length = s.size := by
  cases s with
  | assign target value => simp [code, size]; omega
  | put items => exact Expr.length_flatMap (fun e => by simp [Expr.itemCode]) items
  | get targets => exact Expr.length_flatMap (fun e => by simp [Expr.targetCode]) targets
  | stop | goto => rfl
  | branch c body => simp [code, size, length_code]; omega
  | group body => simp [code, size, length_codeAll]
  | labelled x body => simp [code, size, length_code]

@[simp] theorem length_codeAll (address : String → Nat) (start : Nat) (ss : List Statement) :
    (codeAll address start ss).length = sizeAll ss := by
  cases ss with
  | nil => rfl
  | cons s rest => simp [codeAll, sizeAll, length_code, length_codeAll]

end

theorem namesAll_append (ss rest : List Statement) :
    namesAll (ss ++ rest) = namesAll ss ++ namesAll rest := by
  induction ss with
  | nil => simp [namesAll]
  | cons s ss ih => simp [namesAll, ih]

theorem codeAll_append (address : String → Nat) (start : Nat) (ss rest : List Statement) :
    codeAll address start (ss ++ rest) =
      codeAll address start ss ++ codeAll address (start + sizeAll ss) rest := by
  induction ss generalizing start with
  | nil => simp [codeAll, sizeAll]
  | cons s ss ih => simp [codeAll, sizeAll, ih, Nat.add_assoc]

end Statement

end Pushdown
