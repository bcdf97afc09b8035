import Pushdown.Machine.Arithmetic
import Pushdown.Token.Scan

/-! The syntax of PL/H, apart from its grammar. Programs are trees; which tokens write a tree is told
by rules in the usual manner, where an operator stands between a tree of its own level and one of the
next level. So products bind tighter than sums, both group to the left, and a sign in front belongs to
the first term alone. -/
namespace Pushdown

namespace Token

def symbol (name : Symbol) : Token := ⟨name, none⟩

def identifier (x : String) : Token := ⟨"$id", some (.text x)⟩

def integer (n : Int64) : Token := ⟨"$int", some (.int n)⟩

/-- The tokens that a scanned text consists of: names have their text, integers a value that is
not negative, and no other token has a value. -/
inductive Shaped : Token → Prop
  | identifier (x : String) : Shaped (identifier x)
  | integer (n : Int64) : 0 ≤ n → Shaped (integer n)
  | symbol (name : Symbol) : name ≠ "$id" → name ≠ "$int" → Shaped (symbol name)

end Token

/-- Expressions. A variable is fetched from a place, which is itself an expression for an
address. -/
inductive Expr where
  | literal (n : Int64)
  /-- The address of a name. -/
  | address (x : String)
  /-- The cell at a place. -/
  | fetch (place : Expr)
  | negate (e : Expr)
  | combine (op : Arithmetic) (l r : Expr)

/-- What a phrase is to be: a place, a factor of a product, a term of a sum, or a sum. -/
inductive Expr.Level where
  | place
  | factor
  | term
  | sum

open Token in
/-- The tokens that write an expression at a level. -/
inductive Expr.Reads : Level → List Token → Expr → Prop
  | name (x : String) : Reads .place [identifier x] (.address x)
  | element (x : String) {ts : List Token} {e : Expr} : Reads .sum ts e →
      Reads .place (identifier x :: symbol "(" :: ts ++ [symbol ")"])
        (.combine .add (.address x) e)
  | variable {ts : List Token} {p : Expr} : Reads .place ts p → Reads .factor ts (.fetch p)
  | literal (n : Int64) : 0 ≤ n → Reads .factor [integer n] (.literal n)
  | parens {ts : List Token} {e : Expr} : Reads .sum ts e →
      Reads .factor (symbol "(" :: ts ++ [symbol ")"]) e
  | factor {ts : List Token} {e : Expr} : Reads .factor ts e → Reads .term ts e
  | times {ts us : List Token} {l r : Expr} : Reads .term ts l → Reads .factor us r →
      Reads .term (ts ++ symbol "*" :: us) (.combine .mul l r)
  | divided {ts us : List Token} {l r : Expr} : Reads .term ts l → Reads .factor us r →
      Reads .term (ts ++ symbol "/" :: us) (.combine .div l r)
  | term {ts : List Token} {e : Expr} : Reads .term ts e → Reads .sum ts e
  | positive {ts : List Token} {e : Expr} : Reads .term ts e → Reads .sum (symbol "+" :: ts) e
  | negative {ts : List Token} {e : Expr} : Reads .term ts e →
      Reads .sum (symbol "-" :: ts) (.negate e)
  | plus {ts us : List Token} {l r : Expr} : Reads .sum ts l → Reads .term us r →
      Reads .sum (ts ++ symbol "+" :: us) (.combine .add l r)
  | minus {ts us : List Token} {l r : Expr} : Reads .sum ts l → Reads .term us r →
      Reads .sum (ts ++ symbol "-" :: us) (.combine .sub l r)

structure Condition where
  relation : Logic
  left : Expr
  right : Expr

/-- How the relations are written. -/
def Condition.spellings : List (Logic × List Symbol) :=
  [(.eq, ["="]), (.gt, [">"]), (.ge, [">", "="]), (.lt, ["<"]), (.le, ["<", "="]),
   (.ne, ["<", ">"])]

inductive Condition.Reads : List Token → Condition → Prop
  | compare {relation : Logic} {spelling : List Symbol} {ts us : List Token} {l r : Expr} :
      (relation, spelling) ∈ spellings → l.Reads .sum ts → r.Reads .sum us →
      Reads (ts ++ spelling.map Token.symbol ++ us) ⟨relation, l, r⟩

/-- One or more parts with commas between them. -/
inductive Listing {α : Type} (part : List Token → α → Prop) : List Token → List α → Prop
  | one {ts : List Token} {a : α} : part ts a → Listing part ts [a]
  | more {ts us : List Token} {a : α} {as : List α} : part ts a → Listing part us as →
      Listing part (ts ++ .symbol "," :: us) (a :: as)

inductive Statement where
  | assign (target value : Expr)
  | put (items : List Expr)
  | get (targets : List Expr)
  | stop
  | goto (label : String)
  /-- A statement under a condition. -/
  | branch (condition : Condition) (body : Statement)
  | group (body : List Statement)
  | labelled (label : String) (body : Statement)

/-- A statement without a label, a statement, or a sequence of statements. -/
inductive Statement.Part where
  | bare
  | single
  | sequence

open Token in
/-- The tokens that write statements. -/
inductive Statement.Reads : Part → List Token → List Statement → Prop
  | assign {ts us : List Token} {p e : Expr} : p.Reads .place ts → e.Reads .sum us →
      Reads .bare (ts ++ symbol "=" :: us ++ [symbol ";"]) [.assign p e]
  | put {ts : List Token} {es : List Expr} : Listing (Expr.Reads .sum) ts es →
      Reads .bare (symbol "$put" :: ts ++ [symbol ";"]) [.put es]
  | get {ts : List Token} {ps : List Expr} : Listing (Expr.Reads .place) ts ps →
      Reads .bare (symbol "$get" :: ts ++ [symbol ";"]) [.get ps]
  | stop : Reads .bare [symbol "$stop", symbol ";"] [.stop]
  | goto (x : String) : Reads .bare [symbol "$goto", identifier x, symbol ";"] [.goto x]
  | branch {ts us : List Token} {c : Condition} {s : Statement} : c.Reads ts →
      Reads .single us [s] → Reads .bare (symbol "$if" :: ts ++ symbol "$then" :: us) [.branch c s]
  | group {ts : List Token} {ss : List Statement} : Reads .sequence ts ss →
      Reads .bare (symbol "$do" :: symbol ";" :: ts ++ [symbol "$end", symbol ";"]) [.group ss]
  | plain {ts : List Token} {s : Statement} : Reads .bare ts [s] → Reads .single ts [s]
  | labelled (x : String) {ts : List Token} {s : Statement} : Reads .bare ts [s] →
      Reads .single (symbol ":" :: identifier x :: symbol ":" :: ts) [.labelled x s]
  | nil : Reads .sequence [] []
  | cons {ts us : List Token} {s : Statement} {ss : List Statement} : Reads .single ts [s] →
      Reads .sequence us ss → Reads .sequence (ts ++ us) (s :: ss)

/-- An array with its greatest subscript. -/
structure Declaration where
  name : String
  greatest : Int64

open Token in
inductive Declaration.Reads : List Token → Declaration → Prop
  | array (x : String) (n : Int64) : 0 ≤ n →
      Reads [identifier x, symbol "(", integer n, symbol ")"] ⟨x, n⟩

/-- A program: its arrays in order, and its statements. -/
structure Source where
  declarations : List Declaration
  statements : List Statement

open Token in
inductive Source.Reads : List Token → Source → Prop
  | statements {ts : List Token} {ss : List Statement} : Statement.Reads .sequence ts ss →
      Reads ts ⟨[], ss⟩
  | declare {ts us : List Token} {ds : List Declaration} {source : Source} :
      Listing Declaration.Reads ts ds → Reads us source →
      Reads (symbol "$declare" :: ts ++ symbol ";" :: us)
        ⟨ds ++ source.declarations, source.statements⟩

end Pushdown
