/-! Stacks. A stack is the list of its items with the top first, so that pushing a sequence puts
its first item on top. -/
namespace Pushdown

abbrev Stack (α : Type) := List α

namespace Stack

variable {α : Type}

abbrev push (s : Stack α) (item : α) : Stack α := item :: s

/-- Puts a sequence on top, its first item uppermost. -/
abbrev pushAll (s : Stack α) (items : List α) : Stack α := items ++ s

/-- The top, and the stack without it. -/
def pop? : Stack α → Option (α × Stack α)
  | [] => none
  | item :: rest => some (item, rest)

abbrev top? (s : Stack α) : Option α := s.head?

end Stack

end Pushdown
