import Pushdown.Machine.Memory
import Pushdown.Text.Column

/-! Names and the memory reserved for them. Scalars, arrays and labels share one table; the first use of
a name decides its entry. Entries are kept as they were created and listed by their addresses. -/
namespace Pushdown

inductive StorageKind where
  | scalar
  | array
  | label
deriving Repr, DecidableEq

def StorageKind.render : StorageKind → String
  | .scalar => "scalar"
  | .array => "array"
  | .label => "label"

/-- A name with the first address and the number of its cells. -/
structure Entry where
  name : String
  kind : StorageKind
  address : Nat
  size : Nat
deriving Repr, DecidableEq

structure SymbolTable where
  entries : List Entry := []
deriving Repr, DecidableEq

namespace SymbolTable

def find? (t : SymbolTable) (name : String) : Option Entry := t.entries.find? (·.name = name)

/-- The entry of a name. A new name gets the next cells of the memory; the entry of a known one stays
as it is, whatever was asked for. -/
def reserve (t : SymbolTable) (name : String) (kind : StorageKind) (size : Nat) :
    Memory.Action (Entry × SymbolTable) :=
  match t.find? name with
  | some entry => return (entry, t)
  | none => do
    let entry := ⟨name, kind, ← Memory.allocate size, size⟩
    return (entry, ⟨t.entries ++ [entry]⟩)

/-- The entries in the order of their addresses. -/
def listing (t : SymbolTable) : List Entry := t.entries.mergeSort (·.address ≤ ·.address)

def render (t : SymbolTable) : String :=
  let width := Text.widest (t.entries.map Entry.name)
  String.join (t.listing.map fun e =>
    s!"{Text.alignRight width e.name} = {e.kind.render} at {e.address}, size {e.size}\n")

end SymbolTable

end Pushdown
