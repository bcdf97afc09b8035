import Mathlib.Data.List.Pairwise
import Pushdown.Proofs.Layout
import Pushdown.Proofs.Memory

/-! What an emitter leaves behind is the code of the tree. Besides, the memory holds at the address of a
name the place of the last label of that name, and nothing if there is none. The invariant speaks of
the labels passed so far; each action says what it adds to code and labels. -/
namespace Pushdown

namespace SymbolTable

def addressOf (t : SymbolTable) (x : String) : Nat := ((t.find? x).map Entry.address).getD 0

/-- The addresses of the names in the table are the given ones. -/
def Agrees (t : SymbolTable) (address : String → Nat) : Prop :=
  ∀ x entry, t.find? x = some entry → address x = entry.address

theorem agrees_addressOf (t : SymbolTable) : t.Agrees t.addressOf := by
  intro x entry found
  simp [addressOf, found]

/-- Two entries have neither name nor address in common. -/
def Distinct (t : SymbolTable) : Prop :=
  t.entries.Pairwise fun a b => a.name ≠ b.name ∧ a.address ≠ b.address

theorem find?_append {t : SymbolTable} {x : String} {entry : Entry} (new : Entry)
    (found : t.find? x = some entry) : find? ⟨t.entries ++ [new]⟩ x = some entry := by
  simp only [find?] at found ⊢
  rw [List.find?_append, found]
  rfl

theorem name_of_find? {t : SymbolTable} {x : String} {entry : Entry}
    (found : t.find? x = some entry) : entry ∈ t.entries ∧ entry.name = x :=
  ⟨List.mem_of_find?_eq_some found, by simpa using List.find?_some found⟩

theorem find?_of_mem {t : SymbolTable} (distinct : t.Distinct) {entry : Entry}
    (member : entry ∈ t.entries) : t.find? entry.name = some entry := by
  obtain ⟨entries⟩ := t
  simp only [find?, Distinct] at *
  induction entries with
  | nil => cases member
  | cons first rest ih =>
    obtain ⟨fresh, distinct⟩ := List.pairwise_cons.mp distinct
    rcases List.mem_cons.mp member with rfl | member
    · simp
    · have other := (fresh entry member).1
      simp [other, ih distinct member]

/-- Different names are not at one address. -/
theorem address_ne {t : SymbolTable} (distinct : t.Distinct) {a b : Entry} (left : a ∈ t.entries)
    (right : b ∈ t.entries) (other : a.name ≠ b.name) : a.address ≠ b.address := by
  have symmetric : Std.Symm fun a b : Entry => a.name ≠ b.name ∧ a.address ≠ b.address :=
    ⟨fun _ _ apart => ⟨apart.1.symm, apart.2.symm⟩⟩
  exact (List.Pairwise.forall distinct left right fun same => other (congrArg Entry.name same)).2

end SymbolTable

/-- The place of the last of the labels with a name. -/
def lastLabel (labels : List (String × Nat)) (x : String) : Option Nat := labels.reverse.lookup x

theorem lastLabel_append (front back : List (String × Nat)) (x : String) :
    lastLabel (front ++ back) x = (lastLabel back x).or (lastLabel front x) := by
  simp [lastLabel, List.lookup_append]

/-- What the cell of a name holds. -/
def mark (labels : List (String × Nat)) (x : String) : Cell :=
  match lastLabel labels x with
  | some place => .address place
  | none => .unset

namespace Emitter

/-- The table and the memory fit together, and the memory tells the labels passed so far. -/
structure Settled (e : Emitter) (labels : List (String × Nat)) : Prop where
  distinct : e.symbols.Distinct
  below : ∀ entry ∈ e.symbols.entries, entry.address ≤ e.program.data.cells.size
  fits : e.program.data.cells.size ≤ e.program.data.capacity
  marked : ∀ p ∈ labels, ∃ entry, e.symbols.find? p.1 = some entry
  content : ∀ entry ∈ e.symbols.entries,
    e.program.data.load entry.address = .ok (mark labels entry.name)
  blank : ∀ a cell, e.program.data.load a = .ok cell →
    cell = .unset ∨ ∃ entry ∈ e.symbols.entries, entry.address = a

/-- Code and frames are not spoken of. -/
theorem Settled.of_code {e e' : Emitter} {labels : List (String × Nat)} (settled : e.Settled labels)
    (symbols : e'.symbols = e.symbols) (data : e'.program.data = e.program.data) :
    e'.Settled labels := by
  refine ⟨?_, ?_, ?_, ?_, ?_, ?_⟩
  · rw [symbols]
    exact settled.distinct
  · rw [symbols, data]
    exact settled.below
  · rw [data]
    exact settled.fits
  · rw [symbols]
    exact settled.marked
  · rw [symbols, data]
    exact settled.content
  · rw [symbols, data]
    exact settled.blank

/-- What a piece of emission adds: code, labels, and entries for names. Everything else stays. -/
structure Adds (e e' : Emitter) (code : (String → Nat) → List Cell) (labels : List (String × Nat))
    (names : List String) : Prop where
  actions : e'.actions = e.actions
  frames : e'.frames = e.frames
  known : ∀ x entry, e.symbols.find? x = some entry → e'.symbols.find? x = some entry
  named : ∀ x ∈ names, ∃ entry, e'.symbols.find? x = some entry
  code : ∀ address, e'.symbols.Agrees address →
    e'.program.code.toList = e.program.code.toList ++ code address
  settled : ∀ before, e.Settled before → e'.Settled (before ++ labels)

namespace Adds

variable {e e' e'' : Emitter} {code code' : (String → Nat) → List Cell}
  {labels labels' : List (String × Nat)} {names names' : List String}

theorem agrees (adds : e.Adds e' code labels names) {address : String → Nat}
    (agrees : e'.symbols.Agrees address) : e.symbols.Agrees address :=
  fun x entry found => agrees x entry (adds.known x entry found)

theorem trans (first : e.Adds e' code labels names) (second : e'.Adds e'' code' labels' names') :
    e.Adds e'' (fun address => code address ++ code' address) (labels ++ labels')
      (names ++ names') where
  actions := second.actions.trans first.actions
  frames := second.frames.trans first.frames
  known x entry found := second.known x entry (first.known x entry found)
  named x member := by
    rcases List.mem_append.mp member with inFirst | inSecond
    · obtain ⟨entry, found⟩ := first.named x inFirst
      exact ⟨entry, second.known x entry found⟩
    · exact second.named x inSecond
  code address agrees := by
    rw [second.code address agrees, first.code address (second.agrees agrees), List.append_assoc]
  settled before settled := by
    rw [← List.append_assoc]
    exact second.settled _ (first.settled before settled)

theorem nextIndex (adds : e.Adds e' code labels names) {size : Nat}
    (length : ∀ address, (code address).length = size) :
    e'.program.nextIndex = e.program.nextIndex + size := by
  have code := congrArg List.length (adds.code _ (SymbolTable.agrees_addressOf _))
  simp only [List.length_append, Array.length_toList, length] at code
  simp only [Program.nextIndex, code]
  omega

theorem refl (e : Emitter) : e.Adds e (fun _ => []) [] [] where
  actions := rfl
  frames := rfl
  known _ _ found := found
  named _ member := absurd member List.not_mem_nil
  code _ _ := (List.append_nil _).symm
  settled before settled := by rwa [List.append_nil]

theorem emit (e : Emitter) (cell : Cell) :
    e.Adds { e with program := e.program.emit cell } (fun _ => [cell]) [] [] where
  actions := rfl
  frames := rfl
  known _ _ found := found
  named _ member := absurd member List.not_mem_nil
  code _ _ := by simp [Program.emit]
  settled before settled := by
    rw [List.append_nil]
    exact settled.of_code rfl rfl

end Adds

theorem lastLabel_eq_none {labels : List (String × Nat)} {x : String}
    (absent : ∀ p ∈ labels, p.1 ≠ x) : lastLabel labels x = none := by
  simp only [lastLabel, List.lookup_eq_none_iff, List.mem_reverse]
  intro p member
  simpa using (absent p member).symm

/-- The emitter after a new entry with unset cells behind the memory. -/
def reserved (e : Emitter) (x : String) (kind : StorageKind) (size : Nat) : Emitter :=
  { e with
    symbols := ⟨e.symbols.entries ++ [⟨x, kind, e.program.data.nextAddress, size⟩]⟩
    program := { e.program with data := { e.program.data with
      cells := e.program.data.cells ++ Array.replicate size .unset } } }

theorem Settled.reserved {e : Emitter} {labels : List (String × Nat)} {x : String} {kind : StorageKind}
    {size : Nat} (settled : e.Settled labels) (fresh : e.symbols.find? x = none) (positive : 0 < size)
    (room : e.program.data.cells.size + size ≤ e.program.data.capacity) :
    (e.reserved x kind size).Settled labels where
  distinct := by
    refine List.pairwise_append.mpr ⟨settled.distinct, List.pairwise_singleton .., ?_⟩
    intro entry member new isNew
    obtain rfl := List.mem_singleton.mp isNew
    constructor
    · simpa using List.find?_eq_none.mp fresh entry member
    · have below := settled.below entry member
      simp only [Memory.nextAddress]
      omega
  below entry member := by
    simp only [Emitter.reserved, Array.size_append, Array.size_replicate]
    rcases List.mem_append.mp member with old | isNew
    · have below := settled.below entry old
      omega
    · obtain rfl := List.mem_singleton.mp isNew
      simp only [Memory.nextAddress]
      omega
  fits := by simpa [Emitter.reserved] using room
  marked p member := by
    obtain ⟨entry, found⟩ := settled.marked p member
    exact ⟨entry, SymbolTable.find?_append _ found⟩
  content entry member := by
    rcases List.mem_append.mp member with old | isNew
    · exact Memory.load_extend (settled.content entry old)
    · obtain rfl := List.mem_singleton.mp isNew
      have unmarked : lastLabel labels x = none := by
        refine lastLabel_eq_none fun p member same => ?_
        obtain ⟨entry, found⟩ := settled.marked p member
        rw [same, fresh] at found
        cases found
      refine Memory.load_eq_ok_iff.mpr ⟨by simp [Memory.nextAddress], ?_⟩
      simp [Emitter.reserved, Memory.nextAddress, mark, unmarked, positive]
  blank a cell loaded := by
    rcases Memory.load_of_extend loaded with unset | old
    · exact .inl unset
    · refine (settled.blank a cell old).imp_right ?_
      rintro ⟨entry, member, same⟩
      exact ⟨entry, List.mem_append_left _ member, same⟩

theorem find?_reserved {e : Emitter} {x : String} {kind : StorageKind} {size : Nat}
    (fresh : e.symbols.find? x = none) :
    (e.reserved x kind size).symbols.find? x =
      some ⟨x, kind, e.program.data.nextAddress, size⟩ := by
  simp only [SymbolTable.find?] at fresh
  simp [Emitter.reserved, SymbolTable.find?, List.find?_append, fresh]

theorem Adds.reserved {e : Emitter} {x : String} (kind : StorageKind) {size : Nat}
    (fresh : e.symbols.find? x = none) (positive : 0 < size)
    (room : e.program.data.cells.size + size ≤ e.program.data.capacity) :
    e.Adds (e.reserved x kind size) (fun _ => []) [] [x] where
  actions := rfl
  frames := rfl
  known _ _ found := SymbolTable.find?_append _ found
  named y member := by
    obtain rfl := List.mem_singleton.mp member
    exact ⟨_, find?_reserved fresh⟩
  code _ _ := (List.append_nil _).symm
  settled before settled := by
    rw [List.append_nil]
    exact settled.reserved fresh positive room

theorem entry_eq (e : Emitter) (x : String) (kind : StorageKind) (size : Nat) :
    entry x kind size e =
      match e.symbols.find? x with
      | some entry => .ok entry e
      | none =>
        match Memory.allocate size e.program.data with
        | .ok address data => .ok ⟨x, kind, address, size⟩
            { e.withData data with symbols := ⟨e.symbols.entries ++ [⟨x, kind, address, size⟩]⟩ }
        | .error error data => .error (.memory error) (e.withData data) := by
  rw [entry, bind_get]
  simp only [bind, EStateM.bind, onData, Memory.inside, SymbolTable.reserve]
  cases e.symbols.find? x with
  | some entry => rfl
  | none =>
    simp only [EStateM.bind]
    cases Memory.allocate size e.program.data <;> rfl

/-- All that looking up a name can do. -/
inductive Entered (e : Emitter) (x : String) (kind : StorageKind) (size : Nat) :
    EStateM.Result EmitError Emitter Entry → Prop
  | known {entry : Entry} : e.symbols.find? x = some entry → Entered e x kind size (.ok entry e)
  | reserved : e.symbols.find? x = none →
      e.program.data.cells.size + size ≤ e.program.data.capacity →
      Entered e x kind size
        (.ok ⟨x, kind, e.program.data.nextAddress, size⟩ (e.reserved x kind size))
  | full : e.program.data.capacity < e.program.data.cells.size + size →
      Entered e x kind size (.error (.memory .outOfMemory) e)

theorem entry_entered (e : Emitter) (x : String) (kind : StorageKind) (size : Nat) :
    Entered e x kind size (entry x kind size e) := by
  rw [entry_eq]
  cases found : e.symbols.find? x with
  | some entry => exact .known found
  | none =>
    rw [Memory.allocate_eq]
    by_cases exceeded : e.program.data.capacity < e.program.data.cells.size + size
    · simp only [if_pos exceeded]
      exact .full exceeded
    · simp only [if_neg exceeded]
      exact .reserved found (Nat.le_of_not_lt exceeded)

/-- A cell is stored to, unless its address is refused. -/
theorem onData_store (e : Emitter) (a : Nat) (cell : Cell) :
    onData (Memory.store a cell) e =
      match e.program.data.refusal? a with
      | some error => .error (.memory error) e
      | none => .ok () (e.withData (e.program.data.put a cell)) := by
  rw [onData, Memory.inside, Memory.store_eq]
  cases e.program.data.refusal? a <;> rfl

theorem entry_ok {e e' : Emitter} {x : String} {kind : StorageKind} {size : Nat} {r : Entry}
    (positive : 0 < size) (done : entry x kind size e = .ok r e') :
    e.Adds e' (fun _ => []) [] [x] ∧ e'.symbols.find? x = some r := by
  have entered := entry_entered e x kind size
  rw [done] at entered
  cases entered with
  | known found =>
    refine ⟨⟨rfl, rfl, fun _ _ found => found, fun y member => ?_, fun _ _ => ?_, fun _ _ => ?_⟩,
      found⟩
    · obtain rfl := List.mem_singleton.mp member
      exact ⟨r, found⟩
    · rw [List.append_nil]
    · rwa [List.append_nil]
  | reserved fresh room => exact ⟨.reserved kind fresh positive room, find?_reserved fresh⟩

/-- Writes a cell with the address of a name, once the name has an entry. -/
theorem Adds.named_code {e e' : Emitter} {names : List String} {x : String} {entry : Entry}
    (code : Nat → List Cell) (adds : e.Adds e' (fun _ => code entry.address) [] names)
    (found : e'.symbols.find? x = some entry) :
    e.Adds e' (fun address => code (address x)) [] names where
  actions := adds.actions
  frames := adds.frames
  known := adds.known
  named := adds.named
  code address agrees := by rw [agrees x entry found, adds.code address agrees]
  settled := adds.settled

theorem Adds.forget {e e' : Emitter} {code : (String → Nat) → List Cell}
    {labels : List (String × Nat)} {names : List String} (adds : e.Adds e' code labels names) :
    e.Adds e' code labels [] :=
  { adds with named := fun _ member => absurd member List.not_mem_nil }

end Emitter

open Emitter

/-- What an action adds wherever it is done. Code and labels depend on the place. -/
def Emits (act : Action Unit) (code : (String → Nat) → Nat → List Cell)
    (labels : Nat → List (String × Nat)) (names : List String) : Prop :=
  ∀ e e', act e = .ok () e' →
    e.Adds e' (fun address => code address e.program.nextIndex) (labels e.program.nextIndex) names

namespace Emits

variable {act next : Action Unit} {code code' : (String → Nat) → Nat → List Cell}
  {labels labels' : Nat → List (String × Nat)} {names names' : List String}

theorem pure : Emits (pure ()) (fun _ _ => []) (fun _ => []) [] := by
  rintro e _ ⟨⟩
  exact .refl e

theorem emit (cell : Cell) : Emits (Emitter.emit cell) (fun _ _ => [cell]) (fun _ => []) [] := by
  rintro e _ ⟨⟩
  exact .emit e cell

theorem bind (first : Emits act code labels names) (second : Emits next code' labels' names')
    {size : Nat} (length : ∀ address start, (code address start).length = size) :
    Emits (do act; next) (fun address start => code address start ++ code' address (start + size))
      (fun start => labels start ++ labels' (start + size)) (names ++ names') := by
  intro e e'' done
  obtain ⟨_, e', firstDone, secondDone⟩ := bind_eq_ok done
  have adds := first e e' firstDone
  have later := second e' e'' secondDone
  rw [adds.nextIndex fun address => length address _] at later
  exact adds.trans later

/-- Code that is the same at every place, without labels. -/
theorem append {code code' : (String → Nat) → List Cell}
    (first : Emits act (fun address _ => code address) (fun _ => []) names)
    (second : Emits next (fun address _ => code' address) (fun _ => []) names') :
    Emits (do act; next) (fun address _ => code address ++ code' address) (fun _ => [])
      (names ++ names') := by
  intro e e'' done
  obtain ⟨_, e', firstDone, secondDone⟩ := bind_eq_ok done
  exact (first e e' firstDone).trans (second e' e'' secondDone)

theorem forM {α : Type} {items : List α} {each : α → Action Unit}
    {code : (String → Nat) → α → List Cell}
    (emits : ∀ a, Emits (each a) (fun address _ => code address a) (fun _ => []) []) :
    Emits (items.forM each) (fun address _ => items.flatMap (code address)) (fun _ => []) [] := by
  induction items with
  | nil => exact .pure
  | cons a items ih => exact (emits a).append ih

end Emits

theorem Expr.emits (e : Expr) :
    Emits e.emit (fun address _ => e.code address) (fun _ => []) [] := by
  induction e with
  | literal n => exact (Emits.emit _).append (.emit _)
  | address x =>
    intro e e' done
    obtain ⟨_, e₁, literal, rest⟩ := bind_eq_ok done
    obtain ⟨entry, e₂, entered, last⟩ := bind_eq_ok rest
    obtain ⟨adds, found⟩ := entry_ok Nat.one_pos entered
    cases literal
    cases last
    exact (((Adds.emit e _).trans (adds.trans (Adds.emit e₂ _))).named_code
      (fun a => [.opcode .literal, .address a]) found).forget
  | fetch place ih => exact ih.append (.emit _)
  | negate e ih => exact ih.append (.emit _)
  | combine op l r left right =>
    have whole := left.append (right.append (.emit (.opcode op.opcode)))
    simpa only [Expr.emit, Expr.code, List.append_assoc, List.append_nil] using whole

theorem Condition.emits (c : Condition) :
    Emits c.emit (fun address _ => c.code address) (fun _ => []) [] := by
  have whole := c.left.emits.append (c.right.emits.append (.emit (.opcode c.relation.opcode)))
  simpa only [Condition.emit, Condition.code, List.append_assoc, List.append_nil] using whole

theorem Expr.emits_item (e : Expr) :
    Emits e.emitItem (fun address _ => e.itemCode address) (fun _ => []) [] :=
  e.emits.append (.emit _)

theorem Expr.emits_target (p : Expr) :
    Emits p.emitTarget (fun address _ => p.targetCode address) (fun _ => []) [] :=
  p.emits.append ((Emits.emit (.opcode .input)).append (.emit _))

theorem emits_goto (x : String) :
    Emits (Emitter.goto x) (fun address _ =>
      [.opcode .literal, .address (address x), .opcode .loadAt, .opcode .jump]) (fun _ => []) [x] := by
  intro e e' done
  obtain ⟨entry, e₁, entered, emitted⟩ := bind_eq_ok done
  obtain ⟨adds, found⟩ := entry_ok Nat.one_pos entered
  have rest := (Emits.emit (.opcode .literal)).append ((Emits.emit (.address entry.address)).append
    ((Emits.emit (.opcode .loadAt)).append (.emit (.opcode .jump)))) e₁ e' emitted
  exact (adds.trans rest).named_code
    (fun a => [.opcode .literal, .address a, .opcode .loadAt, .opcode .jump])
    (rest.known x entry found)

theorem mark_append_self (labels : List (String × Nat)) (x : String) (place : Nat) :
    mark (labels ++ [(x, place)]) x = .address place := by
  simp [mark, lastLabel]

theorem mark_append_of_ne (labels : List (String × Nat)) {x y : String} (place : Nat)
    (other : y ≠ x) : mark (labels ++ [(x, place)]) y = mark labels y := by
  have distinct : (y == x) = false := beq_eq_false_iff_ne.mpr other
  simp [mark, lastLabel, List.lookup_cons, distinct]

/-- The emitter after a label: the cell of the name holds the place. -/
theorem Emitter.Settled.label {e : Emitter} {labels : List (String × Nat)} {entry : Entry} {x : String}
    (settled : e.Settled labels) (found : e.symbols.find? x = some entry) (place : Nat) :
    ({ e with program := { e.program with
        data := e.program.data.put entry.address (.address place) } } : Emitter).Settled
      (labels ++ [(x, place)]) := by
  obtain ⟨member, rfl⟩ := SymbolTable.name_of_find? found
  have loaded := settled.content entry member
  have positive := (Memory.load_eq_ok_iff.mp loaded).1
  have below := settled.below entry member
  have accepted : e.program.data.refusal? entry.address = none :=
    Memory.refusal?_eq_none_iff.mpr ⟨positive, below.trans settled.fits⟩
  have size : (e.program.data.put entry.address (.address place)).cells.size =
      e.program.data.cells.size := by
    simp [Memory.put, Memory.padded]
    omega
  refine ⟨settled.distinct, ?_, ?_, ?_, ?_, ?_⟩
  · intro other otherMember
    rw [size]
    exact settled.below other otherMember
  · rw [size]
    exact settled.fits
  · intro p pMember
    rcases List.mem_append.mp pMember with old | new
    · exact settled.marked p old
    · obtain rfl := List.mem_singleton.mp new
      exact ⟨entry, found⟩
  · intro other otherMember
    by_cases same : other.name = entry.name
    · have sameEntry := SymbolTable.find?_of_mem settled.distinct otherMember
      rw [same, found] at sameEntry
      cases sameEntry
      rw [mark_append_self]
      exact Memory.load_put accepted
    · rw [mark_append_of_ne labels place same]
      exact Memory.load_put_of_ne (SymbolTable.address_ne settled.distinct otherMember member same)
        positive (settled.content other otherMember)
  · intro a cell loadedNext
    by_cases same : a = entry.address
    · exact .inr ⟨entry, member, same.symm⟩
    · rcases Memory.load_of_put same positive loadedNext with unset | old
      · exact .inl unset
      · exact settled.blank a cell old

theorem emits_label (x : String) :
    Emits (Emitter.label x) (fun _ _ => []) (fun start => [(x, start)]) [x] := by
  intro e e' done
  obtain ⟨_, _, ⟨⟩, entering⟩ := bind_eq_ok done
  obtain ⟨entry, e₁, entered, stored⟩ := bind_eq_ok entering
  obtain ⟨adds, found⟩ := entry_ok Nat.one_pos entered
  rw [onData_store] at stored
  split at stored
  · cases stored
  · cases stored
    exact { adds with
      settled := fun before settled =>
        Emitter.Settled.label (by simpa using adds.settled before settled) found _ }

/-- Filling in the target of a branch changes that cell of the code and nothing else. -/
theorem patch_branch {p : Program} {before after : List Cell} (target : Cell)
    (code : p.code.toList = before ++ .opcode .literal :: .unset :: after) :
    (p.patch (before.length + 2) target).2.code.toList =
        before ++ .opcode .literal :: target :: after ∧
      (p.patch (before.length + 2) target).2.data = p.data := by
  have present : p.code[before.length + 1]? = some .unset := by
    rw [← Array.getElem?_toList, code]
    simp
  have fetched : Program.fetch? p.code (before.length + 2) = some .unset := by
    simpa [Program.fetch?] using present
  simp only [Program.patch, fetched, and_true]
  rw [Array.toList_setIfInBounds, code]
  simp

/-- The emitter after a branch that has no target yet. -/
def Emitter.branching (e : Emitter) : Emitter :=
  { e with
    program := ((e.program.emit (.opcode .literal)).emit .unset).emit (.opcode .jumpUnless)
    frames := .branch (e.program.emit (.opcode .literal)).nextIndex :: e.frames }

theorem beginIf_eq (e : Emitter) : beginIf e = .ok () e.branching := rfl

theorem endIf_eq {e : Emitter} {place : Nat} {rest : Stack Frame}
    (frames : e.frames = .branch place :: rest) :
    endIf e = .ok () { e with
      frames := rest, program := (e.program.patch place (.address e.program.nextIndex)).2 } := by
  obtain ⟨actions, symbols, program, _⟩ := e
  subst frames
  rfl

theorem Emits.branch {body : Action Unit} {code : (String → Nat) → Nat → List Cell}
    {labels : Nat → List (String × Nat)} {names : List String} {size : Nat}
    (emits : Emits body code labels names)
    (length : ∀ address start, (code address start).length = size) :
    Emits (do beginIf; body; endIf)
      (fun address start => [.opcode .literal, .address (start + (3 + size)), .opcode .jumpUnless] ++
        code address (start + 3)) (fun start => labels (start + 3)) names := by
  intro e e' done
  obtain ⟨_, e₁, begun, done⟩ := bind_eq_ok done
  obtain ⟨_, e₂, inner, ended⟩ := bind_eq_ok done
  rw [beginIf_eq] at begun
  cases begun
  have adds := emits _ e₂ inner
  have start : e.branching.program.nextIndex = e.program.nextIndex + 3 := by
    simp [Emitter.branching, Program.nextIndex, Program.emit]
  have place : (e.program.emit (.opcode .literal)).nextIndex = e.program.code.toList.length + 2 := by
    simp [Program.nextIndex, Program.emit]
  rw [endIf_eq adds.frames, place, adds.nextIndex fun address => length address _, start,
    Nat.add_assoc] at ended
  cases ended
  have written (address : String → Nat) (agrees : e₂.symbols.Agrees address) :
      e₂.program.code.toList = e.program.code.toList ++
        .opcode .literal :: .unset :: .opcode .jumpUnless ::
          code address (e.program.nextIndex + 3) := by
    rw [adds.code address agrees, start]
    simp [Emitter.branching, Program.emit]
  have patched (address : String → Nat) (agrees : e₂.symbols.Agrees address) :=
    patch_branch (.address (e.program.nextIndex + (3 + size))) (written address agrees)
  have data := (patched _ (SymbolTable.agrees_addressOf _)).2
  refine ⟨adds.actions, rfl, adds.known, adds.named,
    fun address agrees => (patched address agrees).1, fun before settled => ?_⟩
  have inner := adds.settled before (settled.of_code rfl rfl)
  rw [start] at inner
  exact inner.of_code rfl data

namespace Statement

mutual

theorem emits (s : Statement) : Emits s.emit (fun address start => s.code address start)
    (fun start => s.labels start) s.names := by
  cases s with
  | assign target value =>
    have whole := target.emits.append (value.emits.append (.emit (.opcode .storeAt)))
    simpa only [emit, code, labels, names, List.append_assoc, List.append_nil] using whole
  | put items => simpa only [emit, code, labels, names] using Emits.forM Expr.emits_item
  | get targets => simpa only [emit, code, labels, names] using Emits.forM Expr.emits_target
  | stop => simpa only [emit, code, labels, names] using Emits.emit (.opcode .quit)
  | goto x => simpa only [emit, code, labels, names] using emits_goto x
  | branch c body =>
    have inner := (emits body).branch fun address start => length_code address start body
    have whole := c.emits.bind inner fun address _ => Condition.length_code address c
    simpa only [emit, code, labels, names, List.append_assoc, List.nil_append, Nat.add_assoc]
      using whole
  | group body => simpa only [emit, code, labels, names] using emitsAll body
  | labelled x body =>
    have whole := (emits_label x).bind (emits body) fun _ _ => rfl
    simpa only [emit, code, labels, names, List.nil_append, List.singleton_append, Nat.add_zero,
      List.length_nil] using whole

theorem emitsAll (ss : List Statement) :
    Emits (emitAll ss) (fun address start => codeAll address start ss)
      (fun start => labelsAll start ss) (namesAll ss) := by
  cases ss with
  | nil => simpa only [emitAll, codeAll, labelsAll, namesAll] using Emits.pure
  | cons s rest =>
    have whole := (emits s).bind (emitsAll rest) fun address start => length_code address start s
    simpa only [emitAll, codeAll, labelsAll, namesAll] using whole

end

end Statement

theorem Declaration.emits (d : Declaration) :
    Emits d.emit (fun _ _ => []) (fun _ => []) [] := by
  intro e e' done
  obtain ⟨entry, _, entered, ⟨⟩⟩ := bind_eq_ok done
  exact (entry_ok (Nat.succ_pos _) entered).1.forget

theorem Source.emits (source : Source) :
    Emits source.emit
      (fun address start => Statement.codeAll address start source.statements ++ [.opcode .quit])
      (fun start => Statement.labelsAll start source.statements)
      (Statement.namesAll source.statements) := by
  have declarations : Emits (source.declarations.forM Declaration.emit)
      (fun _ _ => source.declarations.flatMap fun _ => []) (fun _ => []) [] :=
    .forM Declaration.emits
  have empty : source.declarations.flatMap (fun _ => ([] : List Cell)) = [] := by simp
  have statements := (Statement.emitsAll source.statements).bind (.emit (.opcode .quit))
    fun address start => Statement.length_codeAll address start source.statements
  rw [empty] at declarations
  simpa only [Source.emit, List.nil_append, List.append_nil, List.length_nil, Nat.add_zero]
    using declarations.bind statements fun _ _ => rfl

/-- A whole program: its code, and the cells of the names that are jumped to or stand as labels. -/
structure Placed (source : Source) (symbols : SymbolTable) (program : Program) : Prop where
  code : program.code.toList =
    Statement.codeAll symbols.addressOf 1 source.statements ++ [.opcode .quit]
  content : ∀ x ∈ Statement.namesAll source.statements,
    program.data.load (symbols.addressOf x) =
      .ok (mark (Statement.labelsAll 1 source.statements) x)

theorem settled_empty (actions : List Symbol) : Emitter.Settled { actions := actions } [] :=
  ⟨.nil, by simp, by simp [Memory.empty, Memory.withCapacity], by simp, by simp,
    by simp [Memory.load_eq_ok_iff, Memory.empty, Memory.withCapacity]⟩

theorem Source.settled {source : Source} {actions : List Symbol} {e : Emitter}
    (done : source.emit { actions := actions } = .ok () e) :
    e.Settled (Statement.labelsAll 1 source.statements) :=
  (source.emits _ e done).settled [] (settled_empty actions)

theorem Source.placed {source : Source} {actions : List Symbol} {e : Emitter}
    (done : source.emit { actions := actions } = .ok () e) : Placed source e.symbols e.program := by
  have adds := source.emits _ e done
  refine ⟨adds.code _ (SymbolTable.agrees_addressOf _), fun x member => ?_⟩
  obtain ⟨entry, found⟩ := adds.named x member
  obtain ⟨listed, rfl⟩ := SymbolTable.name_of_find? found
  rw [SymbolTable.agrees_addressOf _ _ entry found]
  exact (settled done).content entry listed

end Pushdown
