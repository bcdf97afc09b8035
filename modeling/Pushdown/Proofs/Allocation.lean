import Mathlib
import Pushdown.Proofs.Duties

/-! Allocation of names. Actions may be called in any order, with any tokens, and after others have failed.
The entries of the table always fill the memory from the first cell on, without gaps and in the order of
their creation, and no entry is changed by what comes later. A call that fails leaves code, table and memory
as they were, and takes a frame at most; one that succeeds adds an entry at most. -/
namespace Pushdown

/-- A table as before, or one with a further entry, whose name was not known. -/
def SymbolTable.Grows (t t' : SymbolTable) : Prop :=
  t' = t ∨ ∃ entry, t.find? entry.name = none ∧ t'.entries = t.entries ++ [entry]

namespace Emitter

/-- An action with the token matched last. -/
abbrev Call := Symbol × Option Token

/-- The emitter after a call, whether the action succeeded or not. -/
def call (e : Emitter) (c : Call) : Emitter :=
  match routine c.1 c.2 e with
  | .ok _ e' | .error _ e' => e'

/-- The emitter after several calls. -/
def calls (e : Emitter) (cs : List Call) : Emitter := cs.foldl call e

theorem calls_append (e : Emitter) (first later : List Call) :
    e.calls (first ++ later) = (e.calls first).calls later :=
  List.foldl_append

/-- The entries that calls create, one after another: a call creates the entry whose name the table did
not know before it, if there is one. -/
def created (e : Emitter) : List Call → List Entry
  | [] => []
  | c :: cs =>
    ((e.call c).symbols.listing.find? (e.symbols.find? ·.name = none)).toList ++ (e.call c).created cs

/-- The entries fill the memory, each with its cells behind those of the entries before it. -/
structure Packed (e : Emitter) : Prop where
  settled : ∃ labels, e.Settled labels
  capacity : e.program.data.capacity = Memory.defaultCapacity
  size_pos : ∀ entry ∈ e.symbols.entries, 1 ≤ entry.size
  address_eq : ∀ i entry, e.symbols.entries[i]? = some entry →
    entry.address = 1 + ((e.symbols.entries.take i).map Entry.size).sum
  filled : e.program.data.cells.size = (e.symbols.entries.map Entry.size).sum

namespace Packed

variable {e e' : Emitter}

theorem initial (actions : List Symbol) : Packed { actions := actions } where
  settled := ⟨[], settled_empty actions⟩
  capacity := rfl
  size_pos _ member := absurd member List.not_mem_nil
  address_eq _ _ found := by simp at found
  filled := rfl

/-- Only the table and the extent of the memory are spoken of. -/
theorem of_extent (packed : e.Packed) (settled : ∃ labels, e'.Settled labels)
    (symbols : e'.symbols = e.symbols)
    (capacity : e'.program.data.capacity = e.program.data.capacity)
    (size : e'.program.data.cells.size = e.program.data.cells.size) : e'.Packed where
  settled := settled
  capacity := capacity.trans packed.capacity
  size_pos := symbols ▸ packed.size_pos
  address_eq := symbols ▸ packed.address_eq
  filled := by rw [size, symbols, packed.filled]

theorem reserved (packed : e.Packed) {x : String} (kind : StorageKind) {size : Nat}
    (fresh : e.symbols.find? x = none) (positive : 0 < size)
    (room : e.program.data.cells.size + size ≤ e.program.data.capacity) :
    (e.reserved x kind size).Packed where
  settled := by
    obtain ⟨labels, settled⟩ := packed.settled
    exact ⟨labels, settled.reserved fresh positive room⟩
  capacity := packed.capacity
  size_pos entry member := by
    rcases List.mem_append.mp member with old | new
    · exact packed.size_pos entry old
    · rw [List.mem_singleton.mp new]
      exact positive
  address_eq i entry found := by
    change (e.symbols.entries ++ [_])[i]? = some entry at found
    change entry.address = 1 + (((e.symbols.entries ++ [_]).take i).map Entry.size).sum
    rcases lt_trichotomy i e.symbols.entries.length with within | rfl | beyond
    · rw [List.getElem?_append_left within] at found
      rw [List.take_append_of_le_length within.le]
      exact packed.address_eq i entry found
    · rw [List.getElem?_concat_length] at found
      cases found
      rw [List.take_left, ← packed.filled]
      exact Nat.add_comm _ _
    · rw [List.getElem?_eq_none] at found
      · cases found
      · rw [List.length_append]
        exact beyond
  filled := by simp [Emitter.reserved, packed.filled]

/-- What lookup of a name does, unless it fails. -/
theorem entered (packed : e.Packed) {x : String} {kind : StorageKind} {size : Nat} {entry : Entry}
    (positive : 0 < size) (entered : Entered e x kind size (.ok entry e')) :
    e'.Packed ∧ e.symbols.Grows e'.symbols ∧ entry ∈ e'.symbols.entries := by
  cases entered with
  | known found => exact ⟨packed, .inl rfl, (SymbolTable.name_of_find? found).1⟩
  | reserved fresh room =>
    refine ⟨packed.reserved kind fresh positive room, .inr ⟨_, fresh, rfl⟩, ?_⟩
    exact List.mem_append_right _ (List.mem_singleton_self _)

theorem address_bounds (packed : e.Packed) {entry : Entry} (member : entry ∈ e.symbols.entries) :
    0 < entry.address ∧ entry.address ≤ e.program.data.cells.size := by
  obtain ⟨labels, settled⟩ := packed.settled
  obtain ⟨i, found⟩ := List.mem_iff_getElem?.mp member
  have address := packed.address_eq i entry found
  exact ⟨by omega, settled.below entry member⟩

/-- The cell of a name can always be stored to. -/
theorem accepted (packed : e.Packed) {entry : Entry} (member : entry ∈ e.symbols.entries) :
    e.program.data.refusal? entry.address = none := by
  obtain ⟨labels, settled⟩ := packed.settled
  obtain ⟨positive, within⟩ := packed.address_bounds member
  exact Memory.refusal?_eq_none_iff.mpr ⟨positive, within.trans settled.fits⟩

/-- A duty that is done adds an entry at most. -/
theorem performed (packed : e.Packed) {last : Option Token} {duty : Duty}
    (performed : Performed e last duty e') : e'.Packed ∧ e.symbols.Grows e'.symbols := by
  have settled : ∃ labels, e'.Settled labels := by
    obtain ⟨labels, settled⟩ := packed.settled
    exact ⟨_, settled.performed performed⟩
  cases performed with
  | emit | lastValue =>
    have same := writing_data e
    exact ⟨packed.of_extent settled rfl (by rw [same]) (by rw [same]), .inl rfl⟩
  | @address _ _ e₁ _ entering | @goto _ _ e₁ _ entering =>
    obtain ⟨packed, grows, _⟩ := packed.entered Nat.one_pos entering
    have same := writing_data e₁
    exact ⟨packed.of_extent settled rfl (by rw [same]) (by rw [same]), grows⟩
  | label _ entering =>
    obtain ⟨packed, grows, member⟩ := packed.entered Nat.one_pos entering
    have within := (packed.address_bounds member).2
    refine ⟨packed.of_extent settled rfl rfl ?_, grows⟩
    exact (Memory.size_put ..).trans (Nat.max_eq_left within)
  | push | beginIf => exact ⟨packed.of_extent settled rfl rfl rfl, .inl rfl⟩
  | @declare _ _ rest _ _ _ frames entering =>
    obtain ⟨labels, before⟩ := packed.settled
    have popped : Packed { e with frames := rest } :=
      packed.of_extent ⟨labels, before.of_code rfl rfl⟩ rfl rfl rfl
    obtain ⟨packed, grows, _⟩ := popped.entered (Nat.succ_pos _) entering
    exact ⟨packed, grows⟩
  | @endIf place _ _ =>
    have same : (e.program.patch place (.address e.program.nextIndex)).2.data = e.program.data := by
      unfold Program.patch
      split <;> rfl
    exact ⟨packed.of_extent settled rfl (by rw [same]) (by rw [same]), .inl rfl⟩

/-- Later entries have greater addresses, since none is without cells. -/
theorem rising (packed : e.Packed) :
    e.symbols.entries.Pairwise fun a b => a.address < b.address := by
  refine List.pairwise_iff_getElem.mpr fun i j before within earlier => ?_
  have first := packed.address_eq i _ (List.getElem?_eq_getElem before)
  have second := packed.address_eq j _ (List.getElem?_eq_getElem within)
  have size := packed.size_pos _ (List.getElem_mem before)
  have sums := List.monotone_sum_take (e.symbols.entries.map Entry.size) (Nat.succ_le_of_lt earlier)
  simp only [← List.map_take] at sums
  rw [List.take_succ_eq_append_getElem before, List.map_append, List.sum_append] at sums
  simp only [List.map_cons, List.map_nil, List.sum_singleton] at sums
  omega

/-- Address order is the order of creation, in whatever order a table holds the entries. -/
theorem listing_of_perm (packed : e.Packed) {t : SymbolTable} (same : t.entries.Perm e.symbols.entries) :
    t.listing = e.symbols.entries := by
  have sorted : t.listing.Pairwise fun a b => decide (a.address ≤ b.address) = true := by
    apply List.pairwise_mergeSort
    · intro a b c first second
      exact decide_eq_true ((of_decide_eq_true first).trans (of_decide_eq_true second))
    · intro a b
      rw [Bool.or_eq_true, decide_eq_true_iff, decide_eq_true_iff]
      exact Nat.le_total _ _
  have listed : t.listing.Perm e.symbols.entries := (List.mergeSort_perm _ _).trans same
  have distinct : t.listing.Pairwise fun a b => a.address ≠ b.address :=
    (listed.pairwise_iff fun other => other.symm).mpr (packed.rising.imp Nat.ne_of_lt)
  have strict : t.listing.Pairwise fun a b => a.address < b.address :=
    (sorted.and distinct).imp fun both => Nat.lt_of_le_of_ne (of_decide_eq_true both.1) both.2
  exact listed.eq_of_pairwise (fun _ _ _ _ before after => absurd after (Nat.lt_asymm before)) strict
    packed.rising

theorem listing_eq (packed : e.Packed) : e.symbols.listing = e.symbols.entries :=
  packed.listing_of_perm (.refl _)

end Packed

theorem valueOf_error {action : Symbol} {last : Option Token} {e e' : Emitter} {error : EmitError}
    (failed : valueOf action last e = .error error e') : e' = e := by
  unfold valueOf at failed
  cases value : last.bind Token.value with
  | none =>
    rw [value] at failed
    cases failed
    rfl
  | some _ =>
    rw [value] at failed
    cases failed

theorem nameOf_error {action : Symbol} {last : Option Token} {e e' : Emitter} {error : EmitError}
    (failed : nameOf action last e = .error error e') : e' = e := by
  rcases bind_eq_error failed with missing | ⟨v, _, valued, wrong⟩
  · exact valueOf_error missing
  · obtain ⟨_, rfl⟩ := valueOf_ok valued
    split at wrong
    · cases wrong
    · cases wrong
      rfl

theorem subscriptOf_error {action : Symbol} {last : Option Token} {e e' : Emitter}
    {error : EmitError} (failed : subscriptOf action last e = .error error e') : e' = e := by
  rcases bind_eq_error failed with missing | ⟨v, _, valued, wrong⟩
  · exact valueOf_error missing
  · obtain ⟨_, rfl⟩ := valueOf_ok valued
    split at wrong
    · split at wrong
      · cases wrong
      · cases wrong
        rfl
    · cases wrong
      rfl

theorem popFrame_error {action : Symbol} {e e' : Emitter} {error : EmitError}
    (failed : popFrame action e = .error error e') : e' = e := by
  obtain ⟨actions, symbols, program, frames⟩ := e
  cases frames with
  | nil =>
    cases failed
    rfl
  | cons top rest => cases failed

theorem entry_error {x : String} {kind : StorageKind} {size : Nat} {e e' : Emitter}
    {error : EmitError} (failed : entry x kind size e = .error error e') : e' = e := by
  have entered := entry_entered e x kind size
  rw [failed] at entered
  cases entered with
  | full => rfl

/-- All that a duty has done when it fails: it may have taken a frame, if it is one that takes frames. -/
inductive Abandoned (e : Emitter) (duty : Duty) : Emitter → Prop
  | unchanged : Abandoned e duty e
  | taken {top : Frame} {rest : Stack Frame} : duty = .declare ∨ duty = .endIf →
      e.frames = top :: rest → Abandoned e duty { e with frames := rest }

theorem Abandoned.eq_withFrames {e e' : Emitter} {duty : Duty} (abandoned : Abandoned e duty e') :
    ∃ frames, e' = { e with frames := frames } := by
  cases abandoned with
  | unchanged => exact ⟨e.frames, rfl⟩
  | taken => exact ⟨_, rfl⟩

theorem Packed.failed {e e' : Emitter} {action : Symbol} {last : Option Token} {duty : Duty}
    {error : EmitError} (packed : e.Packed)
    (failed : perform action last duty e = .error error e') : Abandoned e duty e' := by
  cases duty with
  | emit op => cases failed
  | lastValue | push =>
    rcases bind_eq_error failed with missing | ⟨_, _, _, ⟨⟩⟩
    cases valueOf_error missing
    exact .unchanged
  | address | goto =>
    rcases bind_eq_error failed with missing | ⟨x, _, named, entering⟩
    · cases nameOf_error missing
      exact .unchanged
    · obtain ⟨_, rfl⟩ := nameOf_ok named
      rcases bind_eq_error entering with full | ⟨_, _, _, ⟨⟩⟩
      cases entry_error full
      exact .unchanged
  | label =>
    rcases bind_eq_error failed with ⟨⟨⟩⟩ | ⟨_, _, ⟨⟩, naming⟩
    rcases bind_eq_error naming with missing | ⟨x, _, named, entering⟩
    · cases nameOf_error missing
      exact .unchanged
    · obtain ⟨_, rfl⟩ := nameOf_ok named
      rcases bind_eq_error entering with full | ⟨entry, e₁, entered, storing⟩
      · cases entry_error full
        exact .unchanged
      · -- The entry is there now, so its cell can be stored to.
        obtain ⟨packed, _, member⟩ := packed.entered Nat.one_pos (entered_of_ok entered)
        rw [onData_store, packed.accepted member] at storing
        cases storing
  | declare =>
    rcases bind_eq_error failed with missing | ⟨greatest, _, numbered, popping⟩
    · cases subscriptOf_error missing
      exact .unchanged
    · obtain ⟨_, _, _, rfl⟩ := subscriptOf_ok numbered
      rcases bind_eq_error popping with missing | ⟨frame, _, popped, entering⟩
      · cases popFrame_error missing
        exact .unchanged
      · obtain ⟨rest, frames, rfl⟩ := popFrame_ok popped
        split at entering
        · rcases bind_eq_error entering with full | ⟨_, _, _, ⟨⟩⟩
          cases entry_error full
          exact .taken (.inl rfl) frames
        · cases entering
          exact .taken (.inl rfl) frames
        · cases entering
          exact .taken (.inl rfl) frames
  | beginIf => cases failed
  | endIf =>
    rcases bind_eq_error failed with missing | ⟨frame, _, popped, patching⟩
    · cases popFrame_error missing
      exact .unchanged
    · obtain ⟨rest, frames, rfl⟩ := popFrame_ok popped
      split at patching
      · cases patching
      · cases patching
        exact .taken (.inr rfl) frames

/-- The routine of an action fails like its duty, or has none to perform. -/
theorem Packed.failed_routine {e e' : Emitter} {action : Symbol} {last : Option Token}
    {error : EmitError} (packed : e.Packed) (failed : routine action last e = .error error e') :
    e' = e ∨ ∃ duty, Duty.ofName? action = some duty ∧ Abandoned e duty e' := by
  rw [routine, bind_get] at failed
  split at failed
  · cases known : Duty.ofName? action with
    | none =>
      rw [known] at failed
      cases failed
      exact .inl rfl
    | some duty =>
      rw [known] at failed
      exact .inr ⟨duty, rfl, packed.failed failed⟩
  · cases failed
    exact .inl rfl

/-- A call keeps the memory filled and adds an entry at most. -/
theorem Packed.call {e : Emitter} (packed : e.Packed) (c : Call) :
    (e.call c).Packed ∧ e.symbols.Grows (e.call c).symbols := by
  unfold Emitter.call
  cases called : routine c.1 c.2 e with
  | ok _ e' =>
    obtain ⟨duty, _, performed⟩ := performed_of_routine called
    exact packed.performed performed
  | error error e' =>
    rcases packed.failed_routine called with rfl | ⟨_, _, abandoned⟩
    · exact ⟨packed, .inl rfl⟩
    · obtain ⟨frames, rfl⟩ := abandoned.eq_withFrames
      obtain ⟨labels, settled⟩ := packed.settled
      exact ⟨packed.of_extent ⟨labels, settled.of_code rfl rfl⟩ rfl rfl rfl, .inl rfl⟩

/-- The entry that a call created is found in the listing as the one that was not known. -/
theorem Packed.entries_call {e : Emitter} (packed : e.Packed) (c : Call) :
    (e.call c).symbols.entries = e.symbols.entries ++
      ((e.call c).symbols.listing.find? (e.symbols.find? ·.name = none)).toList := by
  obtain ⟨labels, settled⟩ := packed.settled
  have known : e.symbols.entries.find? (e.symbols.find? ·.name = none) = none := by
    refine List.find?_eq_none.mpr fun entry member => ?_
    rw [SymbolTable.find?_of_mem settled.distinct member]
    simp
  obtain ⟨after, grows⟩ := packed.call c
  rw [after.listing_eq]
  rcases grows with same | ⟨entry, fresh, appended⟩
  · rw [same, known]
    exact (List.append_nil _).symm
  · rw [appended, List.find?_append, known]
    simp [fresh]

/-- What calls create comes behind the entries that were there. -/
theorem Packed.calls {e : Emitter} (packed : e.Packed) (cs : List Call) :
    (e.calls cs).Packed ∧ (e.calls cs).symbols.entries = e.symbols.entries ++ e.created cs := by
  induction cs generalizing e with
  | nil => exact ⟨packed, (List.append_nil _).symm⟩
  | cons c cs ih =>
    obtain ⟨after, entries⟩ := ih (packed.call c).1
    refine ⟨after, ?_⟩
    rw [created, ← List.append_assoc, ← packed.entries_call c]
    exact entries

theorem packed_of_forScheme {g : Grammar} {e : Emitter} (started : forScheme g = .ok e) :
    e.Packed ∧ e.symbols.entries = [] := by
  unfold forScheme at started
  split at started
  · cases started
  · cases started
    exact ⟨.initial g.actions, rfl⟩

end Emitter

open Emitter Grammar

/-- Whatever actions are called, and whether they succeed or fail, the table lists the entries in the order
of their creation, and so it would if it held them in any other order. Each has the cells behind those of
the entries before it; together they are the memory, which never exceeds its capacity. An entry that was
created is found unchanged ever after. -/
theorem entries_follow_creation {g : Grammar} {e : Emitter} (started : forScheme g = .ok e)
    (calls : List Call) :
    (e.calls calls).symbols.listing = e.created calls ∧
    (∀ t : SymbolTable, t.entries.Perm (e.calls calls).symbols.entries → t.listing = e.created calls) ∧
    (∀ i entry, (e.created calls)[i]? = some entry → 1 ≤ entry.size ∧
      entry.address = 1 + (((e.created calls).take i).map Entry.size).sum) ∧
    (e.calls calls).program.data.cells.size = ((e.created calls).map Entry.size).sum ∧
    (e.calls calls).program.data.cells.size ≤ (e.calls calls).program.data.capacity ∧
    (e.calls calls).program.data.capacity = 65536 ∧
    ∀ first later, calls = first ++ later → ∀ entry ∈ e.created first,
      (e.calls calls).symbols.find? entry.name = some entry := by
  obtain ⟨packed, empty⟩ := packed_of_forScheme started
  obtain ⟨after, entries⟩ := packed.calls calls
  obtain ⟨labels, settled⟩ := after.settled
  rw [empty, List.nil_append] at entries
  refine ⟨after.listing_eq.trans entries, fun t same => (after.listing_of_perm same).trans entries, ?_, ?_,
    settled.fits, after.capacity, ?_⟩
  · rw [← entries]
    intro i entry found
    exact ⟨after.size_pos entry (List.mem_of_getElem? found), after.address_eq i entry found⟩
  · rw [← entries]
    exact after.filled
  · rintro first later rfl entry member
    refine SymbolTable.find?_of_mem settled.distinct ?_
    -- What the later calls do begins where the first ones ended.
    obtain ⟨middle, entriesFirst⟩ := packed.calls first
    have onward := (middle.calls later).2
    rw [← Emitter.calls_append, entriesFirst] at onward
    rw [onward]
    exact List.mem_append_left _ (List.mem_append_right _ member)

/-- Calls that begin with a label, and of which two fail: one finds no name to declare, and one would need
more memory than there is. -/
def mixedCalls : List Call :=
  [("@label", some (Token.identifier "start")), ("@declare", some (Token.integer 5)),
   ("@push", some (Token.identifier "list")), ("@declare", some (Token.integer 5)),
   ("@push", some (Token.identifier "table")), ("@declare", some (Token.integer 65530)),
   ("@goto", some (Token.identifier "start")),
   ("@address_last_token_val", some (Token.identifier "sum"))]

theorem entries_follow_creation_mixedCalls :
    ∃ e, forScheme programScheme = .ok e ∧
      e.created mixedCalls = [⟨"start", .label, 1, 1⟩, ⟨"list", .array, 2, 6⟩, ⟨"sum", .scalar, 8, 1⟩] ∧
      (e.calls mixedCalls).symbols.listing = e.created mixedCalls ∧
      (∀ t : SymbolTable, t.entries.Perm (e.calls mixedCalls).symbols.entries →
        t.listing = e.created mixedCalls) ∧
      (∀ i entry, (e.created mixedCalls)[i]? = some entry → 1 ≤ entry.size ∧
        entry.address = 1 + (((e.created mixedCalls).take i).map Entry.size).sum) ∧
      (e.calls mixedCalls).program.data.cells.size =
        ((e.created mixedCalls).map Entry.size).sum ∧
      (e.calls mixedCalls).program.data.cells.size ≤ (e.calls mixedCalls).program.data.capacity ∧
      (e.calls mixedCalls).program.data.capacity = 65536 ∧
      ∀ first later, mixedCalls = first ++ later → ∀ entry ∈ e.created first,
        (e.calls mixedCalls).symbols.find? entry.name = some entry := by
  have entries : (calls { actions := programScheme.actions } mixedCalls).symbols.entries =
      [⟨"start", .label, 1, 1⟩, ⟨"list", .array, 2, 6⟩, ⟨"sum", .scalar, 8, 1⟩] := by
    decide +kernel
  have created := ((Packed.initial programScheme.actions).calls mixedCalls).2
  have started := forScheme_programScheme
  exact ⟨_, started, created.symm.trans entries, entries_follow_creation started mixedCalls⟩

theorem Duty.name_of_taking {action : Symbol} {duty : Duty} (known : Duty.ofName? action = some duty)
    (takes : duty = .declare ∨ duty = .endIf) : action = "@declare" ∨ action = "@end_if" := by
  unfold Duty.ofName? at known
  split at known <;> cases known <;> simp at takes ⊢

/-- Whatever actions were called before, one that fails emits nothing: the code, the memory and the table are
as before the call. The stack of frames is so too, or it has lost its uppermost frame to a declaration or
to the end of a branch. -/
theorem failed_action_emits_nothing {g : Grammar} {e e' : Emitter} (started : forScheme g = .ok e)
    (calls : List Call) {action : Symbol} {last : Option Token} {error : EmitError}
    (failed : routine action last (e.calls calls) = .error error e') :
    e'.program.code = (e.calls calls).program.code ∧
    e'.program.data = (e.calls calls).program.data ∧
    e'.symbols = (e.calls calls).symbols ∧
    (e'.frames = (e.calls calls).frames ∨
      (action = "@declare" ∨ action = "@end_if") ∧
        ∃ top, (e.calls calls).frames = top :: e'.frames) := by
  obtain ⟨packed, _⟩ := packed_of_forScheme started
  rcases (packed.calls calls).1.failed_routine failed with rfl | ⟨duty, known, abandoned⟩
  · exact ⟨rfl, rfl, rfl, .inl rfl⟩
  · cases abandoned with
    | unchanged => exact ⟨rfl, rfl, rfl, .inl rfl⟩
    | taken takes frames =>
      exact ⟨rfl, rfl, rfl, .inr ⟨Duty.name_of_taking known takes, _, frames⟩⟩

/-- A branch is begun behind a label, so that the next declaration finds no name but the place of the branch. -/
def openBranch : List Call :=
  [("@label", some (Token.identifier "start")), ("@begin_if", none)]

theorem failed_action_emits_nothing_openBranch :
    ∃ e e', forScheme programScheme = .ok e ∧
      routine "@declare" (some (Token.integer 5)) (e.calls openBranch) =
        .error (.unexpectedFrame "@declare" (.branch 2)) e' ∧
      e'.program.code = (e.calls openBranch).program.code ∧
      e'.program.data = (e.calls openBranch).program.data ∧
      e'.symbols = (e.calls openBranch).symbols ∧
      ∃ top, (e.calls openBranch).frames = top :: e'.frames := by
  have before : (calls { actions := programScheme.actions } openBranch).frames = [.branch 2] := by cbv
  have failed : routine "@declare" (some (Token.integer 5))
      (calls { actions := programScheme.actions } openBranch) =
        .error (.unexpectedFrame "@declare" (.branch 2))
          { calls { actions := programScheme.actions } openBranch with frames := [] } := by cbv
  have started := forScheme_programScheme
  obtain ⟨code, data, symbols, frames⟩ := failed_action_emits_nothing started openBranch failed
  refine ⟨_, _, started, failed, code, data, symbols, ?_⟩
  rcases frames with same | ⟨_, taken⟩
  · rw [before] at same
    cases same
  · exact taken

end Pushdown
