import Mathlib
import Pushdown.Proofs.SavedCells
import Pushdown.Proofs.Streams

/-! Saved memory. The cells of a memory are written one to a line, and lines that are blank are passed
over when they are read. So addresses are kept exactly as long as no text in memory is blank. A run
makes no blank text by itself: it joins texts that it was given, and such are blank only if all their
parts are. It is given one by an empty line of input. -/
namespace Pushdown

open Text (IsBlank)

/-- The memory that is read from the file a memory is saved to. -/
def Memory.reread (m : Memory) : Memory := (Program.read "" (some (Program.cellText m.cells))).data

/-- There are as many cells, and every integer and every unset cell stands at its address. -/
structure Memory.Kept (m saved : Memory) : Prop where
  size : saved.cells.size = m.cells.size
  ints : ∀ a n, m.load a = .ok (.int n) → saved.load a = .ok (.int n)
  unset : ∀ a, m.load a = .ok .unset → saved.load a = .ok .unset

/-- The texts that a run is given: those of code and data, and the lines of its input. -/
inductive Program.Supplies (p : Program) (input : Input) : String → Prop
  | code {s : String} (member : .text s ∈ p.code) : Supplies p input s
  | data {s : String} (member : .text s ∈ p.data.cells) : Supplies p input s
  | line {line : String} (member : .ok line ∈ input.pending) : Supplies p input (Text.strip line)

section Texts

variable {P : String → Prop}

/-- The same cell, which has the property if it is a text. -/
def Cell.SameText (P : String → Prop) (c d : Cell) : Prop := c = d ∧ ∀ s, c = .text s → P s

theorem Cell.SameText.congruence (append : ∀ l r, P l → P r → P (l ++ r)) :
    Cell.Congruence (Cell.SameText P) where
  kin related := related.1 ▸ .refl _
  plain noText := ⟨rfl, fun s isText => absurd isText (noText s)⟩
  join left right := by
    refine ⟨rfl, ?_⟩
    rintro _ ⟨⟩
    exact append _ _ (left.2 _ rfl) (right.2 _ rfl)

theorem Cell.text_of_ofDataWord {word s : String} (isText : ofDataWord word = .text s) : word = s := by
  unfold ofDataWord at isText
  split at isText
  · cases isText
  · unfold Value.ofWord at isText
    split at isText
    · cases isText
    · split at isText <;> cases isText
      rfl

theorem Cell.text_of_ofCodeWord {word s : String} (isText : ofCodeWord word = .text s) : word = s := by
  unfold ofCodeWord at isText
  split at isText
  · cases isText
  · exact text_of_ofDataWord isText

namespace Program

theorem isWord_of_mem_firstWords {text word : String} (member : word ∈ firstWords text) :
    Text.IsWord word.toList := by
  obtain ⟨line, _, found⟩ := List.mem_filterMap.mp member
  obtain ⟨first, atHead, rfl⟩ := Option.map_eq_some_iff.mp found
  rw [String.toList_ofList]
  exact Text.isWord_of_mem_words (List.mem_of_head? atHead)

/-- Neither programs from files nor input from a stream give a text with a line feed. -/
theorem Supplies.flat {code : String} {data : Option String} {bytes : List UInt8} {s : String}
    (supplied : (read code data).Supplies (.ofBytes bytes) s) : '\n' ∉ s.toList := by
  cases supplied with
  | code member =>
    obtain ⟨word, found, isText⟩ := List.mem_map.mp (Array.mem_def.mp member)
    rw [← Cell.text_of_ofCodeWord isText]
    exact (isWord_of_mem_firstWords found).lineFeed_not_mem
  | data member =>
    cases data with
    | none => cases Array.mem_def.mp member
    | some text =>
      obtain ⟨word, found, isText⟩ := List.mem_map.mp (Array.mem_def.mp member)
      rw [← Cell.text_of_ofDataWord isText]
      exact (isWord_of_mem_firstWords found).lineFeed_not_mem
  | line member =>
    exact fun inside => Text.lineFeed_not_mem_streamLines member (Text.mem_of_mem_strip inside)

end Program

namespace Machine

variable {p : Program} {input : Input} {output : Output} {capacity steps : Nat} {m : Machine}

theorem boot_sameText (supplied : ∀ s, p.Supplies input s → P s) :
    Like (Cell.SameText P) (boot p capacity input output) (boot p capacity input output) where
  code := .self fun c member => ⟨rfl, fun s isText => supplied s (.code (isText ▸ member))⟩
  memory := ⟨.self fun c member => ⟨rfl, fun s isText => supplied s (.data (isText ▸ member))⟩, rfl⟩
  stack := .nil
  counter := rfl
  running := rfl
  input := rfl
  output := rfl
  lines line member := by
    refine ⟨rfl, fun s isText => ?_⟩
    rw [← Cell.text_of_ofDataWord isText]
    exact supplied _ (.line member)

/-- What holds of the given texts, and of two texts joined if it holds of both, holds of all texts in
memory. -/
theorem run_texts (append : ∀ l r, P l → P r → P (l ++ r)) (supplied : ∀ s, p.Supplies input s → P s)
    (ran : run steps (boot p capacity input output) = .ok () m) :
    ∀ s, .text s ∈ m.memory.cells → P s := by
  intro s member
  have outcome := (boot_sameText supplied).run (Cell.SameText.congruence append) steps
    (m := boot p capacity input output)
  rw [ran] at outcome
  cases outcome with
  | ok _ like =>
    obtain ⟨i, found⟩ := Array.getElem?_of_mem member
    have related := like.memory.cells i
    rw [found] at related
    cases related with
    | some same => exact same.2 s rfl

end Machine

end Texts

/-- As many words are read as there are cells that are not written blank. -/
theorem Program.length_flatMap_firstWords {cells : List Cell}
    (flat : ∀ c ∈ cells, '\n' ∉ c.render.toList) :
    (cells.flatMap fun c => firstWords (c.render ++ "\n")).length =
      cells.countP fun c => ¬ IsBlank c.render.toList := by
  induction cells with
  | nil => rfl
  | cons c cells ih =>
    obtain ⟨first, later⟩ := List.forall_mem_cons.mp flat
    rw [List.flatMap_cons, List.length_append, List.countP_cons, length_firstWords_line first, ih later]
    by_cases blank : IsBlank c.render.toList
    · simp [blank]
    · simp [blank, Nat.add_comm]

/-- The first word of the line that a cell is written to. -/
def Cell.leadingWord (c : Cell) : String := (Program.firstWords (c.render ++ "\n")).headD ""

theorem Cell.leadingWord_eq {c : Cell} (plain : ∀ s, c ≠ .text s) : c.leadingWord = c.render := by
  rw [leadingWord, Program.firstWords_word (isWord_render plain)]
  rfl

namespace Memory

variable {m : Memory}

theorem flat_render (flat : ∀ s, .text s ∈ m.cells → '\n' ∉ s.toList) :
    ∀ c ∈ m.cells, '\n' ∉ c.render.toList := by
  intro c member
  exact Cell.render_text_or_word (Q := fun cs => '\n' ∉ cs)
    (fun s isText => flat s (isText ▸ member)) fun _ word => word.lineFeed_not_mem

theorem size_reread (flat : ∀ s, .text s ∈ m.cells → '\n' ∉ s.toList) :
    m.reread.cells.size = m.cells.toList.countP fun c => ¬ IsBlank c.render.toList := by
  rw [← Program.length_flatMap_firstWords fun c member => flat_render flat c (Array.mem_def.mpr member),
    ← Program.firstWords_cellText]
  simp [reread, Program.read, Program.readData, ofCells]

theorem reread_eq_map (lines : ∀ c ∈ m.cells, (Program.firstWords (c.render ++ "\n")).length = 1) :
    m.reread.cells = m.cells.map fun c => .ofDataWord c.leadingWord := by
  refine Program.readData_eq_map fun c member => ?_
  obtain ⟨word, single⟩ := List.length_eq_one_iff.mp (lines c member)
  rw [Cell.leadingWord, single]
  rfl

theorem load_reread (lines : ∀ c ∈ m.cells, (Program.firstWords (c.render ++ "\n")).length = 1)
    {a : Nat} {c : Cell} (loaded : m.load a = .ok c) :
    m.reread.load a = .ok (.ofDataWord c.leadingWord) := by
  obtain ⟨positive, found⟩ := load_eq_ok_iff.mp loaded
  refine load_eq_ok_iff.mpr ⟨positive, ?_⟩
  rw [reread_eq_map lines, Array.getElem?_map, found]
  rfl

theorem kept_reread (lines : ∀ c ∈ m.cells, (Program.firstWords (c.render ++ "\n")).length = 1) :
    m.Kept m.reread := by
  refine ⟨?_, ?_, ?_⟩
  · rw [reread_eq_map lines, Array.size_map]
  · intro a n loaded
    rw [load_reread lines loaded, Cell.leadingWord_eq fun _ => Cell.noConfusion,
      Cell.ofDataWord_of_readInt64 (Cell.readInt64_render_int n)]
  · intro a loaded
    rw [load_reread lines loaded, Cell.leadingWord_eq fun _ => Cell.noConfusion]
    rfl

/-- Memories whose texts are lines are kept exactly if no text is blank. -/
theorem kept_reread_iff (flat : ∀ s, .text s ∈ m.cells → '\n' ∉ s.toList) :
    m.Kept m.reread ↔ ∀ s, .text s ∈ m.cells → ¬ IsBlank s.toList := by
  constructor
  -- The number of cells alone shows that no line was passed over.
  · intro kept s member
    have all := size_reread flat ▸ kept.size
    rw [← Array.length_toList, List.countP_eq_length] at all
    exact of_decide_eq_true (all (.text s) (Array.mem_def.mp member))
  · intro solid
    refine kept_reread fun c member => ?_
    rw [Program.length_firstWords_line (flat_render flat c member), if_neg]
    exact Cell.render_text_or_word (Q := fun cs => ¬ IsBlank cs)
      (fun s isText => solid s (isText ▸ member)) fun _ word => word.not_isBlank

end Memory

/-- A memory that a run leaves is kept exactly if no text in it is blank, provided that the texts which
the run is given have no line feeds. It is kept, then, if none of the given texts is blank. -/
theorem saved_memory_kept_iff {p : Program} {capacity steps : Nat} {input : Input} {output : Output}
    {m : Machine} (ran : Machine.run steps (Machine.boot p capacity input output) = .ok () m)
    (flat : ∀ s, p.Supplies input s → '\n' ∉ s.toList) :
    (m.memory.Kept m.memory.reread ↔ ∀ s, .text s ∈ m.memory.cells → ¬ IsBlank s.toList) ∧
      ((∀ s, p.Supplies input s → ¬ IsBlank s.toList) → m.memory.Kept m.memory.reread) := by
  have textsFlat : ∀ s, .text s ∈ m.memory.cells → '\n' ∉ s.toList :=
    Machine.run_texts (fun l r left right => by simp [left, right]) flat ran
  have exactly := Memory.kept_reread_iff textsFlat
  refine ⟨exactly, fun solid => exactly.mpr (Machine.run_texts ?_ solid ran)⟩
  intro l r left _ blank
  exact left fun c member => blank c (by simp [member])

/-- Stores a line of input at the first address and an integer at the second. -/
def inquiry : Program := .read "in\nstore\n1\nlit\n5\nstore\n2\nquit\n" none

/-- What the inquiry leaves behind after a line of input. -/
def inquired (cell : Cell) : Machine :=
  { Machine.boot inquiry 8 .none .ignored with
    memory := ⟨#[cell, .int 5], 8⟩, counter := 9, running := false }

theorem saved_memory_kept_iff_inquiry :
    Machine.run 9 (Machine.boot inquiry 8 (.ofText "yes\n") .ignored) = .ok () (inquired (.text "yes")) ∧
      (inquired (.text "yes")).memory.Kept (inquired (.text "yes")).memory.reread := by
  have ran : Machine.run 9 (Machine.boot inquiry 8 (.ofText "yes\n") .ignored) =
      .ok () (inquired (.text "yes")) := by cbv
  refine ⟨ran, (saved_memory_kept_iff ran fun _ => Program.Supplies.flat).1.mpr ?_⟩
  intro s member
  simp [inquired] at member
  rw [member]
  decide

/-- After an empty line, the integer is not found again. -/
theorem inquiry_not_kept :
    Machine.run 9 (Machine.boot inquiry 8 (.ofText "\n") .ignored) = .ok () (inquired (.text "")) ∧
      (inquired (.text "")).memory.load 2 = .ok (.int 5) ∧
      (inquired (.text "")).memory.reread.load 2 = .error (.outOfRange 2) :=
  ⟨by cbv, rfl, by cbv⟩

end Pushdown
