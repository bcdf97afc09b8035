import Pushdown.Proofs.Likeness

/-! Cells in files. Every cell but a text is written as one word. Opcodes, integers and unset cells are
read back as they were, and an address as the integer of the same number. -/
namespace Pushdown

open Text (IsWord)

namespace Opcode

theorem isWord_mnemonic (op : Opcode) : IsWord op.mnemonic.toList := by
  cases op <;> decide

theorem ofMnemonic?_mnemonic (op : Opcode) : ofMnemonic? op.mnemonic = some op := by
  cases op <;> decide

theorem readInt64_mnemonic (op : Opcode) : Numeral.readInt64 op.mnemonic.toList = none := by
  cases op <;> decide

end Opcode

namespace Cell

theorem isWord_render {c : Cell} (plain : ∀ s, c ≠ .text s) : IsWord c.render.toList := by
  cases c with
  | opcode op => exact op.isWord_mnemonic
  | int n =>
    rw [render, String.toList_ofList]
    exact Numeral.isWord_writeInt _
  | real x =>
    rw [render, String.toList_ofList]
    exact Numeral.isWord_writeReal x
  | text s => exact absurd rfl (plain s)
  | address a =>
    rw [render, String.toList_ofList]
    exact Numeral.isWord_writeNat a
  | unset => decide

/-- What holds of a text, and of words, holds of how any cell is written. -/
theorem render_text_or_word {Q : List Char → Prop} {c : Cell} (text : ∀ s, c = .text s → Q s.toList)
    (word : ∀ cs, IsWord cs → Q cs) : Q c.render.toList := by
  by_cases isText : ∃ s, c = .text s
  · obtain ⟨s, rfl⟩ := isText
    exact text s rfl
  · exact word _ (isWord_render fun s same => isText ⟨s, same⟩)

variable {word : String} {n : Int64}

theorem ofDataWord_of_readInt64 (read : Numeral.readInt64 word.toList = some n) :
    ofDataWord word = .int n := by
  have other : word ≠ unsetWord := by
    rintro rfl
    have unread : Numeral.readInt64 unsetWord.toList = none := by decide
    rw [unread] at read
    cases read
  simp only [ofDataWord, other, if_false, Value.ofWord, read, ofValue]

theorem ofMnemonic?_of_readInt64 (read : Numeral.readInt64 word.toList = some n) :
    Opcode.ofMnemonic? word = none := by
  refine List.find?_eq_none.mpr fun op _ same => ?_
  rw [← of_decide_eq_true same, op.readInt64_mnemonic] at read
  cases read

theorem ofCodeWord_of_readInt64 (read : Numeral.readInt64 word.toList = some n) :
    ofCodeWord word = .int n := by
  rw [ofCodeWord, ofMnemonic?_of_readInt64 read]
  exact ofDataWord_of_readInt64 read

theorem readInt64_render_int (n : Int64) :
    Numeral.readInt64 (render (.int n)).toList = some n := by
  rw [render, String.toList_ofList]
  exact Numeral.readInt64_writeInt64 n

theorem Kin.readInt64_render {a : Nat} (fits : a < 2 ^ 63) :
    Numeral.readInt64 (render (.address a)).toList = some (Int64.ofNat a) := by
  rw [render, ← Numeral.writeInt64_ofNat fits]
  exact readInt64_render_int _

end Cell

namespace Program

/-- Cells of which each is written with one word in front are found again word by word. -/
theorem firstWords_cellText_eq_map {cells : Array Cell} {word : Cell → String}
    (lines : ∀ c ∈ cells, firstWords (c.render ++ "\n") = [word c]) :
    firstWords (cellText cells) = cells.toList.map word := by
  rw [firstWords_cellText, ← List.flatMap_singleton' (cells.toList.map word), List.flatMap_map]
  exact List.flatMap_congr fun c member => lines c (Array.mem_def.mpr member)

theorem readData_eq_map {cells : Array Cell} {word : Cell → String}
    (lines : ∀ c ∈ cells, firstWords (c.render ++ "\n") = [word c]) :
    readData (cellText cells) = cells.map fun c => .ofDataWord (word c) := by
  rw [readData, firstWords_cellText_eq_map lines, List.map_map, ← Array.toList_map]
  rfl

theorem readCode_cellText {cells : Array Cell} (words : ∀ c ∈ cells, IsWord c.render.toList) :
    readCode (cellText cells) = cells.map fun c => .ofCodeWord c.render := by
  have lines := fun c member => firstWords_word (words c member)
  rw [readCode, firstWords_cellText_eq_map lines, List.map_map, ← Array.toList_map]
  rfl

theorem readData_cellText {cells : Array Cell} (words : ∀ c ∈ cells, IsWord c.render.toList) :
    readData (cellText cells) = cells.map fun c => .ofDataWord c.render :=
  readData_eq_map fun c member => firstWords_word (words c member)

end Program

end Pushdown
