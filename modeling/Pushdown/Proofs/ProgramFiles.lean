import Pushdown.Proofs.SavedMemory
import Pushdown.Proofs.SavedPrograms

/-! Programs from files. The word that a cell is written as is read in the same way as the word that the cell
was read from: a number is no mnemonic and no word for an unset cell, and a real number is never written like
an integer. So a program that was read from files is found again unchanged in the files it is saved to. -/
namespace Pushdown

open Text (IsWord)

namespace Numeral

theorem isDigit_of_readNat {cs : List Char} {n : Nat} (read : readNat cs = some n) :
    ∀ c ∈ cs, c.isDigit = true := by
  unfold readNat at read
  split at read
  · cases read
  · rename_i digits
    intro c member
    simp only [Bool.or_eq_true, List.any_eq_true, not_or, not_exists] at digits
    simpa [member] using digits.2 c

theorem isDigit_or_sign_of_readInt {cs : List Char} {n : Int} (read : readInt cs = some n) :
    ∀ c ∈ cs, c.isDigit = true ∨ c = '-' ∨ c = '+' := by
  intro c member
  unfold readInt at read
  split at read
  · obtain ⟨_, lifted, _⟩ := Option.map_eq_some_iff.mp read
    obtain ⟨m, digits, _⟩ := Option.bind_eq_some_iff.mp lifted
    rcases List.mem_cons.mp member with rfl | inside
    · exact .inr (.inl rfl)
    · exact .inl (isDigit_of_readNat digits c inside)
  · obtain ⟨_, lifted, _⟩ := Option.map_eq_some_iff.mp read
    obtain ⟨m, unsigned, _⟩ := Option.bind_eq_some_iff.mp lifted
    unfold readUnsigned at unsigned
    split at unsigned
    · rcases List.mem_cons.mp member with rfl | inside
      · exact .inr (.inr rfl)
      · exact .inl (isDigit_of_readNat unsigned c inside)
    · exact .inl (isDigit_of_readNat unsigned c member)

theorem point_mem_positional (ds : List Char) (point : Int) : '.' ∈ positional ds point := by
  unfold positional
  split <;> simp

theorem mark_mem_scientific (ds : List Char) (point : Int) : 'e' ∈ scientific ds point := by
  simp [scientific]

/-- A real number is written with a point, an exponent or letters. -/
theorem exists_mark_writeReal (x : Float) : ∃ c ∈ writeReal x, c ∈ ['.', 'e', 'i', 'N'] := by
  have finite (sign : List Char) (d : Decimal) :
      ∃ c ∈ sign ++ d.write RealStyle.standard, c ∈ ['.', 'e', 'i', 'N'] := by
    unfold Decimal.write
    dsimp only
    split
    · exact ⟨'.', List.mem_append_right _ (point_mem_positional _ _), by decide⟩
    · exact ⟨'e', List.mem_append_right _ (mark_mem_scientific _ _), by decide⟩
  unfold writeReal RealStyle.write
  dsimp only
  split
  · exact ⟨'.', List.mem_append_right _ (by decide), by decide⟩
  · split
    · exact finite _ _
    · split
      · exact ⟨'i', List.mem_append_right _ (by decide), by decide⟩
      · exact ⟨'N', by decide, by decide⟩

theorem readInt64_writeReal (x : Float) : readInt64 (writeReal x) = none := by
  obtain ⟨c, member, mark⟩ := exists_mark_writeReal x
  cases read : readInt (writeReal x) with
  | none => rw [readInt64, read, Option.bind_none]
  | some n =>
    have apart : ∀ c ∈ ['.', 'e', 'i', 'N'], ¬ (c.isDigit = true ∨ c = '-' ∨ c = '+') := by
      simp
    exact absurd (isDigit_or_sign_of_readInt read c member) (apart c mark)

end Numeral

theorem Opcode.readReal_mnemonic (op : Opcode) : Numeral.readReal op.mnemonic.toList = none := by
  cases op <;> decide

namespace Cell

/-- If the cell is a real number, it is read back from how it is written. -/
def Faithful : Cell → Prop
  | .real x => Numeral.readReal (Numeral.writeReal x) = some x
  | _ => True

instance : DecidablePred Faithful
  | .real x => inferInstanceAs (Decidable (Numeral.readReal (Numeral.writeReal x) = some x))
  | .opcode _ | .int _ | .text _ | .address _ | .unset => inferInstanceAs (Decidable True)

theorem ofMnemonic?_render_real {x : Float} (faithful : Faithful (.real x)) :
    Opcode.ofMnemonic? (render (.real x)) = none := by
  refine List.find?_eq_none.mpr fun op _ same => ?_
  have unread := op.readReal_mnemonic
  rw [of_decide_eq_true same, render, String.toList_ofList, faithful] at unread
  cases unread

theorem ofDataWord_render_real {x : Float} (faithful : Faithful (.real x)) :
    ofDataWord (render (.real x)) = .real x := by
  have other : render (.real x) ≠ unsetWord := by
    intro same
    have unread : Numeral.readReal unsetWord.toList = none := by decide
    rw [← same, render, String.toList_ofList, faithful] at unread
    cases unread
  rw [ofDataWord, if_neg other, Value.ofWord, render, String.toList_ofList, Numeral.readInt64_writeReal,
    faithful]
  rfl

/-- The kinds of cells that a word of data can be. -/
theorem ofDataWord_kinds (word : String) :
    ofDataWord word = .unset ∨ (∃ n, ofDataWord word = .int n) ∨ (∃ x, ofDataWord word = .real x) ∨
      ofDataWord word = .text word := by
  unfold ofDataWord Value.ofWord
  split
  · exact .inl rfl
  · split
    · exact .inr (.inl ⟨_, rfl⟩)
    · split
      · exact .inr (.inr (.inl ⟨_, rfl⟩))
      · exact .inr (.inr (.inr rfl))

theorem ofDataWord_render {word : String} (faithful : (ofDataWord word).Faithful) :
    ofDataWord (ofDataWord word).render = ofDataWord word := by
  rcases ofDataWord_kinds word with unset | ⟨n, int⟩ | ⟨x, real⟩ | text
  · rw [unset]
    rfl
  · rw [int, ofDataWord_of_readInt64 (readInt64_render_int n)]
  · rw [real] at faithful ⊢
    exact ofDataWord_render_real faithful
  · rw [text]
    exact text

theorem ofCodeWord_render {word : String} (faithful : (ofCodeWord word).Faithful) :
    ofCodeWord (ofCodeWord word).render = ofCodeWord word := by
  cases known : Opcode.ofMnemonic? word with
  | some op =>
    have code : ofCodeWord word = .opcode op := by rw [ofCodeWord, known]
    rw [code, render, ofCodeWord, op.ofMnemonic?_mnemonic]
  | none =>
    -- The word is read like one of data, and no mnemonic is written for what is read.
    have data : ofCodeWord word = ofDataWord word := by rw [ofCodeWord, known]
    rw [data] at faithful ⊢
    have unknown : Opcode.ofMnemonic? (ofDataWord word).render = none := by
      rcases ofDataWord_kinds word with unset | ⟨n, int⟩ | ⟨x, real⟩ | text
      · rw [unset]
        decide
      · rw [int]
        exact ofMnemonic?_of_readInt64 (readInt64_render_int n)
      · rw [real] at faithful ⊢
        exact ofMnemonic?_render_real faithful
      · rw [text]
        exact known
    rw [ofCodeWord, unknown]
    exact ofDataWord_render faithful

end Cell

namespace Program

/-- Words that are read to cells, and read to the same cells again from how these are written. -/
theorem reread_words {parse : String → Cell} {text : String}
    (texts : ∀ {word s}, parse word = .text s → word = s)
    (stable : ∀ word ∈ firstWords text, parse (parse word).render = parse word) :
    (firstWords (cellText ((firstWords text).map parse).toArray)).map parse =
      (firstWords text).map parse := by
  have lines : ∀ c ∈ ((firstWords text).map parse).toArray,
      firstWords (c.render ++ "\n") = [c.render] := by
    intro c member
    obtain ⟨word, found, rfl⟩ := List.mem_map.mp (Array.mem_def.mp member)
    apply firstWords_word
    apply Cell.render_text_or_word (Q := IsWord)
    · intro s isText
      rw [← texts isText]
      exact isWord_of_mem_firstWords found
    · exact fun _ isWord => isWord
  rw [firstWords_cellText_eq_map lines, List.map_map, List.map_map]
  exact List.map_congr_left stable

theorem readCode_reread {text : String} (faithful : ∀ c ∈ readCode text, c.Faithful) :
    readCode (cellText (readCode text)) = readCode text := by
  refine congrArg List.toArray (reread_words Cell.text_of_ofCodeWord fun word found => ?_)
  apply Cell.ofCodeWord_render
  exact faithful _ (Array.mem_def.mpr (List.mem_map_of_mem found))

theorem readData_reread {text : String} (faithful : ∀ c ∈ readData text, c.Faithful) :
    readData (cellText (readData text)) = readData text := by
  refine congrArg List.toArray (reread_words Cell.text_of_ofDataWord fun word found => ?_)
  apply Cell.ofDataWord_render
  exact faithful _ (Array.mem_def.mpr (List.mem_map_of_mem found))

end Program

/-- A program that was read from files, whatever these contained, is the one that is read from the files it is
saved to, provided that its real numbers are read back from how they are written. -/
theorem read_program_is_reread (code : String) (data : Option String)
    (faithfulCode : ∀ c ∈ (Program.read code data).code, c.Faithful)
    (faithfulData : ∀ c ∈ (Program.read code data).data.cells, c.Faithful) :
    (Program.read code data).reread = Program.read code data := by
  have same : Program.readData (Program.cellText ((data.map Program.readData).getD #[])) =
      (data.map Program.readData).getD #[] := by
    cases data with
    | none => simp [Program.readData, Program.cellText, Program.firstWords]
    | some text => exact Program.readData_reread faithfulData
  simp only [Program.reread, Program.read, Memory.ofCells, Option.map_some, Option.getD_some, same,
    Program.readCode_reread faithfulCode]

/-- Code with a remark, a blank line, numbers that are not written in the usual way, and texts that look like
numbers or mnemonics. -/
def motleyCode : String :=
  "lit +007 seven\n \nstore\r\n-0\nNone\n99999999999999999999\nQUIT\n--5\n1_000\ninf\nquit"

def motleyData : String := "2.50\nnone\n quit\nNone\n-nan\n1e-400"

theorem read_program_is_reread_motley :
    (∀ c ∈ (Program.read motleyCode (some motleyData)).code, c.Faithful) ∧
      (∀ c ∈ (Program.read motleyCode (some motleyData)).data.cells, c.Faithful) ∧
      (Program.read motleyCode (some motleyData)).reread = Program.read motleyCode (some motleyData) := by
  have code : ∀ c ∈ (Program.read motleyCode (some motleyData)).code, c.Faithful := by decide +kernel
  have data : ∀ c ∈ (Program.read motleyCode (some motleyData)).data.cells, c.Faithful := by decide +kernel
  exact ⟨code, data, read_program_is_reread motleyCode (some motleyData) code data⟩

end Pushdown
