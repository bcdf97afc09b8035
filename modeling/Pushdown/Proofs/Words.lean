import Mathlib.Data.List.TakeWhile
import Pushdown.Machine.Program

/-! Words and lines of a text. Blanks at the two ends of a text are trimmed, and those between words divide
them. A line feed cuts a text in two whose lines are found apart; a line is passed over exactly if it is
blank. So a text that is written line by line is read line by line. -/
namespace Pushdown

namespace Text

/-- Nothing but characters that are not blank. -/
def Solid (cs : List Char) : Prop := ∀ c ∈ cs, isBlank c = false

instance (cs : List Char) : Decidable (Solid cs) := List.decidableBAll _ cs

/-- A text that is a single word. -/
structure IsWord (cs : List Char) : Prop where
  nonempty : cs ≠ []
  solid : Solid cs

instance (cs : List Char) : Decidable (IsWord cs) :=
  decidable_of_iff (cs ≠ [] ∧ Solid cs) ⟨fun word => ⟨word.1, word.2⟩, fun word => ⟨word.1, word.2⟩⟩

/-- A text whose last character is not blank. -/
def Firm (cs : List Char) : Prop := ∃ c, cs.getLast? = some c ∧ isBlank c = false

/-- Nothing but blanks. -/
def IsBlank (cs : List Char) : Prop := ∀ c ∈ cs, isBlank c = true

instance (cs : List Char) : Decidable (IsBlank cs) := List.decidableBAll _ cs

theorem isBlank_nil : IsBlank [] := fun _ member => absurd member List.not_mem_nil

theorem solid_nil : Solid [] := fun _ member => absurd member List.not_mem_nil

@[simp] theorem solid_cons_iff {c : Char} {cs : List Char} :
    Solid (c :: cs) ↔ isBlank c = false ∧ Solid cs :=
  List.forall_mem_cons

@[simp] theorem solid_append_iff {front back : List Char} :
    Solid (front ++ back) ↔ Solid front ∧ Solid back :=
  List.forall_mem_append

theorem isBlank_lineFeed : isBlank '\n' = true := by decide

theorem IsWord.lineFeed_not_mem {cs : List Char} (word : IsWord cs) : '\n' ∉ cs := by
  intro member
  have solid := word.solid '\n' member
  rw [isBlank_lineFeed] at solid
  cases solid

theorem IsWord.not_isBlank {cs : List Char} (word : IsWord cs) : ¬ IsBlank cs := by
  intro blank
  obtain ⟨c, rest, rfl⟩ := List.exists_cons_of_ne_nil word.nonempty
  have isBlank := blank c List.mem_cons_self
  rw [word.solid c List.mem_cons_self] at isBlank
  cases isBlank

theorem Firm.append {front back : List Char} (firm : Firm back) : Firm (front ++ back) := by
  obtain ⟨c, last, solid⟩ := firm
  exact ⟨c, by simp [List.getLast?_append, last], solid⟩

theorem Firm.cons {c : Char} {cs : List Char} (firm : Firm cs) : Firm (c :: cs) := by
  rw [← List.singleton_append]
  exact firm.append

theorem IsWord.firm {cs : List Char} (word : IsWord cs) : Firm cs :=
  ⟨cs.getLast word.nonempty, List.getLast?_eq_some_getLast _, word.solid _ (List.getLast_mem _)⟩

theorem takeWhile_run {p : Char → Bool} {run rest : List Char} (inside : ∀ c ∈ run, p c = true)
    (ended : ∀ c ∈ rest.head?, p c = false) : (run ++ rest).takeWhile p = run := by
  rw [List.takeWhile_append_of_pos inside]
  cases rest with
  | nil => simp
  | cons c rest => simp [ended c rfl]

theorem dropWhile_run {p : Char → Bool} {run rest : List Char} (inside : ∀ c ∈ run, p c = true)
    (ended : ∀ c ∈ rest.head?, p c = false) : (run ++ rest).dropWhile p = rest := by
  rw [List.dropWhile_append_of_pos inside]
  cases rest with
  | nil => rfl
  | cons c rest => exact List.dropWhile_cons_of_neg (by simp [ended c rfl])

theorem isGap_iff {c : Char} : isGap c = true ↔ c = ' ' ∨ c = '\t' ∨ c = '\r' ∨ c = '\n' := by
  simp [isGap, or_assoc]

theorem isBlank_of_isGap {c : Char} (gap : isGap c = true) : isBlank c = true := by
  rcases isGap_iff.mp gap with rfl | rfl | rfl | rfl <;> rfl

theorem trim_dropWhile_isGap (cs : List Char) : trim (cs.dropWhile isGap) = trim cs := by
  have same : trimLeft (cs.dropWhile isGap) = trimLeft cs := by
    induction cs with
    | nil => rfl
    | cons c cs ih =>
      rw [List.dropWhile_cons]
      split
      · rename_i gap
        rw [ih, trimLeft, trimLeft, List.dropWhile_cons_of_pos (isBlank_of_isGap gap)]
      · rfl
  rw [trim, same, trim]

/-- Trimming keeps every character that is not blank. -/
theorem filter_trim (cs : List Char) : (trim cs).filter (!isBlank ·) = cs.filter (!isBlank ·) := by
  have dropped (cs : List Char) : (cs.dropWhile isBlank).filter (!isBlank ·) = cs.filter (!isBlank ·) := by
    induction cs with
    | nil => rfl
    | cons c cs ih =>
      rw [List.dropWhile_cons]
      split
      · rename_i blank
        rw [ih, List.filter_cons_of_neg (by simp [blank])]
      · rfl
  rw [trim, trimRight, List.filter_reverse, dropped, ← List.filter_reverse, List.reverse_reverse, trimLeft,
    dropped]

theorem trim_eq_nil_iff {cs : List Char} : trim cs = [] ↔ IsBlank cs := by
  constructor
  · intro empty
    have kept := filter_trim cs
    rw [empty, List.filter_nil, eq_comm, List.filter_eq_nil_iff] at kept
    exact fun c member => by simpa using kept c member
  · intro blank
    rw [trim, trimLeft, List.dropWhile_eq_nil_iff.mpr blank]
    rfl

theorem trim_append_blank {pad : List Char} (blank : IsBlank pad) (cs : List Char) :
    trim (cs ++ pad) = trim cs := by
  have right (kept : List Char) : trimRight (kept ++ pad) = trimRight kept := by
    have behind : ∀ c ∈ pad.reverse, isBlank c = true :=
      fun c member => blank c (List.mem_reverse.mp member)
    rw [trimRight, List.reverse_append, List.dropWhile_append_of_pos behind, trimRight]
  by_cases whole : IsBlank cs
  · have both : IsBlank (cs ++ pad) := List.forall_mem_append.mpr ⟨whole, blank⟩
    rw [trim_eq_nil_iff.mpr both, trim_eq_nil_iff.mpr whole]
  · have left : trimLeft (cs ++ pad) = trimLeft cs ++ pad := by
      have kept : cs.dropWhile isBlank ≠ [] := fun empty => whole (List.dropWhile_eq_nil_iff.mp empty)
      rw [trimLeft, List.dropWhile_append, if_neg (by simpa using kept), trimLeft]
    rw [trim, left, right, trim]

/-- Blanks around a text that neither begins nor ends with one. -/
theorem trim_among {front cs back : List Char} (before : IsBlank front) (behind : IsBlank back)
    (first : ∀ c ∈ cs.head?, isBlank c = false) (last : ∀ c ∈ cs.getLast?, isBlank c = false) :
    trim (front ++ cs ++ back) = cs := by
  cases cs with
  | nil =>
    rw [List.append_nil, trim_eq_nil_iff]
    exact List.forall_mem_append.mpr ⟨before, behind⟩
  | cons c rest =>
    have left : trimLeft (front ++ (c :: rest ++ back)) = c :: rest ++ back := dropWhile_run before first
    have right : (back.reverse ++ (c :: rest).reverse).dropWhile isBlank = (c :: rest).reverse := by
      refine dropWhile_run (fun d member => behind d (List.mem_reverse.mp member)) fun d member => ?_
      exact last d (List.head?_reverse ▸ member)
    rw [List.append_assoc, trim, left, trimRight, List.reverse_append, right, List.reverse_reverse]

theorem IsWord.trim_among {front word back : List Char} (isWord : IsWord word) (before : IsBlank front)
    (behind : IsBlank back) : trim (front ++ word ++ back) = word :=
  Text.trim_among before behind (fun c member => isWord.solid c (List.mem_of_head? member))
    fun c member => isWord.solid c (List.mem_of_getLast? member)

/-- The words of a text that starts with one. -/
theorem words_eq_cons {c : Char} {cs : List Char} (solid : isBlank c = false) :
    words (c :: cs) = (c :: cs.takeWhile (!isBlank ·)) :: words (cs.dropWhile (!isBlank ·)) := by
  rw [words]
  have kept : (c :: cs).dropWhile isBlank = c :: cs := by simp [solid]
  split
  · rename_i empty
    rw [kept] at empty
    cases empty
  · rename_i found
    rw [kept] at found
    cases found
    rfl

theorem words_eq_nil_iff {cs : List Char} : words cs = [] ↔ IsBlank cs := by
  rw [words]
  split
  · rename_i empty
    exact iff_of_true rfl (List.dropWhile_eq_nil_iff.mp empty)
  · rename_i found
    refine iff_of_false (List.cons_ne_nil _ _) fun blank => ?_
    rw [List.dropWhile_eq_nil_iff.mpr blank] at found
    cases found

theorem words_blank_append {pad : List Char} (blank : IsBlank pad) (cs : List Char) :
    words (pad ++ cs) = words cs := by
  have dropped : (pad ++ cs).dropWhile isBlank = cs.dropWhile isBlank :=
    List.dropWhile_append_of_pos blank
  rw [words, words]
  split <;> split <;> simp_all

/-- A word that ends where the text ends, or at a blank. -/
theorem IsWord.words_append {word rest : List Char} (isWord : IsWord word)
    (ended : ∀ c ∈ rest.head?, isBlank c = true) : words (word ++ rest) = word :: words rest := by
  cases word with
  | nil => exact absurd rfl isWord.nonempty
  | cons c cs =>
    obtain ⟨solid, others⟩ := List.forall_mem_cons.mp isWord.solid
    have inside : ∀ d ∈ cs, (!isBlank d) = true := fun d member => by simp [others d member]
    have stop : ∀ d ∈ rest.head?, (!isBlank d) = false := fun d member => by simp [ended d member]
    rw [List.cons_append, words_eq_cons solid, takeWhile_run inside stop, dropWhile_run inside stop]

theorem IsWord.words_eq {cs : List Char} (word : IsWord cs) : words cs = [cs] := by
  have ended : ∀ c ∈ ([] : List Char).head?, isBlank c = true := fun _ member => absurd member (by simp)
  have alone := word.words_append ended
  rwa [List.append_nil, words_eq_nil_iff.mpr isBlank_nil] at alone

/-- What a line feed leaves of the line before it. -/
def ended (line : List Char) : List Char :=
  if line.getLast? = some '\r' then line.dropLast else line

theorem isBlank_ended_iff {line : List Char} : IsBlank (ended line) ↔ IsBlank line := by
  unfold ended
  split
  · rename_i last
    obtain ⟨front, rfl⟩ := List.getLast?_eq_some_iff.mp last
    have blank : isBlank '\r' = true := by decide
    simp [IsBlank, or_imp, forall_and, blank]
  · rfl

theorem Firm.ended_eq {cs : List Char} (firm : Firm cs) : ended cs = cs := by
  refine if_neg fun last => ?_
  obtain ⟨c, found, solid⟩ := firm
  cases last.symm.trans found
  exact absurd solid (by decide)

@[simp] theorem lines_nil : lines [] = [] := by simp [lines]

/-- The line before the first line feed, and those behind it. -/
theorem lines_append_lineFeed {line : List Char} (flat : '\n' ∉ line) (rest : List Char) :
    lines (line ++ '\n' :: rest) = ended line :: lines rest := by
  have before : ∀ c ∈ line, decide (c ≠ '\n') = true :=
    fun c member => decide_eq_true fun same => flat (same ▸ member)
  have taken : (line ++ '\n' :: rest).takeWhile (· ≠ '\n') = line := by
    rw [List.takeWhile_append_of_pos before]
    simp
  have dropped : (line ++ '\n' :: rest).dropWhile (· ≠ '\n') = '\n' :: rest := by
    rw [List.dropWhile_append_of_pos before]
    simp
  rw [lines]
  split
  · rename_i empty
    rw [dropped] at empty
    cases empty
  · rename_i found
    rw [dropped] at found
    cases found
    rw [taken]
    rfl

theorem lines_flat {line : List Char} (flat : '\n' ∉ line) (nonempty : line ≠ []) : lines line = [line] := by
  have before : ∀ c ∈ line, decide (c ≠ '\n') = true :=
    fun c member => decide_eq_true fun same => flat (same ▸ member)
  have dropped : line.dropWhile (· ≠ '\n') = [] := List.dropWhile_eq_nil_iff.mpr before
  have taken : line.takeWhile (· ≠ '\n') = line := List.takeWhile_eq_self_iff.mpr before
  rw [lines]
  split
  · rw [taken]
    exact if_neg (by simpa using nonempty)
  · rename_i found
    rw [dropped] at found
    cases found

/-- A line feed cuts a text in two. -/
theorem lines_cut (front back : List Char) :
    lines (front ++ '\n' :: back) = lines (front ++ ['\n']) ++ lines back := by
  by_cases flat : '\n' ∈ front
  · obtain ⟨line, later, rfl, first⟩ := List.eq_append_cons_of_mem flat
    have shorter : later.length < (line ++ '\n' :: later).length := by
      simp only [List.length_append, List.length_cons]
      omega
    have tail := lines_cut later back
    simp only [List.append_assoc, List.cons_append]
    rw [lines_append_lineFeed first, lines_append_lineFeed first, tail, List.cons_append]
  · rw [lines_append_lineFeed flat, lines_append_lineFeed flat, lines_nil]
    rfl
termination_by front.length

end Text

namespace Program

open Text

theorem firstWords_cut (front back : String) :
    firstWords (front ++ "\n" ++ back) = firstWords (front ++ "\n") ++ firstWords back := by
  have feed : "\n".toList = ['\n'] := rfl
  simp only [firstWords, String.toList_append, feed, List.append_assoc, List.singleton_append]
  rw [lines_cut, List.filterMap_append]

theorem firstWords_line {line : String} (flat : '\n' ∉ line.toList) :
    firstWords (line ++ "\n") = ((words (ended line.toList)).head?.map String.ofList).toList := by
  have feed : "\n".toList = ['\n'] := rfl
  simp only [firstWords, String.toList_append, feed]
  rw [lines_append_lineFeed flat, lines_nil]
  simp only [List.filterMap_cons, List.filterMap_nil]
  cases (words (ended line.toList)).head?.map String.ofList <;> rfl

theorem firstWords_word {word : String} (isWord : IsWord word.toList) :
    firstWords (word ++ "\n") = [word] := by
  rw [firstWords_line isWord.lineFeed_not_mem, isWord.firm.ended_eq, isWord.words_eq]
  simp

/-- A line gives one word, and a blank line none. -/
theorem length_firstWords_line {line : String} (flat : '\n' ∉ line.toList) :
    (firstWords (line ++ "\n")).length = if IsBlank line.toList then 0 else 1 := by
  rw [firstWords_line flat]
  cases found : words (ended line.toList) with
  | nil =>
    have blank : IsBlank line.toList := isBlank_ended_iff.mp (words_eq_nil_iff.mp found)
    simp [blank]
  | cons word others =>
    have solid : ¬ IsBlank line.toList := by
      intro blank
      rw [words_eq_nil_iff.mpr (isBlank_ended_iff.mpr blank)] at found
      cases found
    simp [solid]

/-- What is read of a file is what is read of the lines of its cells, one after another. -/
theorem firstWords_cellText (cells : Array Cell) :
    firstWords (cellText cells) = cells.toList.flatMap fun c => firstWords (c.render ++ "\n") := by
  unfold cellText
  induction cells.toList with
  | nil => simp [firstWords]
  | cons c rest ih =>
    rw [List.map_cons, String.join_cons, firstWords_cut, ih, List.flatMap_cons]

end Program

end Pushdown
