import Mathlib.Data.List.Chain
import Pushdown.Grammar.Reader
import Pushdown.Proofs.Declarations
import Pushdown.Proofs.Words

/-! Lines of a grammar's text. A header gives a name and a value, a rule its two sides and its lookahead set.
Symbols stand in lists, where what divides or closes the list is marked by a backslash, and blanks around
the parts do not count. Each line that is written so is read as what it says, and a line of free text is
passed over. -/
namespace Pushdown.Grammar

open Text (Firm IsBlank IsWord isBlank isGap)

/-- How characters are spelled in a list: those that divide or close it, and a backslash, have a backslash
before them. Others may have one. -/
inductive Spelled (close : Char) : List Char → List Char → Prop
  | nil : Spelled close [] []
  | plain {c : Char} {cs text : List Char} (plain : c ≠ '\\' ∧ c ≠ ',' ∧ c ≠ close)
    (rest : Spelled close cs text) : Spelled close (c :: cs) (c :: text)
  | marked {c : Char} {cs text : List Char} (rest : Spelled close cs text) :
    Spelled close (c :: cs) ('\\' :: c :: text)

/-- A symbol of a list, with blanks around it. -/
inductive Item (close : Char) (s : Symbol) : List Char → Prop
  | among {front text back : List Char} (before : IsBlank front)
    (spelled : Spelled close s.toList text) (behind : IsBlank back) :
    Item close s (front ++ text ++ back)

/-- A list from its first item to the closing character, with commas behind the items. The last one may do
without. -/
inductive Listed (close : Char) : List Symbol → List Char → Prop
  | none {pad : List Char} (blank : IsBlank pad) : Listed close [] (pad ++ [close])
  | last {s : Symbol} {text : List Char} (item : Item close s text) :
    Listed close [s] (text ++ [close])
  | more {s : Symbol} {symbols : List Symbol} {text rest : List Char} (item : Item close s text)
    (others : Listed close symbols rest) : Listed close (s :: symbols) (text ++ ',' :: rest)

/-- The characters that close a list. -/
def Closing (close : Char) : Prop := close = ']' ∨ close = '\x7d'

section Lists

variable {close : Char} {s : Symbol} {symbols : List Symbol} {item text rest : List Char}

theorem Closing.plain (closing : Closing close) :
    close ≠ '\\' ∧ close ≠ ',' ∧ isBlank close = false := by
  rcases closing with rfl | rfl <;> decide

/-- A character that is neither a backslash nor a comma closes the list or belongs to an item. -/
theorem readItems_cons {c : Char} (backslash : c ≠ '\\') (comma : c ≠ ',') :
    readItems close item (c :: rest) =
      if c = close then some (addItem item.reverse []) else readItems close (c :: item) rest :=
  readItems.eq_5 _ _ _ _ (fun same _ => backslash same) (fun _ _ same _ => backslash same) comma

theorem readItems_spelled {cs : List Char} (spelled : Spelled close cs text) :
    readItems close item (text ++ rest) = readItems close (cs.reverse ++ item) rest := by
  induction spelled generalizing item with
  | nil => rfl
  | plain plain _ ih =>
    obtain ⟨backslash, comma, other⟩ := plain
    rw [List.cons_append, readItems_cons backslash comma, if_neg other, ih]
    simp
  | marked _ ih =>
    rw [List.cons_append, List.cons_append, readItems, ih]
    simp

theorem spelled_of_isBlank {pad : List Char} (closing : Closing close) (blank : IsBlank pad) :
    Spelled close pad pad := by
  induction pad with
  | nil => exact .nil
  | cons c pad ih =>
    obtain ⟨here, later⟩ := List.forall_mem_cons.mp blank
    refine .plain ⟨?_, ?_, ?_⟩ (ih later)
    · rintro rfl
      exact absurd here (by decide)
    · rintro rfl
      exact absurd here (by decide)
    · rintro rfl
      exact absurd here (by simp [closing.plain.2.2])

theorem addItem_blank {pad : List Char} (blank : IsBlank pad) (items : List Symbol) :
    addItem pad items = items := by
  rw [addItem, Text.trim_eq_nil_iff.mpr blank]

theorem addItem_among {front back : List Char} (word : IsWord s.toList) (before : IsBlank front)
    (behind : IsBlank back) (items : List Symbol) :
    addItem (front ++ s.toList ++ back) items = s :: items := by
  rw [addItem, word.trim_among before behind]
  cases spelled : s.toList with
  | nil => exact absurd spelled word.nonempty
  | cons c cs =>
    have same := congrArg String.ofList spelled
    rw [String.ofList_toList] at same
    exact congrArg (· :: items) same.symm

/-- What has been read of an item when its end is reached. -/
theorem Item.read (closing : Closing close) (word : IsWord s.toList) (written : Item close s text) :
    ∃ read, (∀ rest, readItems close [] (text ++ rest) = readItems close read rest) ∧
      ∀ items, addItem read.reverse items = s :: items := by
  cases written with
  | @among front body back before spelled behind =>
    refine ⟨back.reverse ++ (s.toList.reverse ++ (front.reverse ++ [])), fun rest => ?_, fun items => ?_⟩
    · rw [List.append_assoc, List.append_assoc, readItems_spelled (spelled_of_isBlank closing before),
        readItems_spelled spelled, readItems_spelled (spelled_of_isBlank closing behind)]
    · simpa using addItem_among word before behind items

theorem Listed.read (closing : Closing close) (words : ∀ s ∈ symbols, IsWord s.toList)
    (listed : Listed close symbols text) : readItems close [] text = some symbols := by
  obtain ⟨backslash, comma, _⟩ := closing.plain
  induction listed with
  | none blank =>
    rw [readItems_spelled (spelled_of_isBlank closing blank), readItems_cons backslash comma, if_pos rfl]
    simp [addItem_blank blank]
  | last item =>
    obtain ⟨read, reads, added⟩ := item.read closing (words _ (.head _))
    rw [reads, readItems_cons backslash comma, if_pos rfl, added]
  | more item _ ih =>
    obtain ⟨read, reads, added⟩ := item.read closing (words _ (.head _))
    have others := ih fun s member => words s (.tail _ member)
    rw [reads, readItems, others, Option.map_some, added]

theorem Listed.last_eq (listed : Listed close symbols text) : text.getLast? = some close := by
  induction listed with
  | none | last => simp
  | more _ _ ih => simp [List.getLast?_cons, ih]

theorem Listed.firm (closing : Closing close) (listed : Listed close symbols text) : Firm text :=
  ⟨close, listed.last_eq, closing.plain.2.2⟩

end Lists

/-- What counts of a line: all but single quotes. -/
def unquoted (line : List Char) : List Char := line.filter (· ≠ '\x27')

/-- Takes over a line, whatever its number. -/
def Draft.Takes (d : Draft) (line : List Char) (d' : Draft) : Prop :=
  ∀ number, d.readLine line number = .ok d'

section Patterns

variable {pattern cs : List Char}

theorem divideAt_eq_none_iff : divideAt pattern cs = none ↔ ¬ pattern <:+: cs := by
  induction cs with
  | nil =>
    rw [divideAt]
    cases pattern <;> simp
  | cons c cs ih =>
    rw [divideAt, List.infix_cons_iff, ← List.isPrefixOf_iff_prefix]
    by_cases begins : pattern.isPrefixOf (c :: cs) = true
    · simp [begins]
    · simp [begins, ih]

/-- The first arrow is the one behind a text without arrows. -/
theorem divideAt_arrow {front back : List Char} (absent : ¬ ['-', '>'] <:+: front) :
    divideAt ['-', '>'] (front ++ '-' :: '>' :: back) = some (front, back) := by
  induction front with
  | nil => simp [divideAt]
  | cons c front ih =>
    rw [List.infix_cons_iff, not_or] at absent
    -- An arrow that begins here could end only in the text without arrows.
    have other : ¬ ['-', '>'].isPrefixOf (c :: front ++ '-' :: '>' :: back) = true := by
      intro begins
      refine absent.1 ?_
      cases front with
      | nil => simp at begins
      | cons d front => simpa using begins
    rw [List.cons_append] at other ⊢
    rw [divideAt, if_neg other, ih absent.2]
    rfl

end Patterns

/-- The headers that a grammar is read from. -/
inductive Header where
  | start
  | terminals
  | nonterminals
  | actions
deriving DecidableEq

namespace Header

def name : Header → String
  | .start => "start_symbol"
  | .terminals => "terminals"
  | .nonterminals => "nonterminals"
  | .actions => "action_symbols"

/-- The symbols that a header lists. -/
def symbols? (g : Grammar) : Header → Option (List Symbol)
  | .start => none
  | .terminals => some g.terminals
  | .nonterminals => some g.nonterminals
  | .actions => some g.actions

theorem symbols?_subset (h : Header) {g : Grammar} {symbols : List Symbol}
    (lists : h.symbols? g = some symbols) : ∀ s ∈ symbols, s ∈ g.declared := by
  intro s member
  cases h with
  | start => cases lists
  | terminals | nonterminals | actions =>
    cases lists
    simp [declared, member]

end Header

/-- Characters of a name before an equals sign. -/
def isNameChar (c : Char) : Bool := Text.isAlphanumeric c || c = '_'

/-- A name, an equals sign and what follows it. -/
inductive Titled (name value : List Char) : List Char → Prop
  | line {inset gap : List Char} (insets : ∀ c ∈ inset, isInset c = true)
    (named : name ≠ [] ∧ ∀ c ∈ name, isNameChar c = true) (gaps : ∀ c ∈ gap, isGap c = true) :
    Titled name value (inset ++ name ++ gap ++ '=' :: value)

/-- The value of a header: the start symbol as it is, or a list in brackets. -/
inductive HeaderValue (g : Grammar) : Header → List Char → Prop
  | start : HeaderValue g .start g.start.toList
  | list {h : Header} {symbols : List Symbol} {text : List Char} (lists : h.symbols? g = some symbols)
    (listed : Listed ']' symbols text) : HeaderValue g h ('[' :: text)

/-- A line that states a header of a grammar. -/
inductive HeaderLine (g : Grammar) (h : Header) : List Char → Prop
  | line {pad value line : List Char} (blank : IsBlank pad) (valued : HeaderValue g h value)
    (titled : Titled h.name.toList (pad ++ value) line) : HeaderLine g h line

/-- The draft with a header of a grammar taken over. -/
def Draft.withHeader (d : Draft) (g : Grammar) : Header → Draft
  | .start => { d with start := some g.start }
  | .terminals => { d with terminals := some g.terminals }
  | .nonterminals => { d with nonterminals := some g.nonterminals }
  | .actions => { d with actions := some g.actions }

section Headers

variable {g : Grammar} {h : Header} {d : Draft} {line name value : List Char}

theorem isNameChar_of_isGap {c : Char} (gap : isGap c = true) : isNameChar c = false := by
  rcases Text.isGap_iff.mp gap with rfl | rfl | rfl | rfl <;> decide +kernel

theorem isGap_of_isInset {c : Char} (inset : isInset c = true) : isGap c = true := by
  unfold isInset at inset
  unfold isGap
  simp_all

/-- The parts that a header is divided into. -/
theorem readHeader_eq (line : List Char) : readHeader line =
    let rest := line.dropWhile isInset
    match (rest.drop (rest.takeWhile isNameChar).length).dropWhile isGap with
    | '=' :: value =>
      if (rest.takeWhile isNameChar).isEmpty then none
      else some (rest.takeWhile isNameChar, Text.trim value)
    | _ => none := rfl

theorem Titled.not_isBlank (titled : Titled name value line) : ¬ IsBlank line := by
  intro blank
  cases titled with
  | line => exact absurd (blank '=' (by simp)) (by decide)

theorem readHeader_titled (titled : Titled name value line) :
    readHeader line = some (name, Text.trim value) := by
  cases titled with
  | @line inset gap insets named gaps =>
    obtain ⟨nonempty, letters⟩ := named
    have first : ∀ c ∈ (name ++ (gap ++ '=' :: value)).head?, isInset c = false := by
      obtain ⟨initial, others, rfl⟩ := List.exists_cons_of_ne_nil nonempty
      rintro c ⟨⟩
      have letter := letters initial (.head _)
      refine Bool.eq_false_iff.mpr fun inset => ?_
      rw [isNameChar_of_isGap (isGap_of_isInset inset)] at letter
      cases letter
    have stop : ∀ c ∈ (gap ++ '=' :: value).head?, isNameChar c = false := by
      intro c member
      cases gap with
      | nil =>
        cases member
        decide +kernel
      | cons d gap =>
        cases member
        exact isNameChar_of_isGap (gaps c (.head _))
    have behind : (gap ++ '=' :: value).dropWhile isGap = '=' :: value :=
      Text.dropWhile_run gaps fun c member => by cases member; rfl
    rw [readHeader_eq, List.append_assoc, List.append_assoc, Text.dropWhile_run insets first]
    dsimp only
    rw [Text.takeWhile_run letters stop, List.drop_left, behind]
    exact if_neg (by simpa using nonempty)

theorem titled_of_readHeader (read : readHeader line = some (name, value)) :
    ∃ rest, Titled name rest line := by
  rw [readHeader_eq] at read
  dsimp only at read
  split at read
  · rename_i rest found
    split at read
    · cases read
    · rename_i nonempty
      cases read
      -- The three runs and what is behind them make up the line.
      generalize tailed : (line.dropWhile isInset).drop
        ((line.dropWhile isInset).takeWhile isNameChar).length = tail at found
      have front := List.takeWhile_append_dropWhile (p := isInset) (l := line)
      have begins := List.takeWhile_prefix (l := line.dropWhile isInset) isNameChar
      have middle := List.prefix_iff_eq_append.mp begins
      have back := List.takeWhile_append_dropWhile (p := isGap) (l := tail)
      rw [tailed, ← back, found] at middle
      rw [← middle, ← List.append_assoc, ← List.append_assoc] at front
      have titled : Titled ((line.dropWhile isInset).takeWhile isNameChar) rest
          (line.takeWhile isInset ++ (line.dropWhile isInset).takeWhile isNameChar ++
            tail.takeWhile isGap ++ '=' :: rest) :=
        .line (fun _ => List.mem_takeWhile_imp) ⟨by simpa using nonempty, fun _ => List.mem_takeWhile_imp⟩
          fun _ => List.mem_takeWhile_imp
      rw [front] at titled
      exact ⟨rest, titled⟩
  · cases read

/-- Nothing is a header but what is written as one. -/
theorem readHeader_eq_none_iff : readHeader line = none ↔ ∀ name value, ¬ Titled name value line := by
  constructor
  · intro absent name value titled
    rw [readHeader_titled titled] at absent
    cases absent
  · intro untitled
    refine Option.eq_none_iff_forall_ne_some.mpr fun header read => ?_
    obtain ⟨rest, titled⟩ := titled_of_readHeader read
    exact untitled _ _ titled

theorem HeaderValue.firm (word : IsWord g.start.toList) (valued : HeaderValue g h value) : Firm value := by
  cases valued with
  | start => exact word.firm
  | list _ listed => exact (listed.firm (.inl rfl)).cons

theorem HeaderValue.trim_eq {pad : List Char} (word : IsWord g.start.toList)
    (valued : HeaderValue g h value) (blank : IsBlank pad) : Text.trim (pad ++ value) = value := by
  rw [← List.append_nil (pad ++ value)]
  cases valued with
  | start => exact word.trim_among blank Text.isBlank_nil
  | @list _ _ text _ listed =>
    refine Text.trim_among blank Text.isBlank_nil ?_ ?_
    · rintro c ⟨⟩
      decide
    · rw [List.getLast?_cons, listed.last_eq]
      rintro c ⟨⟩
      decide

theorem HeaderLine.firm (start : IsWord g.start.toList) (stated : HeaderLine g h line) : Firm line := by
  cases stated with
  | line _ valued titled =>
    cases titled with
    | line => exact (valued.firm start).append.cons.append

/-- The list in a header is read. -/
theorem setHeader_eq (words : ∀ s ∈ g.declared, IsWord s.toList) (valued : HeaderValue g h value)
    (number : Nat) : d.setHeader number h.name.toList value = .ok (d.withHeader g h) := by
  cases valued with
  | start => simp [Draft.setHeader, Header.name, Draft.withHeader]
  | @list _ symbols text lists listed =>
    have declared : ∀ s ∈ symbols, s ∈ g.declared := h.symbols?_subset lists
    have read : readList '[' ']' (('[' :: text).dropWhile isInset) = some symbols :=
      listed.read (.inl rfl) fun s member => words s (declared s member)
    cases h with
    | start => cases lists
    | terminals | nonterminals | actions =>
      cases lists
      simp [Draft.setHeader, Header.name, read, Draft.withHeader, Except.map]

end Headers

/-- The right side of a rule: its symbols with blanks before each of them, and perhaps behind the last. -/
inductive Side : List Symbol → List Char → Prop
  | nil {pad : List Char} (blank : IsBlank pad) : Side [] pad
  | cons {s : Symbol} {symbols : List Symbol} {gap rest : List Char} (nonempty : gap ≠ [])
    (blank : IsBlank gap) (others : Side symbols rest) : Side (s :: symbols) (gap ++ s.toList ++ rest)

/-- A line that states a rule. -/
inductive RuleLine (r : Rule) : List Char → Prop
  | line {front gap side set : List Char} (before : IsBlank front) (between : IsBlank gap)
    (right : Side r.right side) (lookahead : Listed '\x7d' r.lookahead set) :
    RuleLine r (front ++ r.left.toList ++ gap ++ '-' :: '>' :: (side ++ '\x7b' :: set))

section Rules

variable {r : Rule} {symbols : List Symbol} {line text : List Char}

theorem Side.head (side : Side symbols text) : ∀ c ∈ text.head?, isBlank c = true := by
  cases side with
  | nil blank => exact fun c member => blank c (List.mem_of_head? member)
  | @cons _ _ gap _ nonempty blank _ =>
    obtain ⟨c, gap, rfl⟩ := List.exists_cons_of_ne_nil nonempty
    rintro _ ⟨⟩
    exact blank c (.head _)

theorem Side.words_eq (words : ∀ s ∈ symbols, IsWord s.toList) (side : Side symbols text) :
    (Text.words text).map String.ofList = symbols := by
  induction side with
  | nil blank => rw [Text.words_eq_nil_iff.mpr blank, List.map_nil]
  | cons _ blank others ih =>
    obtain ⟨here, later⟩ := List.forall_mem_cons.mp words
    rw [List.append_assoc, Text.words_blank_append blank, here.words_append others.head, List.map_cons,
      String.ofList_toList, ih later]

theorem Side.brace_not_mem (plain : ∀ s ∈ symbols, '\x7b' ∉ s.toList) (side : Side symbols text) :
    '\x7b' ∉ text := by
  have solid {pad : List Char} (blank : IsBlank pad) : '\x7b' ∉ pad := fun member =>
    absurd (blank _ member) (by decide)
  induction side with
  | nil blank => exact solid blank
  | cons _ blank _ ih =>
    obtain ⟨here, later⟩ := List.forall_mem_cons.mp plain
    simp [solid blank, here, ih later]

theorem arrow_absent_iff {cs : List Char} :
    ¬ ['-', '>'] <:+: cs ↔ cs.IsChain fun a b => ¬ (a = '-' ∧ b = '>') := by
  rw [List.isChain_iff_forall_rel_of_append_cons_cons]
  constructor
  · rintro absent a b before behind rfl ⟨rfl, rfl⟩
    exact absent ⟨before, behind, by simp⟩
  · rintro apart ⟨before, behind, rfl⟩
    have adjacent : before ++ ['-', '>'] ++ behind = before ++ '-' :: '>' :: behind := by simp
    exact apart adjacent ⟨rfl, rfl⟩

/-- Blanks make no arrow. -/
theorem arrow_absent {front left gap : List Char} (before : IsBlank front) (between : IsBlank gap)
    (absent : ¬ ['-', '>'] <:+: left) : ¬ ['-', '>'] <:+: front ++ left ++ gap := by
  have solid {pad : List Char} {c : Char} (blank : IsBlank pad) (member : c ∈ pad) : c ≠ '-' ∧ c ≠ '>' :=
    ⟨fun same => absurd (blank c member) (by rw [same]; decide),
      fun same => absurd (blank c member) (by rw [same]; decide)⟩
  have apart {pad : List Char} (blank : IsBlank pad) : pad.IsChain fun a b => ¬ (a = '-' ∧ b = '>') :=
    arrow_absent_iff.mp fun inside => (solid blank (inside.subset (.head _))).1 rfl
  rw [arrow_absent_iff] at absent ⊢
  rw [List.isChain_append, List.isChain_append]
  refine ⟨⟨apart before, absent, fun a last _ _ both => ?_⟩, apart between, fun _ _ b first both => ?_⟩
  · exact (solid before (List.mem_of_getLast? last)).1 both.1
  · exact (solid between (List.mem_of_head? first)).2 both.2

theorem readRule_eq (left : IsWord r.left.toList) (right : ∀ s ∈ r.right, IsWord s.toList)
    (lookahead : ∀ s ∈ r.lookahead, IsWord s.toList) (plain : ∀ s ∈ r.right, '\x7b' ∉ s.toList)
    {front gap side set : List Char} (before : IsBlank front) (between : IsBlank gap)
    (written : Side r.right side) (listed : Listed '\x7d' r.lookahead set) (number : Nat)
    (raw : List Char) :
    Draft.readRule number raw (front ++ r.left.toList ++ gap) (side ++ '\x7b' :: set) = .ok r := by
  have inside : ∀ c ∈ side, decide (c ≠ '\x7b') = true := fun c member =>
    decide_eq_true fun same => written.brace_not_mem plain (same ▸ member)
  have stop : ∀ c ∈ ('\x7b' :: set).head?, decide (c ≠ '\x7b') = false := by
    rintro c ⟨⟩
    rfl
  have single : Text.words (front ++ r.left.toList ++ gap) = [r.left.toList] := by
    rw [List.append_assoc, Text.words_blank_append before,
      left.words_append fun c member => between c (List.mem_of_head? member),
      Text.words_eq_nil_iff.mpr between]
  have read : readList '\x7b' '\x7d' ('\x7b' :: set) = some r.lookahead := listed.read (.inr rfl) lookahead
  unfold Draft.readRule
  simp only [Text.takeWhile_run inside stop, Text.dropWhile_run inside stop, single, read,
    written.words_eq right, String.ofList_toList]
  rfl

theorem RuleLine.not_isBlank (stated : RuleLine r line) : ¬ IsBlank line := by
  intro blank
  cases stated with
  | line => exact absurd (blank '-' (by simp)) (by decide)

theorem RuleLine.firm (stated : RuleLine r line) : Firm line := by
  cases stated with
  | line _ _ _ lookahead =>
    exact (lookahead.firm (.inr rfl)).cons.append.cons.cons.append

end Rules

/-- Grammars that can be written down: symbols are words without quotes, left sides do not contain an arrow,
and right sides no opening brace. -/
structure Writable (g : Grammar) : Prop where
  words : ∀ s ∈ g.declared, IsWord s.toList
  quoteless : ∀ s ∈ g.declared, '\x27' ∉ s.toList
  arrowless : ∀ r ∈ g.rules, ¬ ['-', '>'] <:+: r.left.toList
  braceless : ∀ r ∈ g.rules, ∀ s ∈ r.right, '\x7b' ∉ s.toList

/-- Lines above the rules that say nothing: blank ones, and those that neither begin like a header nor have
the word for the rules in them. -/
def FreeAbove (line : List Char) : Prop :=
  IsBlank line ∨ (∀ name value, ¬ Titled name value line) ∧ ¬ "rules".toList <:+: line

/-- Lines among the rules that say nothing: blank ones, and those without an arrow. -/
def FreeBelow (line : List Char) : Prop := IsBlank line ∨ ¬ ['-', '>'] <:+: line

instance : DecidablePred FreeAbove := fun line =>
  decidable_of_iff (IsBlank line ∨ (readHeader line).isNone = true ∧ (divideAt "rules".toList line).isNone = true)
    (by simp only [Option.isNone_iff_eq_none, readHeader_eq_none_iff, divideAt_eq_none_iff, FreeAbove])

instance : DecidablePred FreeBelow := fun line =>
  decidable_of_iff (IsBlank line ∨ (divideAt ['-', '>'] line).isNone = true)
    (by simp only [Option.isNone_iff_eq_none, divideAt_eq_none_iff, FreeBelow])

namespace Draft

variable {g : Grammar} {h : Header} {r : Rule} {d : Draft} {raw : List Char}

theorem takes_blank (blank : IsBlank (unquoted raw)) : d.Takes raw d := by
  intro number
  exact if_pos (Text.trim_eq_nil_iff.mpr blank)

theorem readLine_above (above : d.inRules = false) (solid : ¬ IsBlank (unquoted raw)) (number : Nat) :
    d.readLine raw number = match readHeader (unquoted raw) with
      | some (name, value) => d.setHeader number name value
      | none => .ok { d with inRules := (divideAt "rules".toList (unquoted raw)).isSome } := by
  rw [readLine]
  simp only [above]
  exact if_neg (fun empty => solid (Text.trim_eq_nil_iff.mp empty))

theorem readLine_below (below : d.inRules = true) (solid : ¬ IsBlank (unquoted raw)) (number : Nat) :
    d.readLine raw number = match divideAt ['-', '>'] (unquoted raw) with
      | none => .ok d
      | some (left, rest) =>
        (readRule number raw left rest).map fun rule => { d with rules := rule :: d.rules } := by
  rw [readLine]
  simp only [below]
  exact if_neg (fun empty => solid (Text.trim_eq_nil_iff.mp empty))

theorem takes_freeAbove (above : d.inRules = false) (free : FreeAbove (unquoted raw)) : d.Takes raw d := by
  by_cases blank : IsBlank (unquoted raw)
  · exact takes_blank blank
  · obtain ⟨untitled, absent⟩ := free.resolve_left blank
    intro number
    rw [readLine_above above blank, readHeader_eq_none_iff.mpr untitled, divideAt_eq_none_iff.mpr absent,
      Option.isSome_none, ← above]

theorem takes_freeBelow (below : d.inRules = true) (free : FreeBelow (unquoted raw)) : d.Takes raw d := by
  by_cases blank : IsBlank (unquoted raw)
  · exact takes_blank blank
  · intro number
    rw [readLine_below below blank, divideAt_eq_none_iff.mpr (free.resolve_left blank)]

theorem takes_header (checked : g.check = .ok ()) (writable : g.Writable) (above : d.inRules = false)
    (stated : HeaderLine g h (unquoted raw)) : d.Takes raw (d.withHeader g h) := by
  intro number
  cases stated with
  | line blank valued titled =>
    have start := writable.words _ (start_declared checked)
    rw [readLine_above above titled.not_isBlank, readHeader_titled titled, valued.trim_eq start blank]
    exact setHeader_eq writable.words valued number

theorem takes_rule (checked : g.check = .ok ()) (writable : g.Writable) (member : r ∈ g.rules)
    (below : d.inRules = true) (stated : RuleLine r (unquoted raw)) :
    d.Takes raw { d with rules := r :: d.rules } := by
  intro number
  have declared := declared_of_check checked member
  have left := writable.words _ declared.left
  have symbols (s : Symbol) (inside : s ∈ r.right) := writable.words s (declared.right s inside)
  have next (s : Symbol) (inside : s ∈ r.lookahead) := writable.words s (declared.lookahead s inside)
  rw [readLine_below below stated.not_isBlank]
  generalize unquoted raw = line at stated
  cases stated with
  | line before between right lookahead =>
    rw [divideAt_arrow (arrow_absent before between (writable.arrowless r member))]
    dsimp only
    rw [readRule_eq left symbols next (writable.braceless r member) before between right lookahead]
    rfl

end Draft

end Pushdown.Grammar
