import Pushdown.Proofs.GrammarLines

/-! Texts of grammars. The headers stand above the line that announces the rules, in any order, and the rules
stand below it in theirs. Blank lines and free text may stand anywhere between. However a grammar is written
so, what is read is that grammar. -/
namespace Pushdown.Grammar

open Text (Firm IsBlank)

theorem FreeAbove.front {line front : List Char} (free : FreeAbove line) (begins : front <+: line) :
    FreeAbove front := by
  obtain ⟨back, rfl⟩ := begins
  refine free.imp (fun blank => (List.forall_mem_append.mp blank).1) ?_
  rintro ⟨untitled, absent⟩
  refine ⟨fun name value titled => ?_, fun inside => absent (inside.trans (List.prefix_append _ _).isInfix)⟩
  cases titled with
  | line insets named gaps =>
    refine untitled name (value ++ back) ?_
    simpa using Titled.line insets named gaps

theorem FreeBelow.front {line front : List Char} (free : FreeBelow line) (begins : front <+: line) :
    FreeBelow front := by
  obtain ⟨back, rfl⟩ := begins
  refine free.imp (fun blank => (List.forall_mem_append.mp blank).1) fun absent inside => ?_
  exact absent (inside.trans (List.prefix_append _ _).isInfix)

theorem unquoted_ended (line : List Char) : unquoted (Text.ended line) <+: unquoted line := by
  unfold Text.ended
  split
  · have begins := List.dropLast_prefix line
    exact begins.filter _
  · exact List.prefix_rfl

theorem ended_of_firm {line : List Char} (firm : Firm (unquoted line)) : Text.ended line = line := by
  refine if_neg fun last => ?_
  obtain ⟨front, rfl⟩ := List.getLast?_eq_some_iff.mp last
  obtain ⟨c, found, solid⟩ := firm
  have feed : (unquoted (front ++ ['\r'])).getLast? = some '\r' := by simp [unquoted]
  cases feed.symm.trans found
  exact absurd solid (by decide)

namespace Draft

variable {d d' d'' : Draft} {line : List Char} {lines : List String}

/-- Takes over a line, whether or not a line feed ends it. -/
def Reads (d : Draft) (line : List Char) (d' : Draft) : Prop := d.Takes line d' ∧ d.Takes (Text.ended line) d'

theorem Takes.reads_of_firm (takes : d.Takes line d') (firm : Firm (unquoted line)) : d.Reads line d' := by
  refine ⟨takes, ?_⟩
  rwa [ended_of_firm firm]

/-- Takes over lines, one after another. -/
inductive ReadsAll : Draft → List String → Draft → Prop
  | nil {d : Draft} : ReadsAll d [] d
  | cons {d d' d'' : Draft} {line : String} {lines : List String} (flat : '\n' ∉ line.toList)
    (first : d.Reads line.toList d') (others : ReadsAll d' lines d'') : ReadsAll d (line :: lines) d''

theorem ReadsAll.append {more : List String} (first : ReadsAll d lines d') (second : ReadsAll d' more d'') :
    ReadsAll d (lines ++ more) d'' := by
  induction first with
  | nil => exact second
  | cons flat here _ ih => exact .cons flat here (ih second)

/-- A text is read line by line. -/
theorem ReadsAll.foldlM_eq (reads : ReadsAll d lines d') (number : Nat) :
    ((Text.lines ("\n".intercalate lines).toList).zipIdx number).foldlM
      (fun d (line, index) => d.readLine line (index + 1)) d = .ok d' := by
  induction reads generalizing number with
  | nil =>
    rw [String.intercalate_nil, String.toList_empty, Text.lines_nil]
    rfl
  | @cons d d' d'' line lines flat first others ih =>
    cases lines with
    | nil =>
      -- No line feed ends the last line, and if it is empty it is no line at all.
      cases others
      rw [String.intercalate_singleton]
      by_cases empty : line.toList = []
      · rw [empty] at first ⊢
        rw [Text.lines_nil]
        exact first.1 number
      · rw [Text.lines_flat flat empty]
        simpa using first.1 _
    | cons next lines =>
      have feed : ("\n".intercalate (line :: next :: lines)).toList =
          line.toList ++ '\n' :: ("\n".intercalate (next :: lines)).toList := by
        simp [String.intercalate_cons_cons]
      rw [feed, Text.lines_append_lineFeed flat, List.zipIdx_cons, List.foldlM_cons]
      dsimp only
      rw [first.2]
      exact ih (number + 1)

end Draft

/-- Lines that state things in their order, with free lines between. Quotes do not count. -/
inductive Woven {α : Type} (Line : α → List Char → Prop) (Free : List Char → Prop) :
    List α → List String → Prop
  | nil : Woven Line Free [] []
  | line {a : α} {as : List α} {line : String} {lines : List String}
    (stated : Line a (unquoted line.toList)) (others : Woven Line Free as lines) :
    Woven Line Free (a :: as) (line :: lines)
  | free {as : List α} {line : String} {lines : List String} (free : Free (unquoted line.toList))
    (others : Woven Line Free as lines) : Woven Line Free as (line :: lines)

/-- Every header is there. That of the actions may be left out if there are none. -/
def Complete (g : Grammar) (headers : List Header) : Prop :=
  ∀ h, h ∈ headers ∨ h = .actions ∧ g.actions = []

/-- Lines above and below the one that announces the rules that state a grammar. -/
structure Written (g : Grammar) (headers : List Header) (above below : List String) : Prop where
  headed : Woven (HeaderLine g) FreeAbove headers above
  ruled : Woven RuleLine FreeBelow g.rules below
  flat : ∀ line ∈ above ++ below, '\n' ∉ line.toList

def text (above below : List String) : String := "\n".intercalate (above ++ "rules:" :: below)

section Woven

variable {α : Type} {Line : α → List Char → Prop} {Free : List Char → Prop} {as : List α}
  {lines : List String}

/-- If stated and free lines are taken over while a part of the text lasts, the whole part is. -/
theorem Woven.readsAll {take : Draft → α → Draft} (woven : Woven Line Free as lines) (inRules : Bool)
    (flat : ∀ line ∈ lines, '\n' ∉ line.toList)
    (stays : ∀ d a, (take d a).inRules = d.inRules)
    (stated : ∀ (d : Draft) (line : List Char), d.inRules = inRules → ∀ a ∈ as, Line a (unquoted line) →
      d.Reads line (take d a))
    (free : ∀ (d : Draft) (line : List Char), d.inRules = inRules → Free (unquoted line) → d.Reads line d)
    (d : Draft) (within : d.inRules = inRules) : d.ReadsAll lines (as.foldl take d) := by
  -- Neither kind of line leaves the part of the text, so the next line is again read as one of it.
  induction woven generalizing d with
  | nil => exact .nil
  | line here _ ih =>
    obtain ⟨flat, later⟩ := List.forall_mem_cons.mp flat
    refine .cons flat (stated d _ within _ (.head _) here) (ih later ?_ _ ?_)
    · exact fun d line within a member => stated d line within a (.tail _ member)
    · rw [stays, within]
  | free here _ ih =>
    obtain ⟨flat, later⟩ := List.forall_mem_cons.mp flat
    exact .cons flat (free d _ within here) (ih later stated d within)

theorem Woven.of_map {write : α → String} (stated : ∀ a ∈ as, Line a (unquoted (write a).toList)) :
    Woven Line Free as (as.map write) := by
  induction as with
  | nil => exact .nil
  | cons a as ih =>
    obtain ⟨here, later⟩ := List.forall_mem_cons.mp stated
    exact .line here (ih later)

end Woven

namespace Draft

variable {g : Grammar} {headers : List Header} {d : Draft} {line : List Char} {above below : List String}

theorem reads_freeAbove (within : d.inRules = false) (free : FreeAbove (unquoted line)) : d.Reads line d :=
  ⟨takes_freeAbove within free, takes_freeAbove within (free.front (unquoted_ended line))⟩

theorem reads_freeBelow (within : d.inRules = true) (free : FreeBelow (unquoted line)) : d.Reads line d :=
  ⟨takes_freeBelow within free, takes_freeBelow within (free.front (unquoted_ended line))⟩

theorem foldl_withHeader (d : Draft) : headers.foldl (withHeader · g) d =
    { d with
      start := if .start ∈ headers then some g.start else d.start
      terminals := if .terminals ∈ headers then some g.terminals else d.terminals
      nonterminals := if .nonterminals ∈ headers then some g.nonterminals else d.nonterminals
      actions := if .actions ∈ headers then some g.actions else d.actions } := by
  induction headers generalizing d with
  | nil => simp
  | cons h headers ih =>
    rw [List.foldl_cons, ih]
    cases h <;> simp [withHeader]

theorem foldl_rules (rules : List Rule) (d : Draft) :
    rules.foldl (fun d r => { d with rules := r :: d.rules }) d =
      { d with rules := rules.reverse ++ d.rules } := by
  induction rules generalizing d with
  | nil => rfl
  | cons r rules ih =>
    rw [List.foldl_cons, ih]
    simp

theorem readsAll_headers (checked : g.check = .ok ()) (writable : g.Writable)
    (written : Written g headers above below) :
    ReadsAll {} above (headers.foldl (withHeader · g) {}) := by
  have start := writable.words _ (start_declared checked)
  refine written.headed.readsAll false ?_ ?_ ?_ ?_ {} rfl
  · exact fun line member => written.flat line (List.mem_append_left _ member)
  · intro d h
    cases h <;> rfl
  · intro d line within h _ stated
    exact (takes_header checked writable within stated).reads_of_firm (stated.firm start)
  · intro d line within free
    exact reads_freeAbove within free

theorem readsAll_rules (checked : g.check = .ok ()) (writable : g.Writable)
    (written : Written g headers above below) (within : d.inRules = true) :
    d.ReadsAll below { d with rules := g.rules.reverse ++ d.rules } := by
  rw [← foldl_rules]
  refine written.ruled.readsAll true ?_ ?_ ?_ ?_ d within
  · exact fun line member => written.flat line (List.mem_append_right _ member)
  · exact fun _ _ => rfl
  · intro d line within r member stated
    exact (takes_rule checked writable member within stated).reads_of_firm stated.firm
  · intro d line within free
    exact reads_freeBelow within free

theorem reads_rules (within : d.inRules = false) : d.Reads "rules:".toList { d with inRules := true } := by
  refine Takes.reads_of_firm (fun number => ?_) ⟨':', by decide, by decide⟩
  have untitled : readHeader (unquoted "rules:".toList) = none := by decide +kernel
  have announced : (divideAt "rules".toList (unquoted "rules:".toList)).isSome = true := by decide +kernel
  rw [readLine_above within (by decide), untitled, announced]

/-- All headers of a grammar are taken over, and no rules yet. -/
structure Headed (g : Grammar) (d : Draft) : Prop where
  start : d.start = some g.start
  terminals : d.terminals = some g.terminals
  nonterminals : d.nonterminals = some g.nonterminals
  actions : d.actions.getD [] = g.actions
  above : d.inRules = false
  rules : d.rules = []

theorem headed_foldl (complete : g.Complete headers) : Headed g (headers.foldl (withHeader · g) {}) := by
  have present (h : Header) (other : h ≠ .actions) : h ∈ headers :=
    (complete h).resolve_right fun absent => other absent.1
  rw [foldl_withHeader]
  constructor
  case start => exact if_pos (present .start nofun)
  case terminals => exact if_pos (present .terminals nofun)
  case nonterminals => exact if_pos (present .nonterminals nofun)
  case actions =>
    dsimp only
    rcases complete .actions with member | ⟨_, empty⟩
    · rw [if_pos member]
      rfl
    · rw [empty]
      split <;> rfl
  case above => rfl
  case rules => rfl

theorem Headed.finish_eq (headed : Headed g d) (checked : g.check = .ok ()) (named : g.start ≠ "") :
    finish { d with inRules := true, rules := g.rules.reverse ++ d.rules } = .ok g := by
  have start : d.start.filter (· ≠ "") = some g.start := by
    rw [headed.start, Option.filter_some, if_pos (by simpa using named)]
  have rules : (g.rules.reverse ++ d.rules).reverse = g.rules := by
    rw [headed.rules, List.append_nil, List.reverse_reverse]
  simp only [finish, start, headed.terminals, headed.nonterminals, headed.actions, rules]
  change (do g.check; return g) = _
  rw [checked]
  rfl

end Draft

theorem Written.read_eq {g : Grammar} {headers : List Header} {above below : List String}
    (checked : g.check = .ok ()) (writable : g.Writable) (complete : g.Complete headers)
    (written : Written g headers above below) : read (text above below) = .ok g := by
  have named : g.start ≠ "" := by
    intro empty
    exact (writable.words _ (start_declared checked)).nonempty (by rw [empty]; rfl)
  have headed := Draft.headed_foldl complete
  have announced : Draft.ReadsAll _ ("rules:" :: below) _ :=
    .cons (by decide) (Draft.reads_rules headed.above) (Draft.readsAll_rules checked writable written rfl)
  have reads := (Draft.readsAll_headers checked writable written).append announced
  rw [read, text, reads.foldlM_eq]
  exact headed.finish_eq checked named

/-- A symbol in a list, with a backslash before what would divide or close it. -/
def spell (close : Char) (cs : List Char) : List Char :=
  cs.flatMap fun c => if c = '\\' ∨ c = ',' ∨ c = close then ['\\', c] else [c]

def listText (close : Char) : List Symbol → List Char
  | [] => [' ', close]
  | [s] => ' ' :: (spell close s.toList ++ [' ', close])
  | s :: symbols => ' ' :: (spell close s.toList ++ ',' :: listText close symbols)

def Header.valueText (g : Grammar) (h : Header) : List Char :=
  match h.symbols? g with
  | none => g.start.toList
  | some symbols => '[' :: listText ']' symbols

def Header.write (g : Grammar) (h : Header) : String :=
  String.ofList (h.name.toList ++ ' ' :: '=' :: ' ' :: h.valueText g)

def writeRule (r : Rule) : String :=
  let side := r.right.flatMap (fun s => ' ' :: s.toList) ++ [' ']
  String.ofList (r.left.toList ++ ' ' :: '-' :: '>' :: (side ++ '\x7b' :: listText '\x7d' r.lookahead))

/-- A text without quotes and line feeds. -/
def Clear (cs : List Char) : Prop := ∀ c ∈ cs, c ≠ '\x27' ∧ c ≠ '\n'

section Writing

variable {g : Grammar} {h : Header} {r : Rule} {close : Char} {cs : List Char} {symbols : List Symbol}

instance : Decidable (Clear cs) := List.decidableBAll _ cs

@[simp] theorem clear_cons_iff {c : Char} : Clear (c :: cs) ↔ (c ≠ '\x27' ∧ c ≠ '\n') ∧ Clear cs :=
  List.forall_mem_cons

@[simp] theorem clear_append_iff {back : List Char} : Clear (cs ++ back) ↔ Clear cs ∧ Clear back :=
  List.forall_mem_append

theorem Clear.unquoted_eq (clear : Clear cs) : unquoted cs = cs :=
  List.filter_eq_self.mpr fun c member => decide_eq_true (clear c member).1

theorem Clear.flat (clear : Clear cs) : '\n' ∉ cs := fun member => (clear _ member).2 rfl

theorem Writable.clear {s : Symbol} (writable : g.Writable) (declared : s ∈ g.declared) : Clear s.toList := by
  intro c member
  refine ⟨?_, ?_⟩
  · rintro rfl
    exact writable.quoteless s declared member
  · rintro rfl
    exact (writable.words s declared).lineFeed_not_mem member

theorem spelled_spell (close : Char) (cs : List Char) : Spelled close cs (spell close cs) := by
  induction cs with
  | nil => exact .nil
  | cons c cs ih =>
    rw [spell, List.flatMap_cons]
    split
    · exact .marked ih
    · rename_i plain
      exact .plain (by simpa using plain) ih

theorem isBlank_space : IsBlank [' '] := by decide

theorem item_spell {back : List Char} (behind : IsBlank back) (s : Symbol) :
    Item close s (' ' :: (spell close s.toList ++ back)) :=
  Item.among isBlank_space (spelled_spell close s.toList) behind

theorem listed_listText (close : Char) (symbols : List Symbol) :
    Listed close symbols (listText close symbols) := by
  fun_induction listText close symbols with
  | case1 => exact .none isBlank_space
  | case2 s =>
    have listed : Listed close [s] _ := .last (item_spell isBlank_space s)
    simpa using listed
  | case3 s symbols _ ih =>
    have listed := Listed.more (item_spell Text.isBlank_nil s) ih
    simpa using listed

theorem Clear.spell (clear : Clear cs) (close : Char) : Clear (spell close cs) := by
  intro c member
  obtain ⟨d, inside, found⟩ := List.mem_flatMap.mp member
  split at found
  · rcases List.mem_pair.mp found with rfl | rfl
    · decide
    · exact clear c inside
  · cases List.mem_singleton.mp found
    exact clear c inside

theorem clear_listText (closing : Closing close) (clear : ∀ s ∈ symbols, Clear s.toList) :
    Clear (listText close symbols) := by
  have ending : Clear [' ', close] := by rcases closing with rfl | rfl <;> decide
  have space : ' ' ≠ '\x27' ∧ ' ' ≠ '\n' := by decide
  fun_induction listText close symbols with
  | case1 => exact ending
  | case2 s =>
    have spelled := (clear s (.head _)).spell close
    exact clear_cons_iff.mpr ⟨space, clear_append_iff.mpr ⟨spelled, ending⟩⟩
  | case3 s symbols _ ih =>
    have comma : ',' ≠ '\x27' ∧ ',' ≠ '\n' := by decide
    obtain ⟨here, later⟩ := List.forall_mem_cons.mp clear
    simp only [clear_cons_iff, clear_append_iff]
    exact ⟨space, here.spell close, comma, ih later⟩

theorem headerLine_write (g : Grammar) (h : Header) : HeaderLine g h (h.write g).toList := by
  have valued : HeaderValue g h (h.valueText g) := by
    cases h with
    | start => exact .start
    | terminals | nonterminals | actions => exact .list rfl (listed_listText ']' _)
  have named : h.name.toList ≠ [] ∧ h.name.toList.all isNameChar = true := by cases h <;> decide +kernel
  have gap : [' '].all Text.isGap = true := by decide
  have titled : Titled h.name.toList ([' '] ++ h.valueText g)
      ([] ++ h.name.toList ++ [' '] ++ '=' :: ([' '] ++ h.valueText g)) :=
    .line (fun _ member => absurd member List.not_mem_nil) ⟨named.1, List.all_eq_true.mp named.2⟩
      (List.all_eq_true.mp gap)
  rw [Header.write, String.toList_ofList]
  exact .line isBlank_space valued (by simpa using titled)

theorem side_write (symbols : List Symbol) :
    Side symbols (symbols.flatMap (fun s => ' ' :: s.toList) ++ [' ']) := by
  induction symbols with
  | nil => exact .nil isBlank_space
  | cons s symbols ih =>
    have side : Side (s :: symbols) _ := .cons (List.cons_ne_nil ' ' []) isBlank_space ih
    simpa using side

theorem ruleLine_write (r : Rule) : RuleLine r (writeRule r).toList := by
  have listed := listed_listText '\x7d' r.lookahead
  have line := RuleLine.line Text.isBlank_nil isBlank_space (side_write r.right) listed
  rw [writeRule, String.toList_ofList]
  simpa using line

theorem Writable.clear_header (writable : g.Writable) (checked : g.check = .ok ()) :
    Clear (h.write g).toList := by
  have named : Clear h.name.toList := by cases h <;> decide +kernel
  have value : Clear (h.valueText g) := by
    unfold Header.valueText
    split
    · exact writable.clear (start_declared checked)
    · rename_i symbols lists
      have list : Clear (listText ']' symbols) :=
        clear_listText (.inl rfl) fun s member => writable.clear (h.symbols?_subset lists s member)
      exact clear_cons_iff.mpr ⟨by decide, list⟩
  rw [Header.write, String.toList_ofList]
  simp [named, value]

theorem Writable.clear_rule (writable : g.Writable) (checked : g.check = .ok ()) (member : r ∈ g.rules) :
    Clear (writeRule r).toList := by
  have declared := declared_of_check checked member
  have side : Clear (r.right.flatMap fun s => ' ' :: s.toList) := by
    refine List.forall_mem_flatMap.mpr fun s inside => ?_
    exact clear_cons_iff.mpr ⟨by decide, writable.clear (declared.right s inside)⟩
  have list : Clear (listText '\x7d' r.lookahead) :=
    clear_listText (.inr rfl) fun s inside => writable.clear (declared.lookahead s inside)
  rw [writeRule, String.toList_ofList]
  simp [writable.clear declared.left, side, list]

/-- A grammar can be written with its headers in any order. -/
theorem Writable.written (writable : g.Writable) (checked : g.check = .ok ()) (headers : List Header) :
    Written g headers (headers.map (Header.write g)) (g.rules.map writeRule) := by
  constructor
  case headed =>
    refine Woven.of_map fun h _ => ?_
    rw [(writable.clear_header checked).unquoted_eq]
    exact headerLine_write g h
  case ruled =>
    refine Woven.of_map fun r member => ?_
    rw [(writable.clear_rule checked member).unquoted_eq]
    exact ruleLine_write r
  case flat =>
    refine List.forall_mem_append.mpr ⟨?_, ?_⟩
    · exact List.forall_mem_map.mpr fun h _ => (writable.clear_header checked).flat
    · exact List.forall_mem_map.mpr fun r member => (writable.clear_rule checked member).flat

end Writing

/-- A grammar with symbols that can be written down is given back by every text that states it: one in which
each line is stated as it is usually written, and all those with other blanks and marks, with quotes, with the
headers in another order, and with blank lines and free text anywhere. -/
theorem written_grammar_reads_back {start : Symbol} {terminals nonterminals actions : List Symbol}
    {rules : List (Symbol × List Symbol)} {lookaheads : List (List Symbol)} {g : Grammar}
    {headers : List Header} (made : ofParts start terminals nonterminals actions rules lookaheads = .ok g)
    (writable : g.Writable) (complete : g.Complete headers) :
    Written g headers (headers.map (Header.write g)) (g.rules.map writeRule) ∧
      ∀ above below, Written g headers above below → read (text above below) = .ok g := by
  have checked := check_of_ofParts made
  refine ⟨writable.written checked headers, fun above below written => ?_⟩
  exact written.read_eq checked writable complete

/-- Signs that divide or close lists, as symbols. -/
def signs : Grammar where
  start := "s="
  terminals := [",", "]", "\x7d", "\\", "->", "#"]
  nonterminals := ["s=", "[-"]
  actions := ["=,"]
  rules := [⟨"s=", [",", "->", "=,", "[-", "\x7d"], [",", "\x7d", "\\"]⟩, ⟨"[-", [], ["#", "]"]⟩]

def signsAbove : List String :=
  ["Signs, and what they = elsewhere", "action_symbols = [ =\\, ]", "nonterminals = [ s=, [- ]", " \t",
    "'start_symbol' = s=", "terminals = [ \\,, \\], \x7d, \\\\, ->, # ]", "= 'the end'"]

def signsBelow : List String :=
  ["", "'s=' -> , -> =, [- \x7d \x7b \\,, \\\x7d, \\\\ \x7d", "which is no - > arrow",
    "[- -> \x7b #, ] \x7d", ""]

theorem written_grammar_reads_back_signs :
    (signs.Writable ∧ signs.Complete [.actions, .nonterminals, .start, .terminals] ∧
      Written signs [.actions, .nonterminals, .start, .terminals] signsAbove signsBelow) ∧
      read (text signsAbove signsBelow) = .ok signs := by
  have made : ofParts signs.start signs.terminals signs.nonterminals signs.actions
      (signs.rules.map fun r => (r.left, r.right)) (signs.rules.map Rule.lookahead) = .ok signs := by
    decide +kernel
  have writable : signs.Writable := by
    constructor <;> decide +kernel
  have complete : signs.Complete [.actions, .nonterminals, .start, .terminals] := by
    intro h
    cases h <;> decide
  have headed (h : Header) {line : List Char} (same : line = (h.write signs).toList) :
      HeaderLine signs h line := same ▸ headerLine_write signs h
  have ruled {r : Rule} {line : List Char} (same : line = (writeRule r).toList) : RuleLine r line :=
    same ▸ ruleLine_write r
  have written : Written signs [.actions, .nonterminals, .start, .terminals] signsAbove signsBelow := by
    constructor
    case headed =>
      refine .free ?_ (.line (headed .actions ?_) (.line (headed .nonterminals ?_) (.free ?_
        (.line (headed .start ?_) (.line (headed .terminals ?_) (.free ?_ .nil)))))) <;> decide +kernel
    case ruled =>
      refine .free ?_ (.line (ruled ?_) (.free ?_ (.line (ruled ?_) (.free ?_ .nil)))) <;> decide +kernel
    case flat => decide +kernel
  exact ⟨⟨writable, complete, written⟩, (written_grammar_reads_back made writable complete).2 _ _ written⟩

/-- A quote hides an arrow from the eye but not from the reader. -/
theorem quoted_arrow_not_free :
    let g : Grammar := ⟨"s", ["#"], ["s"], [], [⟨"s", [], ["#"]⟩]⟩
    let above := ["start_symbol = s", "terminals = [ # ]", "nonterminals = [ s ]"]
    (ofParts "s" ["#"] ["s"] [] [("s", [])] [["#"]] = .ok g ∧ g.Writable) ∧
      read (text above ["s -> \x7b # \x7d"]) = .ok g ∧ ¬ ['-', '>'] <:+: "-'>".toList ∧
      read (text above ["-'>", "s -> \x7b # \x7d"]) = .error (.malformedRule 5 "-'>") := by
  refine ⟨⟨by decide +kernel, ?_⟩, by decide +kernel, by decide, by decide +kernel⟩
  constructor <;> decide +kernel

end Pushdown.Grammar
